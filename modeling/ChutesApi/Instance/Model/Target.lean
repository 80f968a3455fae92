import ChutesApi.Instance.Model.Routing
import ChutesApi.Python.Generator
/-!
# A connection to a target

`get_target` is a context manager: it selects a target, registers a
connection to it in Redis and yields it, and removes the connection in the
end. Where there is no target it yields a message. The body of the context
runs at a `yield` inside the `try`, so what it raises meets the same
`except` clauses as what the selection does.
-/

namespace ChutesApi

open Python

/-- The classes of exceptions that `get_target` tells apart; the last is of
those that are no `Exception`, as a cancellation is. -/
inductive ExnClass
  | timeoutError
  | infraOverload
  | exception
  | baseException
  deriving DecidableEq

/-- An exception, as an object: its class, its text, and which it is. -/
structure Exn where
  cls : ExnClass
  text : String := ""
  object : ℕ := 0
  deriving DecidableEq

/-- `except Exception` catches it. -/
def Exn.isException (e : Exn) : Bool := e.cls ≠ .baseException

/-- What is yielded: a target and an error message. -/
structure Target where
  instanceId : Option String
  errorMessage : Option String
  deriving DecidableEq

/-- What is done in Redis, for an instance and a connection. -/
inductive ConnEvent
  | add (instanceId connId : String)
  | remove (instanceId connId : String)
  deriving DecidableEq

/-- **What a connection meets.** -/
structure Connection where
  manager : LeastConnManager
  avoid : List String
  prefixes : Option (List (ℕ × String))
  draws : Draws
  caches : Caches
  connId : String
  /-- What `wait_for` raises in place of the targets. -/
  selecting : Option Exn
  /-- `random.choice`. -/
  choice : ℕ
  /-- What waiting for the registration comes to, for the body, and for the
  removal. -/
  adding : Except Exn Unit
  body : Target → Except Exn Unit
  removing : Except Exn Unit

namespace Connection

variable (c : Connection)

/-- What waiting for the targets comes to. -/
def targets : Except Exn (List String) :=
  match c.selecting with
  | some e => .error e
  | none =>
    match c.manager.getTargets c.draws c.caches c.avoid c.prefixes with
    | .ok targets => .ok targets
    | .error text => .error { cls := .infraOverload, text := text }

/-- `instance`, from where there are targets. -/
def selected : Option String :=
  match c.targets with
  | .ok targets => targets.head?
  | .error _ => none

/-- `available`. -/
def available : List String := c.manager.instances.filter (· ∉ c.avoid)

/-- `random.choice(available)`. -/
def randomChoice : Option String := c.available[c.choice % c.available.length]?

def noInfrastructure : String := "No infrastructure available to serve request"

/-- A message for no target. -/
def refuse (message : String) : Gen Exn Target ConnEvent Unit :=
  Gen.produce ⟨none, some message⟩

/-- `except Exception: log`. -/
def logged (e : Exn) : Option (Gen Exn Target ConnEvent Unit) :=
  if e.isException then some (pure ()) else none

/-- What is in the `try`. -/
def trying : Gen Exn Target ConnEvent Unit := do
  match ← Gen.await c.targets with
  | [] => refuse noInfrastructure
  | instanceId :: _ =>
    Gen.tryExcept (do
      Gen.emit (.add instanceId c.connId)
      Gen.await c.adding) logged
    Gen.produce ⟨some instanceId, none⟩

/-- The `except` clauses. -/
def handler (e : Exn) : Option (Gen Exn Target ConnEvent Unit) :=
  if e.cls = .timeoutError then
    some (match c.randomChoice with
      | some instanceId => Gen.produce ⟨some instanceId, none⟩
      | none => refuse noInfrastructure)
  else if e.isException then
    some (if e.cls = .infraOverload then refuse "infra_overload"
      else refuse (noInfrastructure ++ ", error code: " ++ e.text))
  else none

/-- What is in the `finally`. -/
def release : Gen Exn Target ConnEvent Unit :=
  match c.selected with
  | none => pure ()
  | some instanceId =>
    Gen.tryExcept (do
      Gen.emit (.remove instanceId c.connId)
      Gen.await c.removing) logged

/-- **`get_target`.** -/
def getTarget : Gen Exn Target ConnEvent Unit := (c.trying.tryExcept c.handler).tryFinally c.release

/-- The errors of `contextlib`. -/
def contextlib : Protocol Exn where
  didNotYield := { cls := .exception, text := "generator didn't yield" }
  didNotStop := { cls := .exception, text := "generator didn't stop after athrow()" }
  generatorExit := { cls := .baseException }

/-- **`async with manager.get_target(…)`.** -/
def use : Use Exn Target ConnEvent := asyncWith contextlib c.getTarget c.body

end Connection

end ChutesApi
