import ChutesApi.Affine.Model.Check
import Mathlib.Data.Set.Insert
import Mathlib.Logic.Function.Basic
import Mathlib.Logic.Relation
/-!
# What a module's expressions evaluate to

Three kinds of things are followed through a module: the `os` module, the
functions that build a chute, and the builtins that give a program what it
was not handed. A variable holds at most one of them at a time, itself or
inside an object that the module has put it in. An expression is evaluated
in a state by rules, one for each way in which its value can be such a
thing: a conditional has the value of a branch, a display is an object that
holds its elements, a subscript, an attribute or a call of an object may
give out what the object holds. The values of tests, of literals and of
objects from elsewhere are not followed, so that evaluation has several
outcomes where these decide.

A run of a module takes its nodes in any order and as often as it likes,
and a name stands for all variables of its spelling: branches, loops and
scopes are left open. Code that is not in view, such as that of `chutes`
and of the operators, may keep what it is handed, and give it back wherever
it is asked for something; it has none of these things from elsewhere. A
builtin that runs code or opens a namespace gives it everything.
-/

namespace ChutesApi

namespace Affine

open Python (startsWith)

/-! ## The things that are followed -/

/-- The functions that build a chute. -/
inductive Builder
  | vllm
  | sglang
  deriving DecidableEq, Repr

/-- `func_name`. -/
def Builder.name : Builder → String
  | .vllm => "build_vllm_chute"
  | .sglang => "build_sglang_chute"

inductive Thing
  | os
  /-- A builtin by which a program gets at what it was not handed. -/
  | gateway
  | builder (k : Builder)
  deriving DecidableEq, Repr

/-- A value, as far as one of the things goes. -/
structure Value where
  thing : Thing
  /-- It is an object that holds the thing. -/
  inside : Bool
  deriving DecidableEq, Repr

/-- **The builtins that are gateways.** They run code, import modules, open
namespaces, make functions or classes, or write the files that are imported. -/
def gateways : List String :=
  ["__import__", "__build_class__", "__builtins__", "__loader__", "__spec__", "breakpoint",
    "compile", "eval", "exec", "getattr", "globals", "help", "locals", "open", "type", "vars"]

/-- **The attributes that lead to a namespace, to code or to all classes.**
Those of frames are not refused by the check, and those with underscores
only in attribute expressions. -/
def openings : List String :=
  ["f_globals", "f_builtins", "f_locals", "__globals__", "__builtins__", "__dict__", "__code__",
    "__closure__", "__self__", "__func__", "__class__", "__subclasses__", "__bases__", "__mro__",
    "__getattribute__", "__getattr__", "__setattr__", "__init__", "__new__", "__call__",
    "__reduce__", "__reduce_ex__", "__getstate__", "__setstate__", "__import__", "__loader__",
    "__spec__"]

namespace Value

/-- What an object gives out for a subscript, an element or a call. -/
def part : Value → List Value
  | ⟨t, true⟩ => [⟨t, true⟩, ⟨t, false⟩]
  | ⟨.gateway, false⟩ => [⟨.gateway, true⟩]
  | ⟨_, false⟩ => []

/-- What it gives out for an attribute. A method holds the object it is one
of, and any attribute of `os` but the permitted ones can be a gateway. -/
def member (attr : String) : Value → List Value
  | ⟨.os, false⟩ => if attr ∈ permitted then [] else [⟨.gateway, false⟩]
  | ⟨t, false⟩ => [⟨t, true⟩]
  | v => v.part

/-- An object that holds what the value is or holds. -/
def held (v : Value) : Value := ⟨v.thing, true⟩

variable {v w : Value} {attr : String}

theorem thing_of_mem_part (h : w ∈ v.part) : w.thing = v.thing := by
  unfold part at h
  split at h
  · rcases List.mem_cons.1 h with rfl | h
    · rfl
    · rw [List.mem_singleton.1 h]
  · rw [List.mem_singleton.1 h]
  · cases h

/-- An attribute of anything but `os` is one of what the object holds. -/
theorem thing_of_mem_member (h : w ∈ v.member attr) (hv : v ≠ ⟨.os, false⟩) :
    w.thing = v.thing := by
  unfold member at h
  split at h
  · exact absurd rfl hv
  · rw [List.mem_singleton.1 h]
  · exact thing_of_mem_part h

end Value

/-! ## What a node does with values -/

/-- A function and what it is called with. -/
structure Call where
  func : Ast
  args : List Ast
  keywords : List Ast
  deriving Repr

/-- Where a binding has its value from. -/
inductive Source
  | module (name : String)
  | builder (k : Builder)
  | value (e : Ast)
  /-- An object that holds the value. -/
  | holder (e : Ast)
  /-- An element of what is unpacked or looped over. -/
  | element (e : Ast)
  /-- An object that is none of the things: one that is imported, or a
  function of the module itself. -/
  | object
  /-- Code that is not in view. -/
  | unseen
  deriving Repr

/-- The name that an alias of a `from` import binds. -/
def Alias.bound (a : Alias) : String :=
  if Python.truthy a.asname then a.asname.getD "" else a.name

/-- The alias is one of a builder. -/
def Alias.isBuilder (k : Builder) (a : Alias) : Bool := a.name = k.name

/-- What an alias imports from a module. -/
def Alias.source (path : Option String) (a : Alias) : Source :=
  if startsWith (path.getD "") "chutes.chute.template" then
    if a.isBuilder .vllm then .builder .vllm
    else if a.isBuilder .sglang then .builder .sglang
    else .object
  else .object

namespace Ast

/-- The target keeps its value in an object. -/
def isSlot : Ast → Bool
  | .attributeRef .. | .subscript .. => true
  | _ => false

/-- The name that a node is the target of. -/
def target : Ast → Option String
  | .name id .store => some id
  | _ => none

mutual

/-- The targets that a value is unpacked to. -/
def leaves : Ast → List Ast
  | .display elts _ => leavesOf elts
  | .other children => leavesOf children
  | a => [a]

def leavesOf : List Ast → List Ast
  | [] => []
  | a :: as => leaves a ++ leavesOf as

end

/-- The expressions whose value a node hands to code that is not in view. -/
def hands : Ast → List Ast
  | .subscript _ slice _ => [slice]
  | .call _ args _ => args
  | .keyword _ value => [value]
  | .binOp left _ right => [left, right]
  | .assign targets value => if (leavesOf targets).any isSlot then [value] else []
  | .augAssign target _ value => [target, value]
  | .annAssign target _ value => if target.isSlot then value.toList else []
  | .loop target iter _ _ => if target.leaves.any isSlot then [iter] else []
  -- Defaults and annotations of parameters are handed on by their own nodes.
  | .functionDef _ _ _ _ rest => rest
  | .binder _ children | .joinedStr children | .lambda children | .classDef children
  | .forbidden _ children | .other children => children
  | _ => []

/-- An alias of an `import`: `import a.b` binds `a`. -/
def importOf (a : Alias) : String × Source :=
  match a.asname with
  | some asname => (asname, .module a.name)
  | none => (Python.splitHead a.name '.', .module (Python.splitHead a.name '.'))

/-- What a node binds. A target that is not one of a plain assignment gets
its value from code that is not in view, or from `unpacks`. -/
def writes : Ast → List (String × Source)
  | .imports names => names.map importOf
  | .importFrom path names => names.map fun a => (a.bound, a.source path)
  | .assign targets value => (targets.filterMap target).map (·, .value value)
  | .annAssign annTarget _ value =>
    (annTarget.target.toList).flatMap fun id => value.toList.map fun e => (id, .value e)
  | .namedExpr namedTarget value => namedTarget.target.toList.map (·, .value value)
  | .functionDef id _ _ decoratorList _ =>
    [(id, if decoratorList.isEmpty then .object else .unseen)]
  | .binder names _ => names.map (·, .unseen)
  | a => (a.children.filterMap target).map (·, .unseen)

/-- What it binds in objects: the targets of an unpacking and of a loop, and
`__annotations__`. -/
def unpacks : Ast → List (String × Source)
  | .assign targets value =>
    ((targets.filter fun a => !a.target.isSome).flatMap leaves).filterMap fun a =>
      a.target.map (·, .element value)
  | .loop loopTarget iter _ _ => (loopTarget.leaves.filterMap target).map (·, .element iter)
  | .annAssign _ annotation _ => [("__annotations__", .holder annotation)]
  | _ => []

def bindings (a : Ast) : List (String × Source) := a.writes ++ a.unpacks

/-- The calls that a node makes: a decorator is called with the function. -/
def calls : Ast → List Call
  | .call func args keywords => [⟨func, args, keywords⟩]
  | .functionDef id args body decoratorList rest =>
    decoratorList.map (⟨·, [.functionDef id args body decoratorList rest], []⟩)
  | _ => []

/-- The node asks for an attribute that opens a namespace. -/
def isOpening : Ast → Bool
  | .attributeRef _ attr _ => attr ∈ openings
  | .matchClass _ _ kwdAttrs _ => kwdAttrs.any (· ∈ openings)
  | _ => false

/-- Code that is not in view decides on the value. -/
def isOpen : Ast → Bool
  | .attributeRef .. | .subscript .. | .call .. | .binOp .. | .lambda _ | .forbidden ..
  | .other _ => true
  | _ => false

/-- The attributes that a node evaluates, with the value they are asked of.
An augmented assignment evaluates its target. -/
def reads : Ast → List (Ast × String)
  | .attributeRef value attr .load => [(value, attr)]
  | .augAssign (.attributeRef value attr _) _ _ => [(value, attr)]
  | _ => []

/-- A class pattern that may ask its subject for the attribute. Where it has
patterns by position, the class says for which. -/
def matchesFor (attr : String) : Ast → Bool
  | .matchClass _ patterns kwdAttrs _ => patterns ≠ [] || attr ∈ kwdAttrs
  | _ => false

end Ast

/-! ## Evaluation -/

/-- A state of a module. -/
structure State where
  /-- What a variable holds, if it is one of the things. -/
  vars : String → Option Value
  /-- What code that is not in view has been handed. -/
  outside : Set Thing

namespace State

def empty : State := ⟨fun _ => none, ∅⟩

def bind (s : State) (id : String) (v : Option Value) : State :=
  { s with vars := Function.update s.vars id v }

def hand (s : State) (t : Thing) : State := { s with outside := insert t s.outside }

end State

/-- **An expression can evaluate to the value.** -/
inductive Evals (s : State) : Ast → Value → Prop
  | var {id ctx v} : s.vars id = some v → Evals s (.name id ctx) v
  | builtin {id ctx} : id ∈ gateways → Evals s (.name id ctx) ⟨.gateway, false⟩
  | body {test body orelse v} : Evals s body v → Evals s (.ifExp test body orelse) v
  | orelse {test body orelse v} : Evals s orelse v → Evals s (.ifExp test body orelse) v
  | operand {values e v} : e ∈ values → Evals s e v → Evals s (.boolOp values) v
  | walrus {target value v} : Evals s value v → Evals s (.namedExpr target value) v
  | element {elts ctx e v} : e ∈ elts → Evals s e v → Evals s (.display elts ctx) v.held
  | key {keys values e v} : some e ∈ keys → Evals s e v → Evals s (.dict keys values) v.held
  | entry {keys values e v} : e ∈ values → Evals s e v → Evals s (.dict keys values) v.held
  | member {e attr ctx v w} : Evals s e v → w ∈ v.member attr →
      Evals s (.attributeRef e attr ctx) w
  | subscript {e slice ctx v w} : Evals s e v → w ∈ v.part → Evals s (.subscript e slice ctx) w
  | call {func args keywords v w} : Evals s func v → w ∈ v.part →
      Evals s (.call func args keywords) w
  | unseen {a v} : a.isOpen → v.thing ∈ s.outside → Evals s a v

/-- What a binding's source can yield. -/
inductive Source.Yields (s : State) : Source → Value → Prop
  | module : Source.Yields s (.module "os") ⟨.os, false⟩
  | builder {k} : Source.Yields s (.builder k) ⟨.builder k, false⟩
  | value {e v} : Evals s e v → Source.Yields s (.value e) v
  | holder {e v} : Evals s e v → Source.Yields s (.holder e) v.held
  | element {e v w} : Evals s e v → w ∈ v.part → Source.Yields s (.element e) w
  | next {e v} : v.thing ∈ s.outside → Source.Yields s (.element e) v
  | unseen {v} : v.thing ∈ s.outside → Source.Yields s .unseen v

/-- **A node goes through a gateway**: it calls one or hands it on, or asks
for an attribute that opens a namespace. -/
def Opens (s : State) (a : Ast) : Prop :=
  (∃ e ∈ a.hands ++ a.calls.map Call.func, ∃ inside, Evals s e ⟨.gateway, inside⟩) ∨ a.isOpening

/-! ## The runs of a module -/

/-- **One step of a module.** -/
inductive Step (body : List Ast) (s : State) : State → Prop
  | bind {a id src v} : (Ast.module body).Within a → (id, src) ∈ a.bindings → src.Yields s v →
      Step body s (s.bind id (some v))
  /-- A variable is bound to something else. -/
  | rebind {a id src} : (Ast.module body).Within a → (id, src) ∈ a.bindings →
      Step body s (s.bind id none)
  | hand {a e v} : (Ast.module body).Within a → e ∈ a.hands → Evals s e v →
      Step body s (s.hand v.thing)
  /-- What is called has in hand what it holds. -/
  | call {a c t} : (Ast.module body).Within a → c ∈ a.calls → Evals s c.func ⟨t, true⟩ →
      Step body s (s.hand t)
  | run {a t} : (Ast.module body).Within a → Opens s a → Step body s (s.hand t)

/-- A state that some run of the module reaches. -/
def Reached (body : List Ast) (s : State) : Prop :=
  Relation.ReflTransGen (Step body) .empty s

/-- **A node evaluates an attribute of `os`**: it asks for it itself, matches
a subject that can be the module for it, or goes through a gateway, which can
evaluate any. -/
def Takes (s : State) (a : Ast) (attr : String) : Prop :=
  (∃ value, (value, attr) ∈ a.reads ∧ Evals s value ⟨.os, false⟩) ∨
    a.matchesFor attr ∧ .os ∈ s.outside ∨ Opens s a

/-- **The module keeps to the permitted attributes**: along every run, no
node evaluates another attribute of `os`. -/
def Sound (body : List Ast) : Prop :=
  ∀ s, Reached body s → ∀ a, (Ast.module body).Within a → ∀ attr, Takes s a attr →
    attr ∈ permitted

end Affine

end ChutesApi
