import Mathlib.Data.List.Basic
/-!
# Generators and context managers

A generator runs until it yields, returns or raises. Where it has yielded it
is resumed, with an exception thrown in or without. `next` is how far it
runs, and each combinator has a rule for it.

`asyncWith` is what a generator comes to as a context manager: the body runs
where it yields, and what the body raises is thrown in. A generator that
then yields again is closed, and that is an error of its own.
-/

namespace ChutesApi

namespace Python

variable {ε ν ω α β : Type}

/-- **A generator**, which raises `ε`, yields `ν`, has effects `ω` and returns
`α`. -/
inductive Gen (ε ν ω α : Type)
  | done (a : α)
  | raises (e : ε)
  /-- Resumed with what is thrown in, if anything is. -/
  | yields (v : ν) (resume : Option ε → Gen ε ν ω α)
  | emits (w : ω) (rest : Gen ε ν ω α)

/-- Where a generator is when it stops running. -/
inductive Next (ε ν ω α : Type)
  | stopped (a : α)
  | raised (e : ε)
  | yielded (v : ν) (resume : Option ε → Gen ε ν ω α)

namespace Gen

/-! ## The statements -/

def bind : Gen ε ν ω α → (α → Gen ε ν ω β) → Gen ε ν ω β
  | done a, f => f a
  | raises e, _ => .raises e
  | yields v resume, f => .yields v fun thrown => (resume thrown).bind f
  | emits w g, f => .emits w (g.bind f)

instance : Monad (Gen ε ν ω) where
  pure := done
  bind := bind

/-- A `yield` that is resumed: what is thrown in is raised there. -/
def resumed : Option ε → Gen ε ν ω Unit
  | none => done ()
  | some e => raises e

/-- `yield v`. -/
def produce (v : ν) : Gen ε ν ω Unit := yields v resumed

/-- `await`, of what comes to `x`. -/
def await : Except ε α → Gen ε ν ω α
  | .ok a => done a
  | .error e => raises e

def emit (w : ω) : Gen ε ν ω Unit := emits w (done ())

/-- `try … except`: a handler for what it catches. -/
def tryExcept : Gen ε ν ω α → (ε → Option (Gen ε ν ω α)) → Gen ε ν ω α
  | done a, _ => done a
  | raises e, handler => (handler e).getD (raises e)
  | yields v resume, handler => yields v fun thrown => (resume thrown).tryExcept handler
  | emits w g, handler => emits w (g.tryExcept handler)

/-- `try … finally`: what the final part raises replaces what was raised. -/
def tryFinally : Gen ε ν ω α → Gen ε ν ω Unit → Gen ε ν ω α
  | done a, final => final.bind fun _ => done a
  | raises e, final => final.bind fun _ => raises e
  | yields v resume, final => yields v fun thrown => (resume thrown).tryFinally final
  | emits w g, final => emits w (g.tryFinally final)

/-! ## How far a generator runs -/

/-- The effects up to where it stops, and where that is. -/
def next : Gen ε ν ω α → List ω × Next ε ν ω α
  | done a => ([], .stopped a)
  | raises e => ([], .raised e)
  | yields v resume => ([], .yielded v resume)
  | emits w g => (w :: g.next.1, g.next.2)

variable {g : Gen ε ν ω α} {f : α → Gen ε ν ω β} {handler : ε → Option (Gen ε ν ω α)}
variable {final : Gen ε ν ω Unit} {ws ws' : List ω} {a : α} {e : ε} {v : ν}
variable {resume : Option ε → Gen ε ν ω α}

@[simp] theorem next_done : (done a : Gen ε ν ω α).next = ([], .stopped a) := rfl

@[simp] theorem next_raises : (raises e : Gen ε ν ω α).next = ([], .raised e) := rfl

@[simp] theorem next_yields : (yields v resume).next = ([], .yielded v resume) := rfl

theorem next_bind (g : Gen ε ν ω α) (f : α → Gen ε ν ω β) : (g.bind f).next =
    match g.next with
    | (ws, .stopped a) => (ws ++ (f a).next.1, (f a).next.2)
    | (ws, .raised e) => (ws, .raised e)
    | (ws, .yielded v resume) => (ws, .yielded v fun thrown => (resume thrown).bind f) := by
  induction g with
  | done a => simp [bind]
  | raises e => rfl
  | yields v resume => rfl
  | emits w g ih =>
    have hnext : (bind (emits w g) f).next = (w :: (g.bind f).next.1, (g.bind f).next.2) := rfl
    rw [hnext, ih]
    simp only [next]
    rcases g.next with ⟨ws, a | e | ⟨v, resume⟩⟩ <;> rfl

theorem next_tryExcept (g : Gen ε ν ω α) (handler : ε → Option (Gen ε ν ω α)) :
    (g.tryExcept handler).next =
    match g.next with
    | (ws, .stopped a) => (ws, .stopped a)
    | (ws, .raised e) => (ws ++ ((handler e).getD (raises e)).next.1,
        ((handler e).getD (raises e)).next.2)
    | (ws, .yielded v resume) =>
      (ws, .yielded v fun thrown => (resume thrown).tryExcept handler) := by
  induction g with
  | done a => rfl
  | raises e => simp [tryExcept]
  | yields v resume => rfl
  | emits w g ih =>
    have hnext : (tryExcept (emits w g) handler).next =
        (w :: (g.tryExcept handler).next.1, (g.tryExcept handler).next.2) := rfl
    rw [hnext, ih]
    simp only [next]
    rcases g.next with ⟨ws, a | e | ⟨v, resume⟩⟩ <;> rfl

theorem next_tryFinally (g : Gen ε ν ω α) (final : Gen ε ν ω Unit) :
    (g.tryFinally final).next =
    match g.next with
    | (ws, .stopped a) => (ws ++ (final.bind fun _ => done a).next.1,
        (final.bind fun _ => (done a : Gen ε ν ω α)).next.2)
    | (ws, .raised e) => (ws ++ (final.bind fun _ => (raises e : Gen ε ν ω α)).next.1,
        (final.bind fun _ => (raises e : Gen ε ν ω α)).next.2)
    | (ws, .yielded v resume) =>
      (ws, .yielded v fun thrown => (resume thrown).tryFinally final) := by
  induction g with
  | done a => simp [tryFinally]
  | raises e => simp [tryFinally]
  | yields v resume => rfl
  | emits w g ih =>
    have hnext : (tryFinally (emits w g) final).next =
        (w :: (g.tryFinally final).next.1, (g.tryFinally final).next.2) := rfl
    rw [hnext, ih]
    simp only [next]
    rcases g.next with ⟨ws, a | e | ⟨v, resume⟩⟩ <;> rfl

end Gen

/-! ## As a context manager -/

/-- What a use of a context manager comes to: the values it yielded, its
effects, and what the `async with` statement raises, if anything. -/
structure Use (ε ν ω : Type) where
  yields : List ν
  effects : List ω
  result : Except ε Unit

/-- The exceptions that are not the generator's own: that it did not yield,
that it did not stop, and the one that closes it. -/
structure Protocol (ε : Type) where
  didNotYield : ε
  didNotStop : ε
  generatorExit : ε

/-- What is thrown in, after the body. -/
def thrown : Except ε Unit → Option ε
  | .ok _ => none
  | .error e => some e

/-- **`async with`**, of a generator under `asynccontextmanager`. -/
def asyncWith (protocol : Protocol ε) (g : Gen ε ν ω Unit) (body : ν → Except ε Unit) :
    Use ε ν ω :=
  match g.next with
  | (ws, .stopped _) => ⟨[], ws, .error protocol.didNotYield⟩
  | (ws, .raised e) => ⟨[], ws, .error e⟩
  | (ws, .yielded v resume) =>
    match (resume (thrown (body v))).next with
    -- what the body raised is suppressed
    | (ws', .stopped _) => ⟨[v], ws ++ ws', .ok ()⟩
    | (ws', .raised e) => ⟨[v], ws ++ ws', .error e⟩
    | (ws', .yielded v' resume') =>
      ⟨[v, v'], ws ++ ws' ++ (resume' (some protocol.generatorExit)).next.1,
        .error protocol.didNotStop⟩

section Uses

variable {protocol : Protocol ε} {g : Gen ε ν ω Unit} {body : ν → Except ε Unit} {ws ws' : List ω}
variable {v v' : ν} {e : ε} {resume resume' : Option ε → Gen ε ν ω Unit}

/-- One that raises before it yields. -/
theorem asyncWith_of_raised (h : g.next = (ws, .raised e)) :
    asyncWith protocol g body = ⟨[], ws, .error e⟩ := by
  unfold asyncWith
  rw [h]

/-- One that stops when it is resumed. -/
theorem asyncWith_of_stopped (h : g.next = (ws, .yielded v resume))
    (h' : (resume (thrown (body v))).next = (ws', .stopped ())) :
    asyncWith protocol g body = ⟨[v], ws ++ ws', .ok ()⟩ := by
  unfold asyncWith
  rw [h]
  dsimp only
  rw [h']

/-- One that raises then. -/
theorem asyncWith_of_raised_after (h : g.next = (ws, .yielded v resume))
    (h' : (resume (thrown (body v))).next = (ws', .raised e)) :
    asyncWith protocol g body = ⟨[v], ws ++ ws', .error e⟩ := by
  unfold asyncWith
  rw [h]
  dsimp only
  rw [h']

/-- One that yields again. -/
theorem asyncWith_of_yielded (h : g.next = (ws, .yielded v resume))
    (h' : (resume (thrown (body v))).next = (ws', .yielded v' resume')) :
    asyncWith protocol g body =
      ⟨[v, v'], ws ++ ws' ++ (resume' (some protocol.generatorExit)).next.1,
        .error protocol.didNotStop⟩ := by
  unfold asyncWith
  rw [h]
  dsimp only
  rw [h']

end Uses

end Python

end ChutesApi
