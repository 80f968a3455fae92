import ChutesApi.Instance.Model.Target
/-!
# When a connection is released and errors pass through

What is raised where the targets are selected is answered by one yield, and
what the body then raises passes. What the body raises at the yields inside
the `try` is caught there, if it is an `Exception`, and answered by a second
yield, which is an error of its own. `released_iff` has the rest: a fallback
is not removed, and a cancellation before the yield or during the removal
takes the place of what the claim is about.
-/

namespace ChutesApi

open Python

namespace Connection

variable (c : Connection)

/-! ## What is promised -/

/-- The target that is chosen, also where the selection times out. -/
def chosen : Option String :=
  match c.targets with
  | .ok targets => targets.head?
  | .error e => if e.cls = .timeoutError then c.randomChoice else none

/-- It removes this connection. -/
def Removes : ConnEvent → Prop
  | .add _ _ => False
  | .remove _ connId => connId = c.connId

instance (e : ConnEvent) : Decidable (c.Removes e) := by
  cases e <;> unfold Removes <;> infer_instance

/-- How often the connection is removed. -/
def removals : ℕ := c.use.effects.countP fun e => c.Removes e

/-- **The connection is released and errors pass through.** -/
structure Released : Prop where
  once : c.use.yields.length = 1
  removed : c.chosen ≠ none → c.removals = 1
  passes : ∀ v ∈ c.use.yields.head?, ∀ e, c.body v = .error e → c.use.result = .error e

/-- **Where it is.** -/
def ReleasedWhen : Prop :=
  match c.targets with
  | .error e => e.isException = true ∧ (e.cls = .timeoutError → c.available = [])
  | .ok [] => ∀ e, c.body ⟨none, some noInfrastructure⟩ = .error e → e.isException = false
  | .ok (instanceId :: _) =>
    (∀ e, c.adding = .error e → e.isException = true) ∧
      ∀ e, c.body ⟨some instanceId, none⟩ = .error e → e.isException = false ∧
        ∀ e', c.removing = .error e' → e'.isException = false → e' = e

variable {c} {e : Exn} {v : Target} {instanceId : String} {rest : List String}

/-! ## The parts -/

theorem isException_of_timeoutError (h : e.cls = .timeoutError) : e.isException = true := by
  simp [Exn.isException, h]

/-- What an exception inside the `try` is answered with. -/
def fallback (c : Connection) (e : Exn) : Target :=
  if e.cls = .timeoutError then
    match c.randomChoice with
    | some instanceId => ⟨some instanceId, none⟩
    | none => ⟨none, some noInfrastructure⟩
  else if e.cls = .infraOverload then ⟨none, some "infra_overload"⟩
  else ⟨none, some (noInfrastructure ++ ", error code: " ++ e.text)⟩

/-- **The `except` clauses** yield once more, for every `Exception`. -/
theorem handler_eq (c : Connection) (e : Exn) :
    c.handler e = if e.isException then some (Gen.produce (c.fallback e)) else none := by
  unfold handler fallback
  by_cases htimeout : e.cls = .timeoutError
  · rw [if_pos htimeout, if_pos (isException_of_timeoutError htimeout), if_pos htimeout]
    cases c.randomChoice <;> rfl
  · rw [if_neg htimeout, if_neg htimeout]
    by_cases hoverload : e.cls = .infraOverload
    · rw [if_pos hoverload, if_pos hoverload]
      rfl
    · rw [if_neg hoverload, if_neg hoverload]
      rfl

/-- What the removal is. -/
def released (c : Connection) : List ConnEvent :=
  match c.selected with
  | none => []
  | some instanceId => [.remove instanceId c.connId]

/-- What it raises, if anything. -/
def interrupted (c : Connection) : Option Exn :=
  match c.selected, c.removing with
  | some _, .error e => if e.isException then none else some e
  | _, _ => none

theorem next_release (c : Connection) : c.release.next =
    (c.released, match c.interrupted with
      | none => .stopped ()
      | some e => .raised e) := by
  unfold release released interrupted
  cases c.selected with
  | none => rfl
  | some instanceId =>
    cases hremoving : c.removing with
    | ok u => rfl
    | error e =>
      dsimp only
      rw [Gen.next_tryExcept]
      change (_ ++ ((logged e).getD _).next.1, ((logged e).getD _).next.2) = _
      unfold logged
      cases he : e.isException with
      | true => rfl
      | false => rfl

/-- **The `finally`**, after the rest is done. -/
theorem next_finally_done (c : Connection) :
    ((Gen.done () : Gen Exn Target ConnEvent Unit).tryFinally c.release).next =
      (c.released, match c.interrupted with
        | none => .stopped ()
        | some e => .raised e) := by
  rw [Gen.next_tryFinally, Gen.next_done]
  dsimp only
  rw [Gen.next_bind, next_release]
  cases c.interrupted with
  | none => simp
  | some e => rfl

/-- After it raised. -/
theorem next_finally_raises (c : Connection) (e : Exn) :
    ((Gen.raises e : Gen Exn Target ConnEvent Unit).tryFinally c.release).next =
      (c.released, .raised (c.interrupted.getD e)) := by
  rw [Gen.next_tryFinally, Gen.next_raises]
  dsimp only
  rw [Gen.next_bind, next_release]
  cases c.interrupted with
  | none => simp
  | some e => rfl

/-- A yield in an `except` clause, when it is resumed. -/
theorem next_resumed (c : Connection) (body : Except Exn Unit) :
    ((Gen.resumed (thrown body)).tryFinally c.release).next =
      (c.released, match body, c.interrupted with
        | .ok _, none => .stopped ()
        | .ok _, some e => .raised e
        | .error e, interrupted => .raised (interrupted.getD e)) := by
  cases body with
  | ok u =>
    refine (next_finally_done c).trans ?_
    cases c.interrupted <;> rfl
  | error e => exact next_finally_raises c e

/-- One inside the `try`: an `Exception` is answered. -/
theorem next_resumed_trying (c : Connection) (body : Except Exn Unit) :
    (((Gen.resumed (thrown body)).tryExcept c.handler).tryFinally c.release).next =
      match body with
      | .ok _ => (c.released, match c.interrupted with
        | none => .stopped ()
        | some e => .raised e)
      | .error e =>
        if e.isException then
          ([], .yielded (c.fallback e) fun thrown => (Gen.resumed thrown).tryFinally c.release)
        else (c.released, .raised (c.interrupted.getD e)) := by
  cases body with
  | ok u => exact next_finally_done c
  | error e =>
    change (((c.handler e).getD (Gen.raises e)).tryFinally c.release).next = _
    dsimp only
    rw [handler_eq]
    by_cases he : e.isException = true
    · rw [if_pos he, if_pos he]
      rfl
    · rw [if_neg he, if_neg he]
      exact next_finally_raises c e

/-! ## What a use comes to -/

/-- What a use that yields once comes to. -/
def usedOnce (c : Connection) (added : List ConnEvent) (v : Target) : Use Exn Target ConnEvent :=
  ⟨[v], added ++ c.released, match c.body v, c.interrupted with
    | .ok _, none => .ok ()
    | .ok _, some e => .error e
    | .error e, interrupted => .error (interrupted.getD e)⟩

theorem selected_of_error (h : c.targets = .error e) : c.selected = none := by
  rw [selected, h]

theorem selected_of_nil (h : c.targets = .ok []) : c.selected = none := by
  rw [selected, h]
  rfl

theorem selected_of_cons (h : c.targets = .ok (instanceId :: rest)) :
    c.selected = some instanceId := by
  rw [selected, h]
  rfl

theorem interrupted_of_none (h : c.selected = none) : c.interrupted = none := by
  rw [interrupted, h]

theorem released_of_none (h : c.selected = none) : c.released = [] := by
  rw [released, h]

/-- Where a generator, resumed after the body, releases the connection and
passes on what the body raised, it yields once. -/
theorem use_of_resumed {added : List ConnEvent}
    {resume : Option Exn → Gen Exn Target ConnEvent Unit}
    (hnext : c.getTarget.next = (added, .yielded v resume))
    (hresumed : (resume (thrown (c.body v))).next =
      (c.released, match c.body v, c.interrupted with
        | .ok _, none => .stopped ()
        | .ok _, some e => .raised e
        | .error e, interrupted => .raised (interrupted.getD e))) : c.use = c.usedOnce added v := by
  unfold use usedOnce
  cases hbody : c.body v with
  | ok u =>
    rw [hbody] at hresumed
    cases hinterrupted : c.interrupted with
    | none =>
      rw [hinterrupted] at hresumed
      exact asyncWith_of_stopped hnext (by rw [hbody]; exact hresumed)
    | some e =>
      rw [hinterrupted] at hresumed
      exact asyncWith_of_raised_after hnext (by rw [hbody]; exact hresumed)
  | error e =>
    rw [hbody] at hresumed
    exact asyncWith_of_raised_after hnext (by rw [hbody]; exact hresumed)

/-- Where the selection raises, the yield is in an `except` clause. -/
theorem use_of_error (h : c.targets = .error e) (he : e.isException = true) :
    c.use = c.usedOnce [] (c.fallback e) := by
  have hnext : c.getTarget.next = ([], .yielded (c.fallback e) fun thrown =>
      (Gen.resumed thrown).tryFinally c.release) := by
    unfold getTarget trying
    rw [h]
    change (((c.handler e).getD (Gen.raises e)).tryFinally c.release).next = _
    rw [handler_eq, if_pos he]
    rfl
  exact use_of_resumed hnext (next_resumed c (c.body (c.fallback e)))

/-- One that is no `Exception` passes, before anything is yielded. -/
theorem use_of_baseException (h : c.targets = .error e) (he : e.isException = false) :
    c.use.yields = [] := by
  have hnext : c.getTarget.next = (c.released, .raised (c.interrupted.getD e)) := by
    unfold getTarget trying
    rw [h]
    change (((c.handler e).getD (Gen.raises e)).tryFinally c.release).next = _
    rw [handler_eq, if_neg (Bool.eq_false_iff.1 he)]
    exact next_finally_raises c e
  rw [use, asyncWith_of_raised hnext]

/-- **A yield inside the `try`**, of a body that raises no `Exception`. -/
theorem use_of_trying {added : List ConnEvent}
    (hnext : c.getTarget.next = (added, .yielded v fun thrown =>
      ((Gen.resumed thrown).tryExcept c.handler).tryFinally c.release))
    (hbody : ∀ e, c.body v = .error e → e.isException = false) : c.use = c.usedOnce added v := by
  refine use_of_resumed hnext ((next_resumed_trying c (c.body v)).trans ?_)
  cases hv : c.body v with
  | ok u => cases c.interrupted <;> rfl
  | error e =>
    dsimp only
    rw [if_neg (Bool.eq_false_iff.1 (hbody e hv))]

/-- Of one that does: the second yield. -/
theorem yields_of_trying {added : List ConnEvent}
    (hnext : c.getTarget.next = (added, .yielded v fun thrown =>
      ((Gen.resumed thrown).tryExcept c.handler).tryFinally c.release))
    (hbody : c.body v = .error e) (he : e.isException = true) :
    c.use.yields = [v, c.fallback e] := by
  have hresumed := next_resumed_trying c (c.body v)
  rw [hbody] at hresumed
  dsimp only at hresumed
  rw [if_pos he] at hresumed
  rw [use, asyncWith_of_yielded hnext (by rw [hbody]; exact hresumed)]

/-- Without targets. -/
theorem next_getTarget_of_nil (h : c.targets = .ok []) :
    c.getTarget.next = ([], .yielded ⟨none, some noInfrastructure⟩ fun thrown =>
      ((Gen.resumed thrown).tryExcept c.handler).tryFinally c.release) := by
  unfold getTarget trying
  rw [h]
  rfl

/-- With one, and a registration that is waited for, or is given up. -/
theorem next_getTarget_of_cons (h : c.targets = .ok (instanceId :: rest))
    (hadding : ∀ e, c.adding = .error e → e.isException = true) :
    c.getTarget.next = ([.add instanceId c.connId], .yielded ⟨some instanceId, none⟩ fun thrown =>
      ((Gen.resumed thrown).tryExcept c.handler).tryFinally c.release) := by
  unfold getTarget trying
  rw [h]
  cases hadd : c.adding with
  | ok u => rfl
  | error e =>
    have hlogged : logged e = some (pure ()) := if_pos (hadding e hadd)
    change ((Gen.emits _ (((logged e).getD _).bind _)).tryExcept _ |>.tryFinally _).next = _
    rw [hlogged]
    rfl

/-- With one, and a registration that is cancelled. -/
theorem use_of_cancelled (h : c.targets = .ok (instanceId :: rest)) (hadding : c.adding = .error e)
    (he : e.isException = false) : c.use.yields = [] := by
  have hnext : c.getTarget.next =
      (.add instanceId c.connId :: c.released, .raised (c.interrupted.getD e)) := by
    unfold getTarget trying
    rw [h, hadding]
    have hlogged : logged e = none := if_neg (Bool.eq_false_iff.1 he)
    change ((Gen.emits _ (((logged e).getD _).bind _)).tryExcept _ |>.tryFinally _).next = _
    rw [hlogged]
    change (_ :: (((c.handler e).getD (Gen.raises e)).tryFinally c.release).next.1,
      (((c.handler e).getD (Gen.raises e)).tryFinally c.release).next.2) = _
    rw [handler_eq, if_neg (Bool.eq_false_iff.1 he)]
    change (_ :: ((Gen.raises e).tryFinally c.release).next.1,
      ((Gen.raises e).tryFinally c.release).next.2) = _
    rw [next_finally_raises]
  rw [use, asyncWith_of_raised hnext]

/-! ## Where it is released -/

theorem randomChoice_eq_none : c.randomChoice = none ↔ c.available = [] := by
  unfold randomChoice
  rw [List.getElem?_eq_none_iff]
  constructor
  · intro hle
    by_contra hne
    have hpos := List.length_pos_iff.2 hne
    have hlt := Nat.mod_lt c.choice hpos
    omega
  · intro hnil
    simp [hnil]

/-- The removals of a use that yields once. -/
theorem removals_of_none {added : List ConnEvent} (huse : c.use = c.usedOnce added v)
    (hselected : c.selected = none) (hadded : ∀ e ∈ added, ¬ c.Removes e) : c.removals = 0 := by
  rw [removals, huse, usedOnce, released_of_none hselected, List.append_nil, List.countP_eq_zero]
  intro e he
  simpa using hadded e he

theorem removals_of_selected {added : List ConnEvent} (huse : c.use = c.usedOnce added v)
    (hselected : c.selected = some instanceId) (hadded : ∀ e ∈ added, ¬ c.Removes e) :
    c.removals = 1 := by
  have hzero : added.countP (fun e => c.Removes e) = 0 := by
    rw [List.countP_eq_zero]
    intro e he
    simpa using hadded e he
  rw [removals, huse, usedOnce, List.countP_append, hzero, released, hselected]
  simp [Removes]

/-- What the body raises passes, unless the removal raises another. -/
theorem passes_iff {added : List ConnEvent} (huse : c.use = c.usedOnce added v) :
    (∀ v ∈ c.use.yields.head?, ∀ e, c.body v = .error e → c.use.result = .error e) ↔
      ∀ e, c.body v = .error e → ∀ e' ∈ c.interrupted, e' = e := by
  rw [huse]
  constructor
  · intro h e hbody e' he'
    have hresult := h v rfl e hbody
    rw [usedOnce, hbody, he'] at hresult
    exact Except.error.inj hresult
  · intro h v' hv' e hbody
    obtain rfl : v = v' := Option.some.inj hv'
    rw [usedOnce, hbody]
    cases hinterrupted : c.interrupted with
    | none => rfl
    | some e' => exact congrArg Except.error (h e hbody e' hinterrupted)

theorem mem_interrupted (hselected : c.selected = some instanceId) {e' : Exn} :
    e' ∈ c.interrupted ↔ c.removing = .error e' ∧ e'.isException = false := by
  unfold interrupted
  rw [hselected]
  cases c.removing with
  | ok u => simp
  | error e =>
    simp only [Option.mem_def, Except.error.injEq]
    constructor
    · intro h
      split_ifs at h with he
      obtain rfl := Option.some.inj h
      exact ⟨rfl, Bool.eq_false_iff.2 he⟩
    · rintro ⟨rfl, he⟩
      rw [if_neg (Bool.eq_false_iff.1 he)]

/-- **A connection is released and errors pass through** exactly where nothing
that is answered inside the `try` is raised by the body, the selection does
not fall back, and no cancellation comes before the yield or in place of what
the body raised. -/
theorem released_iff (c : Connection) : c.Released ↔ c.ReleasedWhen := by
  unfold ReleasedWhen
  cases htargets : c.targets with
  | error e =>
    have hselected := selected_of_error htargets
    dsimp only
    by_cases he : e.isException = true
    -- it yields in an `except` clause, and only a fallback is not removed
    · have huse := use_of_error htargets he
      have hremovals := removals_of_none huse hselected (by simp)
      have hchosen : c.chosen = none ↔ (e.cls = .timeoutError → c.available = []) := by
        rw [chosen, htargets, ← randomChoice_eq_none]
        by_cases htimeout : e.cls = .timeoutError
        · simp [htimeout]
        · simp [htimeout]
      rw [and_iff_right he, ← hchosen]
      constructor
      · intro h
        by_contra hne
        have hone := h.removed hne
        omega
      · intro hnone
        refine ⟨by rw [huse]; rfl, fun hne => absurd hnone hne, (passes_iff huse).2 ?_⟩
        intro e' _ e'' hinterrupted
        rw [interrupted_of_none hselected] at hinterrupted
        cases hinterrupted
    · refine iff_of_false (fun h => ?_) fun h => he h.1
      have honce := h.once
      rw [use_of_baseException htargets (Bool.eq_false_iff.2 he)] at honce
      cases honce
  | ok targets =>
    cases targets with
    -- it yields inside the `try`, and nothing is to be removed
    | nil =>
      have hnext := next_getTarget_of_nil htargets
      have hselected := selected_of_nil htargets
      dsimp only
      constructor
      · intro h e hbody
        by_contra he
        have honce := h.once
        rw [yields_of_trying hnext hbody (Bool.eq_true_of_not_eq_false he)] at honce
        cases honce
      · intro hbody
        have huse := use_of_trying hnext hbody
        refine ⟨by rw [huse]; rfl, fun hne => ?_, (passes_iff huse).2 ?_⟩
        · rw [chosen, htargets] at hne
          exact absurd rfl hne
        · intro e' _ e'' hinterrupted
          rw [interrupted_of_none hselected] at hinterrupted
          cases hinterrupted
    -- it yields inside the `try`, unless the registration is cancelled
    | cons instanceId rest =>
      have hselected := selected_of_cons htargets
      dsimp only
      by_cases hadding : ∀ e, c.adding = .error e → e.isException = true
      · have hnext := next_getTarget_of_cons htargets hadding
        rw [and_iff_right hadding]
        constructor
        · intro h e hbody
          have he : e.isException = false := by
            by_contra he
            have honce := h.once
            rw [yields_of_trying hnext hbody (Bool.eq_true_of_not_eq_false he)] at honce
            cases honce
          refine ⟨he, fun e' hremoving hbase => ?_⟩
          have huse := use_of_trying hnext fun e' hbody' => by
            rw [hbody] at hbody'
            exact Except.error.inj hbody' ▸ he
          exact (passes_iff huse).1 h.passes e hbody e'
            ((mem_interrupted hselected).2 ⟨hremoving, hbase⟩)
        · intro hbody
          have huse := use_of_trying hnext fun e he => (hbody e he).1
          refine ⟨by rw [huse]; rfl, fun _ => ?_, (passes_iff huse).2 ?_⟩
          · exact removals_of_selected huse hselected (by simp [Removes])
          · intro e he e' hinterrupted
            obtain ⟨hremoving, hbase⟩ := (mem_interrupted hselected).1 hinterrupted
            exact (hbody e he).2 e' hremoving hbase
      · refine iff_of_false (fun h => ?_) fun h => hadding h.1
        push Not at hadding
        obtain ⟨e, hadd, he⟩ := hadding
        have honce := h.once
        rw [use_of_cancelled htargets hadd (Bool.eq_false_iff.2 he)] at honce
        cases honce

/-- A connection to the one instance of a chute, whose body raises. -/
def failing : Connection where
  manager := ⟨"c", ["a"], 1, List.nodup_singleton _⟩
  avoid := []
  prefixes := none
  draws := ⟨fun _ l => l, false, id, fun _ l => List.Perm.refl l, List.Perm.refl⟩
  caches := ⟨some fun _ => 0, fun _ => none⟩
  connId := "x"
  selecting := none
  choice := 0
  adding := .ok ()
  body _ := .error { cls := .exception, text := "no rows", object := 1 }
  removing := .ok ()

/-- It is the context that raises, after a second yield. -/
theorem not_released_failing : ¬ failing.Released := by
  intro h
  have hyields : failing.use.yields = [⟨some "a", none⟩,
      ⟨none, some "No infrastructure available to serve request, error code: no rows"⟩] := rfl
  have honce := h.once
  rw [hyields] at honce
  cases honce

end Connection

end ChutesApi
