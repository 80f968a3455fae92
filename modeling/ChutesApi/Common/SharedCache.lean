import ChutesApi.Common.Lts
import Mathlib.Logic.Function.Basic
/-!
# Calls over a shared cache

Calls run side by side over one cache, which may drop an entry at any time
and lose any operation. `answered_of_safe` is the rule: where each call, by
itself, writes only what is good under its key, and answers well whatever
good value it finds, in every run all of them answer well, each after so
many operations.
-/

namespace ChutesApi

/-- **What a call does**: operations of the cache, each of which may depend
on what those before it found. -/
inductive CacheProg (κ τ ε α : Type*)
  | done (result : Except ε α)
  | get (key : κ) (next : Option τ → CacheProg κ τ ε α)
  | set (key : κ) (value : τ) (next : CacheProg κ τ ε α)
  | delete (key : κ) (next : CacheProg κ τ ε α)

namespace CacheProg

open Function

variable {κ τ ε α : Type*} [DecidableEq κ]

/-- The next operation, and what it leaves in the cache. One that is lost
finds nothing and leaves the cache as it is. -/
def step (lost : Bool) (store : κ → Option τ) :
    CacheProg κ τ ε α → Option ((κ → Option τ) × CacheProg κ τ ε α)
  | done _ => none
  | get key next => some (store, next (if lost then none else store key))
  | set key value next => some (if lost then store else update store key (some value), next)
  | delete key next => some (if lost then store else update store key none, next)

/-- **A call is safe**: it writes only good values, and whatever good value it
finds, it returns a right answer after at most so many operations. -/
def Safe (good : κ → τ → Prop) (right : α → Prop) : ℕ → CacheProg κ τ ε α → Prop
  | _, done result => ∃ a, result = .ok a ∧ right a
  | 0, _ => False
  | n + 1, get key next =>
    (next none).Safe good right n ∧ ∀ value, good key value → (next (some value)).Safe good right n
  | n + 1, set key value next => good key value ∧ next.Safe good right n
  | n + 1, delete _ next => next.Safe good right n

omit [DecidableEq κ] in
theorem safe_done {good : κ → τ → Prop} {right : α → Prop} {n : ℕ} {result : Except ε α} :
    (done result : CacheProg κ τ ε α).Safe good right n ↔ ∃ a, result = .ok a ∧ right a := by
  cases n <;> exact Iff.rfl

/-- Every value in the cache is good. -/
def Good (good : κ → τ → Prop) (store : κ → Option τ) : Prop :=
  ∀ key value, store key = some value → good key value

variable {good : κ → τ → Prop} {right : α → Prop} {store store' : κ → Option τ}
  {p p' : CacheProg κ τ ε α} {key : κ} {value : τ} {lost : Bool} {n : ℕ}

theorem Good.set (h : Good good store) (hvalue : good key value) :
    Good good (update store key (some value)) := by
  intro k v hv
  rw [update_apply] at hv
  split at hv
  case isTrue hk =>
    rw [hk, ← Option.some.inj hv]
    exact hvalue
  case isFalse => exact h k v hv

theorem Good.delete (h : Good good store) : Good good (update store key none) := by
  intro k v hv
  rw [update_apply] at hv
  split at hv
  · cases hv
  · exact h k v hv

/-- **A safe call takes a safe step.** -/
theorem Safe.step (h : p.Safe good right n) (hstore : Good good store)
    (hstep : p.step lost store = some (store', p')) :
    Good good store' ∧ ∃ m, m < n ∧ p'.Safe good right m := by
  cases p with
  | done result => cases hstep
  | get key next =>
    cases n with
    | zero => exact h.elim
    | succ n =>
      obtain ⟨rfl, rfl⟩ := Prod.mk.inj (Option.some.inj hstep)
      refine ⟨hstore, n, n.lt_succ_self, ?_⟩
      cases lost
      case true => exact h.1
      case false =>
        rcases hfound : store key with _ | value
        · rw [if_neg Bool.false_ne_true]
          exact h.1
        · rw [if_neg Bool.false_ne_true]
          exact h.2 value (hstore key value hfound)
  | set key value next =>
    cases n with
    | zero => exact h.elim
    | succ n =>
      obtain ⟨rfl, rfl⟩ := Prod.mk.inj (Option.some.inj hstep)
      refine ⟨?_, n, n.lt_succ_self, h.2⟩
      split
      · exact hstore
      · exact hstore.set h.1
  | delete key next =>
    cases n with
    | zero => exact h.elim
    | succ n =>
      obtain ⟨rfl, rfl⟩ := Prod.mk.inj (Option.some.inj hstep)
      refine ⟨?_, n, n.lt_succ_self, h⟩
      split
      · exact hstore
      · exact hstore.delete

end CacheProg

namespace SharedCache

open Function

variable {ι κ τ ε : Type*} {ρ : ι → Type*} [DecidableEq κ]

/-- The cache and the calls, in the order in which they began. -/
structure State (κ τ ε : Type*) {ι : Type*} (ρ : ι → Type*) where
  store : κ → Option τ
  calls : List ((i : ι) × CacheProg κ τ ε (ρ i))

inductive Action (κ ι : Type*)
  /-- A call begins. -/
  | call (i : ι)
  /-- The next operation of a call, which may be lost. -/
  | run (n : ℕ) (lost : Bool)
  /-- An entry expires. -/
  | expire (key : κ)
  deriving DecidableEq

/-- It is an operation of this call. -/
def Action.runs (n : ℕ) : Action κ ι → Bool
  | run m _ => m = n
  | _ => false

/-- How many operations a call did. -/
def operations (as : List (Action κ ι)) (n : ℕ) : ℕ := as.countP (·.runs n)

/-- **Calls over a cache**, which is empty at first. -/
def system (prog : (i : ι) → CacheProg κ τ ε (ρ i)) : Lts (State κ τ ε ρ) (Action κ ι) where
  init s := s = ⟨fun _ => none, []⟩
  step s
    | .call i => some { s with calls := s.calls ++ [⟨i, prog i⟩] }
    | .run n lost =>
      s.calls[n]?.bind fun c =>
        (c.2.step lost s.store).map fun r => ⟨r.1, s.calls.set n ⟨c.1, r.2⟩⟩
    | .expire key => some { s with store := update s.store key none }

/-- **The calls are answered**: one that is done returned a right answer, and
one that did so many operations is done. -/
structure Answered (right : (i : ι) → ρ i → Prop) (bound : ℕ) (as : List (Action κ ι))
    (s : State κ τ ε ρ) : Prop where
  returned : ∀ c ∈ s.calls, ∀ result, c.2 = .done result → ∃ a, result = .ok a ∧ right c.1 a
  done : ∀ n c, s.calls[n]? = some c → bound ≤ operations as n → ∃ result, c.2 = .done result

variable {prog : (i : ι) → CacheProg κ τ ε (ρ i)} {right : (i : ι) → ρ i → Prop} {bound : ℕ}
  {good : κ → τ → Prop} {as : List (Action κ ι)} {a : Action κ ι} {s s' : State κ τ ε ρ}

theorem step_run (n : ℕ) (lost : Bool) {i : ι} {p next : CacheProg κ τ ε (ρ i)}
    {store : κ → Option τ} (hc : s.calls[n]? = some ⟨i, p⟩)
    (h : p.step lost s.store = some (store, next)) :
    (system prog).step s (.run n lost) = some ⟨store, s.calls.set n ⟨i, next⟩⟩ := by
  simp [system, hc, h]

/-- **What holds in every run** of safe calls: only good values are in the
cache, and each call is safe for the operations that are left to it. -/
structure Inv (good : κ → τ → Prop) (right : (i : ι) → ρ i → Prop) (bound : ℕ)
    (as : List (Action κ ι)) (s : State κ τ ε ρ) : Prop where
  store : CacheProg.Good good s.store
  fresh : ∀ n, s.calls.length ≤ n → operations as n = 0
  safe : ∀ n c, s.calls[n]? = some c →
    ∃ m, c.2.Safe good (right c.1) m ∧ m + operations as n ≤ bound

omit [DecidableEq κ] in
theorem operations_concat (as : List (Action κ ι)) (a : Action κ ι) (n : ℕ) :
    operations (as ++ [a]) n = operations as n + if a.runs n then 1 else 0 := by
  rw [operations, List.countP_append, List.countP_singleton]
  rfl

omit [DecidableEq κ] in
theorem Inv.call (hsafe : ∀ i, (prog i).Safe good (right i) bound) (h : Inv good right bound as s)
    (i : ι) : Inv good right bound (as ++ [.call i])
      { s with calls := s.calls ++ [⟨i, prog i⟩] } := by
  have hcount : ∀ n, operations (as ++ [.call i]) n = operations as n :=
    operations_concat as (.call i)
  refine ⟨h.store, fun n hn => ?_, fun n c hc => ?_⟩
  · rw [List.length_append] at hn
    rw [hcount, h.fresh n (by omega)]
  · rw [hcount]
    rcases Nat.lt_or_ge n s.calls.length with hlt | hge
    · rw [List.getElem?_append_left hlt] at hc
      exact h.safe n c hc
    · -- the call that begins has done nothing yet
      rw [List.getElem?_append_right hge] at hc
      obtain rfl := List.mem_singleton.1 (List.mem_of_getElem? hc)
      rw [h.fresh n hge]
      exact ⟨bound, hsafe i, Nat.le_refl bound⟩

theorem Inv.run (h : Inv good right bound as s) {n : ℕ} {lost : Bool}
    {c : (i : ι) × CacheProg κ τ ε (ρ i)} {store : κ → Option τ} {next : CacheProg κ τ ε (ρ c.1)}
    (hc : s.calls[n]? = some c) (hstep : c.2.step lost s.store = some (store, next)) :
    Inv good right bound (as ++ [.run n lost]) ⟨store, s.calls.set n ⟨c.1, next⟩⟩ := by
  obtain ⟨hn, -⟩ := List.getElem?_eq_some_iff.1 hc
  obtain ⟨m, hm, hbound⟩ := h.safe n c hc
  obtain ⟨hstore, m', hlt, hm'⟩ := hm.step h.store hstep
  refine ⟨hstore, fun k hk => ?_, fun k d hd => ?_⟩
  · rw [List.length_set] at hk
    rw [operations_concat, h.fresh k hk, Action.runs, if_neg (by simp; omega)]
  · rcases eq_or_ne n k with rfl | hne
    · rw [List.getElem?_set_self hn] at hd
      obtain rfl := Option.some.inj hd
      refine ⟨m', hm', ?_⟩
      rw [operations_concat, Action.runs, if_pos (decide_eq_true rfl)]
      omega
    · rw [List.getElem?_set_ne hne] at hd
      obtain ⟨l, hl, hlbound⟩ := h.safe k d hd
      refine ⟨l, hl, ?_⟩
      rw [operations_concat, Action.runs, if_neg (by simpa using hne)]
      exact hlbound

theorem Inv.expire (h : Inv good right bound as s) (key : κ) :
    Inv good right bound (as ++ [.expire key]) { s with store := update s.store key none } := by
  have hcount : ∀ n, operations (as ++ [.expire key]) n = operations as n :=
    operations_concat as (.expire key)
  refine ⟨h.store.delete, fun n hn => ?_, fun n c hc => ?_⟩
  · rw [hcount, h.fresh n hn]
  · rw [hcount]
    exact h.safe n c hc

/-- **Every step keeps the invariant.** -/
theorem Inv.step (hsafe : ∀ i, (prog i).Safe good (right i) bound) (h : Inv good right bound as s)
    (hstep : (system prog).step s a = some s') : Inv good right bound (as ++ [a]) s' := by
  cases a with
  | call i =>
    obtain rfl := Option.some.inj hstep
    exact h.call hsafe i
  | run n lost =>
    obtain ⟨c, hc, hstep⟩ := Option.bind_eq_some_iff.1 hstep
    obtain ⟨⟨store, next⟩, hnext, rfl⟩ := Option.map_eq_some_iff.1 hstep
    exact h.run hc hnext
  | expire key =>
    obtain rfl := Option.some.inj hstep
    exact h.expire key

/-- **Safe calls are answered** in every run. -/
theorem answered_of_safe (hsafe : ∀ i, (prog i).Safe good (right i) bound)
    (hr : (system prog).Run as s) : Answered right bound as s := by
  have hinv : Inv good right bound as s := by
    refine hr.invariant_trace (fun s hs => ?_) fun as s a s' _ h _ => h.step hsafe
    obtain rfl := hs
    exact ⟨fun _ _ => nofun, fun _ _ => rfl, fun n c hc => nomatch hc⟩
  have hdone : ∀ c : (i : ι) × CacheProg κ τ ε (ρ i), c.2.Safe good (right c.1) 0 →
      ∃ result, c.2 = .done result := by
    rintro ⟨i, p⟩ h
    cases p with
    | done result => exact ⟨result, rfl⟩
    | get | set | delete => exact h.elim
  refine ⟨fun c hc result hresult => ?_, fun n c hc hbound => ?_⟩
  · obtain ⟨n, hn⟩ := List.getElem?_of_mem hc
    obtain ⟨m, hm, -⟩ := hinv.safe n c hn
    rw [hresult] at hm
    exact CacheProg.safe_done.1 hm
  · obtain ⟨m, hm, hle⟩ := hinv.safe n c hc
    obtain rfl : m = 0 := by omega
    exact hdone c hm

end SharedCache

end ChutesApi
