import ChutesApi.Common.Row
import Mathlib.Algebra.BigOperators.Group.List.Basic
import Mathlib.Algebra.Group.Pi.Basic
/-!
# Sessions over an additive column

A table keeps one additive value a key, each in a `Row`, and transactions
run statements against it. There are three: `load` selects a row and keeps
its value in the session, as an ORM's identity map does; `store` writes
back the kept value changed by `d` as an absolute value; `add` changes the
row in the database. `net` is the change a list of statements is meant to
make.

`Inv` says that every committed value is the initial one plus the meant
changes of the committed transactions. Each operation keeps it, a `store`
only where the kept value is still the row's (`Current`): an absolute write
of a value that has since moved undoes the move.
-/

namespace ChutesApi

section Update

variable {τ α β : Type*} [DecidableEq τ] {f : τ → Option α} {g : τ → Option β} {t u : τ}
variable {x : Option α} {y : Option β} {a : α}

/-- What an update leaves somewhere is what it put there, or was there. -/
theorem of_update_eq_some (h : Function.update f t x u = some a) :
    u = t ∧ x = some a ∨ u ≠ t ∧ f u = some a := by
  rcases eq_or_ne u t with rfl | hu
  · rw [Function.update_self] at h
    exact .inl ⟨rfl, h⟩
  · rw [Function.update_of_ne hu] at h
    exact .inr ⟨hu, h⟩

theorem isSome_update_some (h : (f u).isSome) : (Function.update f t (some a) u).isSome := by
  rw [Function.update_apply]
  split
  · rfl
  · exact h

/-- Two maps that have something at the same places, and are updated alike. -/
theorem isSome_update_congr (h : ∀ u, (f u).isSome = (g u).isSome) (hxy : x.isSome = y.isSome)
    (u : τ) : (Function.update f t x u).isSome = (Function.update g t y u).isSome := by
  simp only [Function.update_apply]
  split
  · exact hxy
  · exact h u

end Update

/-- A statement of a session on an additive column. -/
inductive Stmt (κ ν : Type*)
  /-- `SELECT`: the session keeps the row's value. -/
  | load (k : κ)
  /-- `UPDATE … SET v = :kept + d`, with the sum computed by the session. -/
  | store (k : κ) (d : ν)
  /-- `UPDATE … SET v = v + d`. -/
  | add (k : κ) (d : ν)
  deriving DecidableEq

section Net

variable {κ ν : Type*} [DecidableEq κ] [AddCommGroup ν]

/-- The change a statement is meant to make at a key. -/
def Stmt.delta (k : κ) : Stmt κ ν → ν
  | .load _ => 0
  | .store k' d => if k' = k then d else 0
  | .add k' d => if k' = k then d else 0

/-- **The change a list of statements is meant to make** at a key. -/
def net (ss : List (Stmt κ ν)) (k : κ) : ν := (ss.map (Stmt.delta k)).sum

@[simp] theorem net_nil (k : κ) : net ([] : List (Stmt κ ν)) k = 0 := rfl

@[simp] theorem net_cons (s : Stmt κ ν) (ss : List (Stmt κ ν)) (k : κ) :
    net (s :: ss) k = s.delta k + net ss k := by
  simp [net]

@[simp] theorem net_append (ss ss' : List (Stmt κ ν)) (k : κ) :
    net (ss ++ ss') k = net ss k + net ss' k := by
  simp [net]

end Net

/-- An open transaction: the statements still to run, those that have run,
and the values kept by its loads. -/
structure Sess (κ ν : Type*) where
  todo : List (Stmt κ ν)
  done : List (Stmt κ ν)
  kept : κ → Option ν

/-- **A table**: its rows, the open transactions, and the statements of
the committed ones, in the order of their commits. -/
structure Table (τ κ ν : Type*) where
  row : κ → Row τ ν
  sess : τ → Option (Sess κ ν)
  log : List (List (Stmt κ ν))

namespace Table

variable {τ κ ν : Type*} [DecidableEq τ] [DecidableEq κ] [AddCommGroup ν]
variable {T T' : Table τ κ ν} {t : τ} {ss : List (Stmt κ ν)} {v₀ : κ → ν}

/-- The table at rest at the given values. -/
def idle (v₀ : κ → ν) : Table τ κ ν := ⟨fun k => .idle (v₀ k), fun _ => none, []⟩

/-- A transaction opens with statements to run. -/
def begin (T : Table τ κ ν) (t : τ) (ss : List (Stmt κ ν)) : Option (Table τ κ ν) :=
  match T.sess t with
  | none => some { T with sess := Function.update T.sess t (some ⟨ss, [], fun _ => none⟩) }
  | some _ => none

/-- An open transaction gets more statements to run. -/
def issue (T : Table τ κ ν) (t : τ) (ss : List (Stmt κ ν)) : Option (Table τ κ ν) :=
  match T.sess t with
  | none => none
  | some S =>
    some { T with sess := Function.update T.sess t (some { S with todo := S.todo ++ ss }) }

/-- The next statement of `t` runs. An update waits for the row's lock. -/
def exec (T : Table τ κ ν) (t : τ) : Option (Table τ κ ν) :=
  match T.sess t with
  | none => none
  | some ⟨[], _, _⟩ => none
  | some ⟨.load k :: todo, done, kept⟩ =>
    some { T with
      sess := Function.update T.sess t
        (some ⟨todo, done ++ [.load k], Function.update kept k (some ((T.row k).seen t))⟩) }
  | some ⟨.store k d :: todo, done, kept⟩ =>
    (kept k).bind fun v => ((T.row k).update t fun _ => v + d).map fun r =>
      { T with
        row := Function.update T.row k r
        sess := Function.update T.sess t
          (some ⟨todo, done ++ [.store k d], Function.update kept k (some (v + d))⟩) }
  | some ⟨.add k d :: todo, done, kept⟩ =>
    ((T.row k).update t (· + d)).map fun r =>
      { T with
        row := Function.update T.row k r
        sess := Function.update T.sess t (some ⟨todo, done ++ [.add k d], kept⟩) }

/-- `COMMIT`, once the statements have run. -/
def commit (T : Table τ κ ν) (t : τ) : Option (Table τ κ ν) :=
  match T.sess t with
  | some ⟨[], done, _⟩ =>
    some ⟨fun k => (T.row k).commit t, Function.update T.sess t none, T.log ++ [done]⟩
  | _ => none

/-- `ROLLBACK`, at any point. -/
def rollback (T : Table τ κ ν) (t : τ) : Option (Table τ κ ν) :=
  match T.sess t with
  | some _ => some ⟨fun k => (T.row k).rollback t, Function.update T.sess t none, T.log⟩
  | none => none

/-- **No store of a stale value**: if the next statement of `t` is a
`store`, the value it kept is the one the row still has. -/
def Current (T : Table τ κ ν) (t : τ) : Prop :=
  match T.sess t with
  | some ⟨.store k _ :: _, _, kept⟩ => kept k = some ((T.row k).seen t)
  | _ => True

instance [DecidableEq ν] : Decidable (T.Current t) := by
  unfold Current
  split <;> infer_instance

/-! ## The law -/

/-- **The table's law.** Committed values add up; an open transaction sees
the committed value changed by what it has run; a lock's holder is open. -/
structure Inv (v₀ : κ → ν) (T : Table τ κ ν) : Prop where
  law : ∀ k, (T.row k).committed = v₀ k + (T.log.map (net · k)).sum
  seen : ∀ t S k, T.sess t = some S → (T.row k).seen t = (T.row k).committed + net S.done k
  owner : ∀ k w, w ∈ (T.row k).writer → (T.sess w.1).isSome

theorem inv_idle : (idle v₀ : Table τ κ ν).Inv v₀ where
  law k := by simp [idle]
  seen t S k h := by simp [idle] at h
  owner k w h := by simp [idle] at h

/-- A row no open transaction of `t` has touched is not locked by `t`. -/
theorem Inv.not_writer (hT : T.Inv v₀) (h : T.sess t = none) (k : κ) :
    ∀ w ∈ (T.row k).writer, w.1 ≠ t := by
  intro w hw hwt
  have := hT.owner k w hw
  rw [hwt, h] at this
  simp at this

theorem Inv.begin (hT : T.Inv v₀) (h : T.begin t ss = some T') : T'.Inv v₀ := by
  unfold Table.begin at h
  split at h
  · next hnone =>
    obtain rfl := Option.some.inj h
    refine ⟨hT.law, fun u S k hu => ?_, fun k w hw => isSome_update_some (hT.owner k w hw)⟩
    obtain ⟨rfl, hS⟩ | ⟨-, hu⟩ := of_update_eq_some hu
    · obtain rfl := Option.some.inj hS
      rw [Row.seen_of_not_writer (hT.not_writer hnone k), net_nil, add_zero]
    · exact hT.seen u S k hu
  · simp at h

theorem Inv.issue (hT : T.Inv v₀) (h : T.issue t ss = some T') : T'.Inv v₀ := by
  unfold Table.issue at h
  split at h
  · simp at h
  · next S hS =>
    obtain rfl := Option.some.inj h
    refine ⟨hT.law, fun u S' k hu => ?_, fun k w hw => isSome_update_some (hT.owner k w hw)⟩
    obtain ⟨rfl, hS'⟩ | ⟨-, hu⟩ := of_update_eq_some hu
    · obtain rfl := Option.some.inj hS'
      exact hT.seen u S k hS
    · exact hT.seen u S' k hu

omit [AddCommGroup ν] in
/-- **Another transaction's view does not move** when `t` updates a row. -/
theorem seen_update {k : κ} {f : ν → ν} {r : Row τ ν} {u : τ}
    (hr : (T.row k).update t f = some r) (hu : u ≠ t) (k' : κ) :
    (Function.update T.row k r k').seen u = (T.row k').seen u ∧
      (Function.update T.row k r k').committed = (T.row k').committed := by
  obtain ⟨hlock, rfl⟩ := Row.update_eq_some.1 hr
  simp only [Function.update_apply]
  split
  · next hk =>
    subst hk
    refine ⟨?_, rfl⟩
    have hw : ∀ w ∈ (T.row k').writer, w.1 ≠ u := fun w hw => by rw [hlock w hw]; exact hu.symm
    rw [Row.seen_of_not_writer hw, Row.seen_of_not_writer]
    simpa using hu.symm
  · exact ⟨rfl, rfl⟩

/-- An update that moves what `t` sees by `d` keeps the law, if the
statement it ran is meant to change the row by `d`. -/
theorem Inv.of_update {k : κ} {f : ν → ν} {r : Row τ ν} {s : Stmt κ ν} {S : Sess κ ν}
    {todo : List (Stmt κ ν)} {kept : κ → Option ν} (hT : T.Inv v₀) (hS : T.sess t = some S)
    (hr : (T.row k).update t f = some r) (hf : f ((T.row k).seen t) = (T.row k).seen t + s.delta k)
    (hs : ∀ k', k' ≠ k → s.delta k' = 0) :
    Inv v₀ { T with
      row := Function.update T.row k r
      sess := Function.update T.sess t (some ⟨todo, S.done ++ [s], kept⟩) } := by
  refine ⟨fun k' => ?_, fun u S' k' hu => ?_, fun k' w hw => ?_⟩
  · rw [← hT.law k']
    obtain ⟨hlock, rfl⟩ := Row.update_eq_some.1 hr
    simp only [Function.update_apply]
    split
    · next hk => rw [hk]
    · rfl
  · obtain ⟨rfl, hS'⟩ | ⟨hut, hu⟩ := of_update_eq_some hu
    · obtain rfl := Option.some.inj hS'
      have hseen := hT.seen u S k' hS
      obtain ⟨hlock, rfl⟩ := Row.update_eq_some.1 hr
      simp only [Function.update_apply, net_append, net_cons, net_nil, add_zero]
      split
      · next hk =>
        subst hk
        rw [Row.seen_of_writer rfl, hf, hseen, add_assoc]
      · next hk => rw [hs k' hk, add_zero, hseen]
    · obtain ⟨h1, h2⟩ := seen_update hr hut k'
      rw [h1, h2]
      exact hT.seen u S' k' hu
  · obtain ⟨hlock, rfl⟩ := Row.update_eq_some.1 hr
    simp only [Function.update_apply (f := T.row)] at hw
    split at hw
    · simp only [Option.mem_def, Option.some.injEq] at hw
      subst hw
      simp
    · exact isSome_update_some (hT.owner k' w hw)

/-- **The step lemma.** A statement keeps the law, a `store` when it is not
of a stale value. -/
theorem Inv.exec (hT : T.Inv v₀) (hc : T.Current t) (h : T.exec t = some T') : T'.Inv v₀ := by
  unfold Table.exec at h
  split at h
  · simp at h
  · simp at h
  · next k todo done kept hS =>
    obtain rfl := Option.some.inj h
    refine ⟨hT.law, fun u S k' hu => ?_, fun k' w hw => isSome_update_some (hT.owner k' w hw)⟩
    obtain ⟨rfl, hS'⟩ | ⟨-, hu⟩ := of_update_eq_some hu
    · obtain rfl := Option.some.inj hS'
      simpa [Stmt.delta] using hT.seen u _ k' hS
    · exact hT.seen u S k' hu
  · next k d todo done kept hS =>
    simp only [Option.bind_eq_some_iff, Option.map_eq_some_iff] at h
    obtain ⟨v, hv, r, hr, rfl⟩ := h
    have hcur : kept k = some ((T.row k).seen t) := by simpa [Current, hS] using hc
    have hseen : v = (T.row k).seen t := Option.some.inj (hv.symm.trans hcur)
    refine hT.of_update hS hr ?_ fun k' hk' => ?_
    · simp [Stmt.delta, hseen]
    · simp [Stmt.delta, hk'.symm]
  · next k d todo done kept hS =>
    simp only [Option.map_eq_some_iff] at h
    obtain ⟨r, hr, rfl⟩ := h
    refine hT.of_update hS hr ?_ fun k' hk' => ?_
    · simp [Stmt.delta]
    · simp [Stmt.delta, hk'.symm]

/-! ### The end of a transaction -/

/-- A transaction that shares a row with the lock of another has changed
nothing there. -/
theorem Inv.net_eq_zero {S : Sess κ ν} {u : τ} {k : κ} {v : ν} (hT : T.Inv v₀)
    (hu : T.sess u = some S) (hut : u ≠ t) (hw : (T.row k).writer = some (t, v)) :
    net S.done k = 0 := by
  have h1 := hT.seen u S k hu
  rw [Row.seen_of_not_writer (by simp [hw, hut.symm])] at h1
  simpa using h1

/-- **The end of `t` and the others' views**: each still sees the committed
value changed by what it has run. -/
theorem Inv.seen_end {S : Sess κ ν} {u : τ} {k : κ} {r : Row τ ν} (hT : T.Inv v₀)
    (hu : T.sess u = some S) (hut : u ≠ t)
    (hr : r = (T.row k).commit t ∨ r = (T.row k).rollback t) :
    r.seen u = r.committed + net S.done k := by
  rcases (T.row k).writer_cases t with ⟨v, hw⟩ | hw
  · rw [Row.commit_of_writer hw, Row.rollback_of_writer hw] at hr
    rw [hT.net_eq_zero hu hut hw, add_zero]
    rcases hr with rfl | rfl <;> rfl
  · rw [Row.commit_of_not_writer hw, Row.rollback_of_not_writer hw, or_self] at hr
    rw [hr]
    exact hT.seen u S k hu

/-- And no lock is left to a transaction that is not open. -/
theorem Inv.owner_end {k : κ} {r : Row τ ν} {w : τ × ν} (hT : T.Inv v₀)
    (hr : r = (T.row k).commit t ∨ r = (T.row k).rollback t) (hw : w ∈ r.writer) :
    (Function.update T.sess t none w.1).isSome := by
  rcases (T.row k).writer_cases t with ⟨v, hv⟩ | hv
  · rw [Row.commit_of_writer hv, Row.rollback_of_writer hv] at hr
    rcases hr with rfl | rfl <;> simp at hw
  · rw [Row.commit_of_not_writer hv, Row.rollback_of_not_writer hv, or_self] at hr
    rw [hr] at hw
    simpa [Function.update_apply, hv w hw] using hT.owner k w hw

theorem Inv.commit (hT : T.Inv v₀) (h : T.commit t = some T') : T'.Inv v₀ := by
  unfold Table.commit at h
  split at h
  · next done kept hS =>
    obtain rfl := Option.some.inj h
    refine ⟨fun k => ?_, fun u S k hu => ?_, fun k w hw => hT.owner_end (.inl rfl) hw⟩
    · rw [Row.commit_committed, hT.seen t _ k hS, hT.law k]
      simp [add_assoc]
    · obtain ⟨-, hnone⟩ | ⟨hut, hu⟩ := of_update_eq_some hu
      · cases hnone
      · exact hT.seen_end hu hut (.inl rfl)
  · simp at h

theorem Inv.rollback (hT : T.Inv v₀) (h : T.rollback t = some T') : T'.Inv v₀ := by
  unfold Table.rollback at h
  split at h
  · next S₀ hS =>
    obtain rfl := Option.some.inj h
    refine ⟨fun k => ?_, fun u S k hu => ?_, fun k w hw => hT.owner_end (.inr rfl) hw⟩
    · rw [Row.rollback_committed]
      exact hT.law k
    · obtain ⟨-, hnone⟩ | ⟨hut, hu⟩ := of_update_eq_some hu
      · cases hnone
      · exact hT.seen_end hu hut (.inr rfl)
  · simp at h

/-! ## What an operation does to the transactions -/

omit [DecidableEq κ] [AddCommGroup ν] in
theorem begin_sess (h : T.begin t ss = some T') :
    T'.row = T.row ∧ T'.log = T.log ∧ T.sess t = none ∧
      T'.sess = Function.update T.sess t (some ⟨ss, [], fun _ => none⟩) := by
  unfold Table.begin at h
  split at h
  · next hnone =>
    obtain rfl := Option.some.inj h
    exact ⟨rfl, rfl, hnone, rfl⟩
  · simp at h

omit [DecidableEq κ] [AddCommGroup ν] in
theorem issue_sess (h : T.issue t ss = some T') :
    T'.row = T.row ∧ T'.log = T.log ∧ ∃ S, T.sess t = some S ∧
      T'.sess = Function.update T.sess t (some { S with todo := S.todo ++ ss }) := by
  unfold Table.issue at h
  split at h
  · simp at h
  · next S hS =>
    obtain rfl := Option.some.inj h
    exact ⟨rfl, rfl, S, hS, rfl⟩

omit [DecidableEq κ] [AddCommGroup ν] in
theorem commit_sess (h : T.commit t = some T') :
    ∃ done kept, T.sess t = some ⟨[], done, kept⟩ ∧ T'.log = T.log ++ [done] ∧
      T'.sess = Function.update T.sess t none := by
  unfold Table.commit at h
  split at h
  · next done kept hS =>
    obtain rfl := Option.some.inj h
    exact ⟨done, kept, hS, rfl, rfl⟩
  · simp at h

omit [DecidableEq κ] [AddCommGroup ν] in
theorem rollback_sess (h : T.rollback t = some T') :
    T'.log = T.log ∧ T'.sess = Function.update T.sess t none := by
  unfold Table.rollback at h
  split at h
  · obtain rfl := Option.some.inj h
    exact ⟨rfl, rfl⟩
  · simp at h

/-- A statement that runs moves from `todo` to `done`, and nothing else
about the transactions changes. -/
theorem exec_sess (h : T.exec t = some T') :
    T'.log = T.log ∧ (∀ u, u ≠ t → T'.sess u = T.sess u) ∧
      ∃ S S', T.sess t = some S ∧ T'.sess t = some S' ∧
        S'.done ++ S'.todo = S.done ++ S.todo := by
  unfold Table.exec at h
  split at h
  · simp at h
  · simp at h
  · next k todo done kept hS =>
    obtain rfl := Option.some.inj h
    exact ⟨rfl, fun u hu => by simp [hu], _, _, hS, Function.update_self .., by simp⟩
  · next k d todo done kept hS =>
    simp only [Option.bind_eq_some_iff, Option.map_eq_some_iff] at h
    obtain ⟨v, hv, r, hr, rfl⟩ := h
    exact ⟨rfl, fun u hu => by simp [hu], _, _, hS, Function.update_self .., by simp⟩
  · next k d todo done kept hS =>
    simp only [Option.map_eq_some_iff] at h
    obtain ⟨r, hr, rfl⟩ := h
    exact ⟨rfl, fun u hu => by simp [hu], _, _, hS, Function.update_self .., by simp⟩

end Table

end ChutesApi
