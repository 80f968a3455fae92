import Mathlib.Data.Option.Basic
/-!
# A row under READ COMMITTED

A row has its committed version and, while some transaction has updated it
and not yet ended, the version that transaction wrote, which also holds
the row's lock. A statement sees its own transaction's version and
otherwise the committed one; an update waits for the lock and then applies
to the version its transaction sees.
-/

namespace ChutesApi

/-- **A row**: the committed version, and the uncommitted one with the
transaction that wrote it and so holds the lock. -/
structure Row (τ ν : Type*) where
  committed : ν
  writer : Option (τ × ν)
  deriving DecidableEq

namespace Row

variable {τ ν : Type*} [DecidableEq τ] {r r' : Row τ ν} {t u : τ} {v : ν} {f : ν → ν}

/-- A row nobody is writing. -/
def idle (v : ν) : Row τ ν := ⟨v, none⟩

/-- What a statement of `t` sees. -/
def seen (r : Row τ ν) (t : τ) : ν :=
  match r.writer with
  | some (u, v) => if u = t then v else r.committed
  | none => r.committed

/-- The lock is free or held by `t` itself. -/
def Lockable (r : Row τ ν) (t : τ) : Prop := ∀ w ∈ r.writer, w.1 = t

instance : Decidable (r.Lockable t) :=
  match h : r.writer with
  | none => isTrue (by simp [Lockable, h])
  | some w => decidable_of_iff (w.1 = t) (by simp [Lockable, h])

/-- `UPDATE … SET v = f v`: it waits for the lock, so it is not enabled
while another transaction holds it. -/
def update (r : Row τ ν) (t : τ) (f : ν → ν) : Option (Row τ ν) :=
  if r.Lockable t then some { r with writer := some (t, f (r.seen t)) } else none

/-- The end of `t` by a commit. -/
def commit (r : Row τ ν) (t : τ) : Row τ ν :=
  match r.writer with
  | some (u, v) => if u = t then ⟨v, none⟩ else r
  | none => r

/-- The end of `t` by a rollback. -/
def rollback (r : Row τ ν) (t : τ) : Row τ ν :=
  match r.writer with
  | some (u, _) => if u = t then ⟨r.committed, none⟩ else r
  | none => r

/-! ## What each operation leaves -/

omit [DecidableEq τ] in
@[simp] theorem idle_committed : (idle v : Row τ ν).committed = v := rfl

omit [DecidableEq τ] in
@[simp] theorem idle_writer : (idle v : Row τ ν).writer = none := rfl

/-- **What an update did**: the lock was available, and the row is as
before but for the uncommitted version. -/
theorem update_eq_some : r.update t f = some r' ↔
    r.Lockable t ∧ r' = { r with writer := some (t, f (r.seen t)) } := by
  unfold update
  split <;> simp_all [eq_comm]

theorem seen_of_writer (h : r.writer = some (t, v)) : r.seen t = v := by
  simp [seen, h]

theorem seen_of_not_writer (h : ∀ w ∈ r.writer, w.1 ≠ t) : r.seen t = r.committed := by
  unfold seen
  split
  · next u v hw => exact if_neg (h (u, v) (by simp [hw]))
  · rfl

@[simp] theorem seen_mk : (Row.mk v (some (t, f v)) : Row τ ν).seen t = f v := by
  simp [seen]

theorem commit_of_writer (h : r.writer = some (t, v)) : r.commit t = idle v := by
  simp [commit, h, idle]

theorem rollback_of_writer (h : r.writer = some (t, v)) :
    r.rollback t = idle r.committed := by
  simp [rollback, h, idle]

theorem commit_of_not_writer (h : ∀ w ∈ r.writer, w.1 ≠ t) : r.commit t = r := by
  unfold commit
  split
  · next u v hw => exact if_neg (h (u, v) (by simp [hw]))
  · rfl

theorem rollback_of_not_writer (h : ∀ w ∈ r.writer, w.1 ≠ t) : r.rollback t = r := by
  unfold rollback
  split
  · next u v hw => exact if_neg (h (u, v) (by simp [hw]))
  · rfl

omit [DecidableEq τ] in
/-- Either `t` holds the lock or it does not. -/
theorem writer_cases (r : Row τ ν) (t : τ) :
    (∃ v, r.writer = some (t, v)) ∨ ∀ w ∈ r.writer, w.1 ≠ t := by
  rcases hw : r.writer with _ | ⟨u, v⟩
  · exact .inr (by simp)
  · rcases eq_or_ne u t with rfl | h
    · exact .inl ⟨v, rfl⟩
    · exact .inr (by simp [h])

/-! ## The locks of the others -/

theorem update_writer_iff (h : r.update t f = some r') (hu : u ≠ t) :
    r'.writer = some (u, v) ↔ r.writer = some (u, v) := by
  obtain ⟨hlock, rfl⟩ := update_eq_some.1 h
  constructor
  · intro hw
    exact absurd (Prod.mk.inj (Option.some.inj hw)).1.symm hu
  · intro hw
    exact absurd (hlock (u, v) hw) hu

theorem commit_writer_iff (hu : u ≠ t) :
    (r.commit t).writer = some (u, v) ↔ r.writer = some (u, v) := by
  rcases r.writer_cases t with ⟨v', hw⟩ | hw
  · simp [commit_of_writer hw, hw, hu.symm]
  · rw [commit_of_not_writer hw]

theorem rollback_writer_iff (hu : u ≠ t) :
    (r.rollback t).writer = some (u, v) ↔ r.writer = some (u, v) := by
  rcases r.writer_cases t with ⟨v', hw⟩ | hw
  · simp [rollback_of_writer hw, hw, hu.symm]
  · rw [rollback_of_not_writer hw]

/-- A row that another transaction has locked is not changed. -/
theorem update_of_writer (h : r.update t f = some r') (hu : u ≠ t)
    (hw : r'.writer = some (u, v) ∨ r.writer = some (u, v)) : r' = r := by
  rw [update_writer_iff h hu, or_self] at hw
  obtain ⟨hlock, -⟩ := update_eq_some.1 h
  exact absurd (hlock (u, v) hw) hu

theorem commit_of_writer_ne (hu : u ≠ t)
    (hw : (r.commit t).writer = some (u, v) ∨ r.writer = some (u, v)) : r.commit t = r := by
  rw [commit_writer_iff hu, or_self] at hw
  refine commit_of_not_writer fun w hw' => ?_
  rw [hw, Option.mem_some_iff] at hw'
  exact hw' ▸ hu

theorem rollback_of_writer_ne (hu : u ≠ t)
    (hw : (r.rollback t).writer = some (u, v) ∨ r.writer = some (u, v)) : r.rollback t = r := by
  rw [rollback_writer_iff hu, or_self] at hw
  refine rollback_of_not_writer fun w hw' => ?_
  rw [hw, Option.mem_some_iff] at hw'
  exact hw' ▸ hu

theorem update_commit_of_writer (h : r.update t f = some r') (hu : u ≠ t)
    (hw : (r'.commit t).writer = some (u, v) ∨ r.writer = some (u, v)) : r'.commit t = r := by
  rw [commit_writer_iff hu] at hw
  have hsame := update_of_writer h hu hw
  rw [hsame, or_self] at hw
  rw [hsame]
  exact commit_of_writer_ne hu (.inr hw)

/-- A transaction that has ended holds no lock. -/
theorem commit_writer_ne (r : Row τ ν) (t : τ) (v : ν) : (r.commit t).writer ≠ some (t, v) := by
  rcases r.writer_cases t with ⟨v', hw⟩ | hw
  · simp [commit_of_writer hw]
  · rw [commit_of_not_writer hw]
    exact fun h => hw (t, v) h rfl

theorem rollback_writer_ne (r : Row τ ν) (t : τ) (v : ν) :
    (r.rollback t).writer ≠ some (t, v) := by
  rcases r.writer_cases t with ⟨v', hw⟩ | hw
  · simp [rollback_of_writer hw]
  · rw [rollback_of_not_writer hw]
    exact fun h => hw (t, v) h rfl

/-- A rollback never changes the committed version. -/
@[simp] theorem rollback_committed (r : Row τ ν) (t : τ) :
    (r.rollback t).committed = r.committed := by
  rcases r.writer_cases t with ⟨v, h⟩ | h
  · rw [rollback_of_writer h, idle_committed]
  · rw [rollback_of_not_writer h]

/-- A commit installs what its transaction saw. -/
theorem commit_committed (r : Row τ ν) (t : τ) : (r.commit t).committed = r.seen t := by
  rcases r.writer_cases t with ⟨v, h⟩ | h
  · rw [commit_of_writer h, seen_of_writer h, idle_committed]
  · rw [commit_of_not_writer h, seen_of_not_writer h]

end Row

end ChutesApi
