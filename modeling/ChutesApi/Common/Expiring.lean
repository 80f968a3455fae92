import Mathlib.Data.Nat.Notation
import Mathlib.Logic.Function.Basic
/-!
# A store whose entries run out

Each key has at most one entry, with the time from which it is gone. What
is stored may depend on the key. `get_set`, `get_delete` and
`get_deleteAll` say what each operation leaves, and `get_of_le` that time
only takes entries away.
-/

namespace ChutesApi

/-- **A store with lifetimes.** -/
structure Expiring (κ : Type*) (ν : κ → Type*) where
  entry : (k : κ) → Option (ν k × ℕ)

namespace Expiring

variable {κ : Type*} {ν : κ → Type*}

def empty : Expiring κ ν := ⟨fun _ => none⟩

/-- What is found under a key at a time. -/
def get (c : Expiring κ ν) (now : ℕ) (k : κ) : Option (ν k) :=
  (c.entry k).bind fun e => if now < e.2 then some e.1 else none

variable [DecidableEq κ]

/-- An entry that is gone from `expiry` on. -/
def set (c : Expiring κ ν) (k : κ) (v : ν k) (expiry : ℕ) : Expiring κ ν :=
  ⟨Function.update c.entry k (some (v, expiry))⟩

def delete (c : Expiring κ ν) (k : κ) : Expiring κ ν := ⟨Function.update c.entry k none⟩

def deleteAll (c : Expiring κ ν) (ks : List κ) : Expiring κ ν := ks.foldl delete c

variable {c : Expiring κ ν} {now later expiry : ℕ} {k k' : κ} {v : ν k} {w : ν k'} {ks : List κ}

omit [DecidableEq κ] in
@[simp] theorem get_empty : (empty : Expiring κ ν).get now k = none := rfl

omit [DecidableEq κ] in
theorem get_eq_some :
    c.get now k = some v ↔ ∃ expiry, c.entry k = some (v, expiry) ∧ now < expiry := by
  unfold get
  rw [Option.bind_eq_some_iff]
  constructor
  · rintro ⟨⟨v', expiry⟩, he, h⟩
    rw [Option.ite_none_right_eq_some, Option.some.injEq] at h
    obtain ⟨hlt, rfl⟩ := h
    exact ⟨expiry, he, hlt⟩
  · rintro ⟨expiry, he, hlt⟩
    exact ⟨(v, expiry), he, if_pos hlt⟩

omit [DecidableEq κ] in
/-- **What is there later is there now.** -/
theorem get_of_le (h : c.get later k = some v) (hle : now ≤ later) : c.get now k = some v := by
  obtain ⟨expiry, he, hlt⟩ := get_eq_some.1 h
  exact get_eq_some.2 ⟨expiry, he, Nat.lt_of_le_of_lt hle hlt⟩

theorem get_set_self : (c.set k v expiry).get now k = if now < expiry then some v else none := by
  simp [get, set]

theorem get_set_of_ne (h : k' ≠ k) : (c.set k v expiry).get now k' = c.get now k' := by
  simp [get, set, h]

theorem get_delete_self : (c.delete k).get now k = none := by
  simp [get, delete]

theorem get_delete_of_ne (h : k' ≠ k) : (c.delete k).get now k' = c.get now k' := by
  simp [get, delete, h]

/-- **A purge** takes away the keys it names and no other. -/
theorem get_deleteAll : (c.deleteAll ks).get now k' = if k' ∈ ks then none else c.get now k' := by
  induction ks generalizing c with
  | nil => rfl
  | cons k ks ih =>
    have hcons : c.deleteAll (k :: ks) = (c.delete k).deleteAll ks := rfl
    rw [hcons, ih]
    rcases eq_or_ne k' k with rfl | h
    · simp [get_delete_self]
    · simp [get_delete_of_ne h, h]

/-- What a purge leaves was there. -/
theorem get_deleteAll_eq_some :
    (c.deleteAll ks).get now k' = some w ↔ k' ∉ ks ∧ c.get now k' = some w := by
  rw [get_deleteAll]
  split <;> simp_all

end Expiring

end ChutesApi
