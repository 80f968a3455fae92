import Mathlib.Data.List.Pairwise
import Mathlib.Data.Nat.Bitwise
/-!
# Users and their permissions

The columns of `users` that the rest of the model reads, and the role
bitmask. `balance` is not among them: it is the one column several
processes write, and is kept in a `Table` or in the state of its writer.
-/

namespace ChutesApi

abbrev UserId := String

abbrev ChuteId := String

/-- A row of `users`. -/
structure User where
  userId : UserId
  username : String := ""
  hotkey : Option String := none
  coldkey : String := ""
  paymentAddress : Option String := none
  developerPaymentAddress : Option String := none
  fingerprintHash : String := ""
  permissionsBitmask : ℕ := 0
  squadEnabled : Bool := false
  deriving DecidableEq, Repr

/-- A role is its bit. -/
structure Role where
  bitmask : ℕ
  deriving DecidableEq, Repr

namespace Permissioning

def developer : Role := ⟨1 <<< 0⟩

def freeAccount : Role := ⟨1 <<< 4⟩

def unlimited : Role := ⟨1 <<< 5⟩

def billingAdmin : Role := ⟨1 <<< 6⟩

def unlimitedDev : Role := ⟨1 <<< 7⟩

def invoiceBilling : Role := ⟨1 <<< 8⟩

/-- `user.permissions_bitmask & role.bitmask == role.bitmask`. -/
def enabled (user : User) (role : Role) : Bool :=
  user.permissionsBitmask &&& role.bitmask == role.bitmask

end Permissioning

def User.hasRole (user : User) (role : Role) : Bool := Permissioning.enabled user role

/-! ## The table -/

/-- What the table's constraints say of two rows: `user_id`, `hotkey` and
`fingerprint_hash` are unique, where a null `hotkey` equals none. -/
def User.Distinct (a b : User) : Prop :=
  a.userId ≠ b.userId ∧ (a.hotkey = b.hotkey → a.hotkey = none) ∧
    a.fingerprintHash ≠ b.fingerprintHash

instance (a b : User) : Decidable (a.Distinct b) := by
  unfold User.Distinct
  infer_instance

instance : Std.Symm User.Distinct where
  symm _ _ h := ⟨h.1.symm, fun he => he.trans (h.2.1 he.symm), h.2.2.symm⟩

/-- **The table `users`**, its rows under the constraints. -/
structure Users where
  rows : List User
  distinct : rows.Pairwise User.Distinct

namespace Users

/-- A query by a predicate that no two distinct rows satisfy finds at most
one row. -/
theorem filter_le_one (users : Users) {p : User → Bool}
    (hp : ∀ a b, User.Distinct a b → p a → p b → False) :
    users.rows.filter p = [] ∨ ∃ u ∈ users.rows, users.rows.filter p = [u] := by
  have hpair := users.distinct.filter p
  have hmem : ∀ u ∈ users.rows.filter p, u ∈ users.rows ∧ p u = true := fun u hu =>
    List.mem_filter.1 hu
  rcases hf : users.rows.filter p with _ | ⟨a, _ | ⟨b, l⟩⟩
  · exact .inl rfl
  · exact .inr ⟨a, (hmem a (by simp [hf])).1, rfl⟩
  · rw [hf, List.pairwise_cons] at hpair
    exact (hp a b (hpair.1 b (by simp)) (hmem a (by simp [hf])).2 (hmem b (by simp [hf])).2).elim

/-- A user id is one row's. -/
theorem eq_of_userId (users : Users) {u v : User} (hu : u ∈ users.rows) (hv : v ∈ users.rows)
    (h : u.userId = v.userId) : u = v := by
  by_contra hne
  exact (users.distinct.forall hu hv hne).1 h

/-- `UPDATE users SET fingerprint_hash = :hash WHERE user_id = :userId`, for
a hash that is no other user's. -/
def setFingerprintHash (users : Users) (userId : UserId) (hash : String)
    (h : ∀ u ∈ users.rows, u.userId ≠ userId → u.fingerprintHash ≠ hash) : Users where
  rows := users.rows.map fun u =>
    if u.userId = userId then { u with fingerprintHash := hash } else u
  distinct := by
    rw [List.pairwise_map]
    refine users.distinct.imp_of_mem fun {a b} ha hb hab => ?_
    obtain ⟨hid, hhot, hfp⟩ := hab
    -- at most one of the two is the row updated
    by_cases h1 : a.userId = userId <;> by_cases h2 : b.userId = userId
    · exact absurd (h1.trans h2.symm) hid
    · rw [if_pos h1, if_neg h2]
      exact ⟨hid, hhot, (h b hb h2).symm⟩
    · rw [if_neg h1, if_pos h2]
      exact ⟨hid, hhot, h a ha h1⟩
    · rw [if_neg h1, if_neg h2]
      exact ⟨hid, hhot, hfp⟩

end Users

end ChutesApi
