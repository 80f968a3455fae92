import Mathlib.Algebra.BigOperators.Group.List.Basic
/-!
# Sums over the entries of a list

What a sum becomes when one entry of a list is set: `sum_map_set` says it
without a subtraction, so that it holds of any commutative sum.
-/

namespace ChutesApi

variable {α M : Type*} [AddCommMonoid M] {l : List α} {i : ℕ} {a b : α}

/-- **Setting an entry** exchanges its summand. -/
theorem sum_map_set (h : l[i]? = some a) (f : α → M) :
    ((l.set i b).map f).sum + f a = (l.map f).sum + f b := by
  induction l generalizing i with
  | nil => simp at h
  | cons c l ih =>
    cases i with
    | zero =>
      obtain rfl : c = a := by simpa using h
      simp only [List.set_cons_zero, List.map_cons, List.sum_cons]
      rw [add_right_comm, add_comm (f b), add_right_comm, add_comm (f c)]
    | succ i =>
      have hrest := ih (i := i) (by simpa using h)
      simp only [List.set_cons_succ, List.map_cons, List.sum_cons]
      rw [add_assoc, hrest, add_assoc]

end ChutesApi
