import ChutesApi.Python.Num
import Mathlib.Algebra.Order.Field.Power
import Mathlib.Data.Int.Log
import Mathlib.Tactic.Linarith
import Mathlib.Tactic.NormNum
import Mathlib.Tactic.Ring
/-!
# Double precision

The floats that are stored: the numbers with a significand of 53 bits, and
those that are not finite. `nearest` rounds to them, and
`nearest_of_representable` says that it keeps those there are.
-/

namespace ChutesApi

namespace Python

/-- A number that a `float` stands for. -/
def Representable (q : ℚ) : Prop :=
  |q| < 2 ^ 1024 ∧ ∃ m e : ℤ, |m| < 2 ^ 53 ∧ -1074 ≤ e ∧ q = m * 2 ^ e

/-- `-x`. -/
def PyFloat.neg : PyFloat → PyFloat
  | finite q => finite (-q)
  | inf => negInf
  | negInf => inf
  | nan => nan

/-- A `float`, if it is finite, stands for one of them. -/
def PyFloat.IsDouble : PyFloat → Prop
  | finite q => Representable q
  | _ => True

/-- **A `float` that is stored.** -/
structure Double where
  value : PyFloat
  isDouble : value.IsDouble

/-- The place of the last bit of the significand. -/
def lastPlace (q : ℚ) : ℤ := max (Int.log 2 |q| - 52) (-1074)

/-- **The `float` next to a number**, where halves are rounded to even. -/
def nearest (q : ℚ) : PyFloat :=
  let r := round (q / 2 ^ lastPlace q) 0 * 2 ^ lastPlace q
  if |r| < 2 ^ 1024 then .finite r else if 0 < q then .inf else .negInf

variable {q : ℚ}

theorem round_intCast (n : ℤ) : round n 0 = n := by
  simp [round]

/-- The last bit of a number that is a `float` is not behind the last place. -/
theorem exists_eq_mul_lastPlace (h : Representable q) : ∃ n : ℤ, q = n * 2 ^ lastPlace q := by
  obtain ⟨-, m, e, hm, he, hq⟩ := h
  rcases eq_or_ne q 0 with rfl | hne
  · exact ⟨0, by simp⟩
  have hlog : Int.log 2 |q| < 53 + e := by
    have hlt : |q| < 2 ^ (53 + e) := by
      have hpow : (0 : ℚ) < 2 ^ e := zpow_pos two_pos e
      rw [hq, abs_mul, abs_of_pos hpow, zpow_add₀ two_ne_zero]
      refine mul_lt_mul_of_pos_right ?_ hpow
      exact_mod_cast hm
    exact (Int.lt_zpow_iff_log_lt one_lt_two (abs_pos.2 hne)).1 (by exact_mod_cast hlt)
  have hplace : lastPlace q ≤ e := max_le (by omega) he
  obtain ⟨j, hj⟩ := Int.eq_ofNat_of_zero_le (Int.sub_nonneg_of_le hplace)
  refine ⟨m * 2 ^ j, ?_⟩
  have hsplit : (2 : ℚ) ^ e = 2 ^ j * 2 ^ lastPlace q := by
    rw [← zpow_natCast, ← zpow_add₀ two_ne_zero]
    congr 1
    omega
  push_cast
  rw [mul_assoc, ← hsplit]
  exact hq

/-- **A `float` is next to itself.** -/
theorem nearest_of_representable (h : Representable q) : nearest q = .finite q := by
  obtain ⟨n, hn⟩ := exists_eq_mul_lastPlace h
  have hpos : (0 : ℚ) < 2 ^ lastPlace q := zpow_pos two_pos _
  have hround : round (q / 2 ^ lastPlace q) 0 * 2 ^ lastPlace q = q := by
    have hdiv : q / 2 ^ lastPlace q = n := (div_eq_iff hpos.ne').2 hn
    rw [hdiv, round_intCast, ← hn]
  rw [nearest, hround, if_pos h.1]

theorem Representable.neg (h : Representable q) : Representable (-q) := by
  obtain ⟨hlt, m, e, hm, he, rfl⟩ := h
  exact ⟨by rwa [abs_neg], -m, e, by rwa [abs_neg], he, by push_cast; ring⟩

theorem Representable.abs (h : Representable q) : Representable |q| := by
  rcases abs_choice q with habs | habs
  · rwa [habs]
  · rw [habs]
    exact h.neg

/-- An integer of at most 53 bits. -/
theorem representable_intCast {n : ℤ} (h : |n| < 2 ^ 53) : Representable n := by
  refine ⟨?_, n, 0, h, by norm_num, by simp⟩
  have hq : |(n : ℚ)| < 2 ^ 53 := by exact_mod_cast h
  exact hq.trans (pow_lt_pow_right₀ one_lt_two (by norm_num))

end Python

end ChutesApi
