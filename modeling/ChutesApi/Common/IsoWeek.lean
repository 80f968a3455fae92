import ChutesApi.Python.Str
import Mathlib.Data.Nat.Find
/-!
# Weeks and their ISO names

Days are counted from the first of January of the year 1, which was a Monday
in the calendar that is extended backwards, so that the week of a day is its
number by seven. A week is of the year that its Thursday is in, and is
numbered in it. The name of a week, its year and number, is of no other week.
-/

namespace ChutesApi

namespace IsoWeek

/-- The days before the first of January of a year; the year 1 is number 0. -/
def yearStart (y : ℕ) : ℕ := 365 * y + y / 4 - y / 100 + y / 400

/-- The year that a day is in. -/
def yearOf (day : ℕ) : ℕ := Nat.findGreatest (fun y => yearStart y ≤ day) (day / 365)

/-- The Thursday of a week. -/
def thursday (week : ℕ) : ℕ := 7 * week + 3

/-- The year of a week, as it is written. -/
def year (week : ℕ) : ℕ := yearOf (thursday week) + 1

/-- The number of a week in its year. -/
def number (week : ℕ) : ℕ := (thursday week - yearStart (yearOf (thursday week))) / 7 + 1

/-- A number in so many digits, or more. -/
def padded (width n : ℕ) : List Char :=
  List.replicate (width - (Nat.toDigits 10 n).length) '0' ++ Nat.toDigits 10 n

/-- `to_char(…, 'IYYY_IW')`. -/
def name (week : ℕ) : String := .ofList (padded 4 (year week) ++ '_' :: padded 2 (number week))

-- The days from 2024-12-29, a Sunday, to 2025-01-05.
example : (List.range 8).map (fun i => name ((739248 + i) / 7)) =
    ["2024_52", "2025_01", "2025_01", "2025_01", "2025_01", "2025_01", "2025_01", "2025_01"] := by
  decide +kernel

/-- A day is not before its year. -/
theorem yearStart_yearOf_le (day : ℕ) : yearStart (yearOf day) ≤ day :=
  Nat.findGreatest_spec (P := fun y => yearStart y ≤ day) (Nat.zero_le _) (Nat.zero_le day)

/-- **A week is what its year and its number say.** -/
theorem week_inj {v w : ℕ} (hyear : year v = year w) (hnumber : number v = number w) : v = w := by
  have hy : yearOf (thursday v) = yearOf (thursday w) := by
    unfold year at hyear
    omega
  have hv := yearStart_yearOf_le (thursday v)
  have hw := yearStart_yearOf_le (thursday w)
  unfold number at hnumber
  rw [hy] at hv hnumber
  -- Thursdays that are in one seventh of their year are one.
  unfold thursday at hv hw hnumber
  omega

/-! ## Names -/

theorem ofDigitChars_padded (width n : ℕ) : Nat.ofDigitChars 10 (padded width n) 0 = n := by
  unfold padded
  rw [Nat.ofDigitChars_append, Nat.ofDigitChars_replicate_zero, Nat.mul_zero,
    Nat.ofDigitChars_toDigits (by omega) (by omega)]

theorem underscore_notMem_padded (width n : ℕ) : '_' ∉ padded width n := by
  unfold padded
  rw [List.mem_append, not_or]
  constructor
  · intro h
    exact absurd (List.eq_of_mem_replicate h) (by decide)
  · intro h
    have hdigit := Nat.isDigit_of_mem_toDigits (by omega) (by omega) h
    exact absurd hdigit (by decide)

/-- **No two weeks have one name.** -/
theorem name_inj {v w : ℕ} : name v = name w ↔ v = w := by
  refine ⟨fun h => ?_, fun h => h ▸ rfl⟩
  have hchars : padded 4 (year v) ++ '_' :: padded 2 (number v) =
      padded 4 (year w) ++ '_' :: padded 2 (number w) := String.ofList_injective h
  obtain ⟨hyear, hnumber⟩ := Python.eq_of_append_cons (underscore_notMem_padded _ _)
    (underscore_notMem_padded _ _) hchars
  have hyear' := congrArg (Nat.ofDigitChars 10 · 0) hyear
  have hnumber' := congrArg (Nat.ofDigitChars 10 · 0) hnumber
  simp only [ofDigitChars_padded] at hyear' hnumber'
  exact week_inj hyear' hnumber'

end IsoWeek

end ChutesApi
