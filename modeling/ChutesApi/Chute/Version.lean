import ChutesApi.Python.Exc
import ChutesApi.Python.Str
/-!
# Versions of chutes

Whether a feature is used depends on the version of chutes an image was
built with, a text of three numbers. Each gate reads the numbers it needs
and compares them by itself. `consistent_iff` says between which two
versions a gate that the first one passes is not passed by the later one:
most gates do not read the first number, one asks for it to be zero, and one
for the last number to be 50.
-/

namespace ChutesApi

namespace ChutesVersion

open Python

/-! ## The gates -/

/-- `int(s)`. -/
def number (s : String) : Except Exc ℕ :=
  match natural s with
  | some n => .ok n
  | none => .error (.raised .valueError)

/-- `use_encryption_v2`. -/
def useEncryptionV2 (chutesVersion : Option String) : Except Exc Bool :=
  if !truthy chutesVersion then .ok false
  else
    match (split (format chutesVersion) '.').take 2 with
    | [major, minor] => do
      if major = "0" then
        if (← number minor) < 2 then return false
      return true
    | _ => .error (.raised .valueError)

/-- A gate that reads the minor number and, from 2 on, the bug number. -/
def minorGate (accepts : ℕ → Bool) (chutesVersion : Option String) : Except Exc Bool :=
  if !truthy chutesVersion then .ok false
  else
    match (split (format chutesVersion) '.').take 3 with
    | [_, minor, bug] => do
      let minor ← number minor
      if 2 ≤ minor then
        if accepts (← number bug) then return true
      return decide (2 < minor)
    | _ => .error (.raised .valueError)

/-- `use_encrypted_path`. -/
def useEncryptedPath : Option String → Except Exc Bool := minorGate (14 ≤ ·)

/-- `should_slurp_code`. -/
def shouldSlurpCode : Option String → Except Exc Bool := minorGate (20 ≤ ·)

/-- `use_opencl_graval`. -/
def useOpenclGraval : Option String → Except Exc Bool := minorGate (· = 50)

/-- `use_encrypted_slurp`. -/
def useEncryptedSlurp (chutesVersion : Option String) : Except Exc Bool :=
  if !truthy chutesVersion then .ok false
  else
    match (split (format chutesVersion) '.').take 3 with
    | [major, minor, bug] => do
      if major = "0" then
        let minor ← number minor
        if 2 ≤ minor then
          if 2 < minor then return true
          return decide (20 ≤ (← number bug))
      return false
    | _ => .error (.raised .valueError)

/-- The gates. -/
def gates : List (Option String → Except Exc Bool) :=
  [useEncryptionV2, useEncryptedPath, shouldSlurpCode, useOpenclGraval, useEncryptedSlurp]

/-! ## Versions -/

/-- A version of three parts. -/
structure Version where
  major : ℕ
  minor : ℕ
  bug : ℕ
  deriving DecidableEq, Repr

namespace Version

/-- As it is written. -/
def text (v : Version) : String := join '.' [v.major.repr, v.minor.repr, v.bug.repr]

/-- The order of versions. -/
instance : LE Version where
  le v w := v.major < w.major ∨ v.major = w.major ∧
    (v.minor < w.minor ∨ v.minor = w.minor ∧ v.bug ≤ w.bug)

theorem le_def {v w : Version} : v ≤ w ↔ v.major < w.major ∨ v.major = w.major ∧
    (v.minor < w.minor ∨ v.minor = w.minor ∧ v.bug ≤ w.bug) :=
  Iff.rfl

instance (v w : Version) : Decidable (v ≤ w) := decidable_of_iff _ le_def.symm

/-- The gate holds. -/
def Passes (v : Version) (gate : Option String → Except Exc Bool) : Prop :=
  gate (some v.text) = .ok true

/-- Of the second minor version from some bug on, or of a later one. -/
def Past (v : Version) (bug : ℕ) : Prop := 2 < v.minor ∨ v.minor = 2 ∧ bug ≤ v.bug

/-- Of the second minor version with bug 50, or of a later one. -/
def HasOpencl (v : Version) : Prop := 2 < v.minor ∨ v.minor = 2 ∧ v.bug = 50

instance (v : Version) (bug : ℕ) : Decidable (v.Past bug) := by unfold Past; infer_instance

instance (v : Version) : Decidable v.HasOpencl := by unfold HasOpencl; infer_instance

variable (v w : Version)

@[simp] theorem split_text : split v.text '.' = [v.major.repr, v.minor.repr, v.bug.repr] := by
  refine split_join (fun s hs hdot => ?_) (by simp)
  -- a number has no dot
  have hnot : ∀ n : ℕ, '.' ∉ n.repr.toList := notMem_repr (by decide)
  simp only [List.mem_cons, List.not_mem_nil, or_false] at hs
  rcases hs with rfl | rfl | rfl <;> exact hnot _ hdot

@[simp] theorem truthy_text : truthy (some v.text) = true := by
  have hne : v.text ≠ "" := fun h => by
    have hdot : '.' ∈ v.text.toList := mem_join
    simp [h] at hdot
  simpa [truthy] using hne

@[simp] theorem number_repr (n : ℕ) : number n.repr = .ok n := by
  rw [number, natural_repr]

@[simp] theorem repr_eq_zero {n : ℕ} : n.repr = "0" ↔ n = 0 := by
  constructor
  · intro h
    have hread := natural_repr n
    rw [h] at hread
    exact (Option.some.inj hread).symm
  · rintro rfl
    rfl

/-! ### What each gate asks for -/

theorem passes_useEncryptionV2 : v.Passes useEncryptionV2 ↔ v.major ≠ 0 ∨ 2 ≤ v.minor := by
  by_cases h0 : v.major = 0
  · by_cases h2 : v.minor < 2
    · simp [Passes, useEncryptionV2, format, h0, h2, bind, Except.bind, pure, Except.pure]
    · simp [Passes, useEncryptionV2, format, h0, h2, bind, Except.bind, pure, Except.pure]
      omega
  · simp [Passes, useEncryptionV2, format, h0, pure, Except.pure]

theorem passes_minorGate {accepts : ℕ → Bool} :
    v.Passes (minorGate accepts) ↔ 2 < v.minor ∨ v.minor = 2 ∧ accepts v.bug := by
  by_cases h2 : 2 ≤ v.minor
  · by_cases hbug : accepts v.bug
    · simp [Passes, minorGate, format, h2, hbug, bind, Except.bind, pure, Except.pure]
      omega
    · simp [Passes, minorGate, format, h2, hbug, bind, Except.bind, pure, Except.pure]
  · simp [Passes, minorGate, format, h2, bind, Except.bind, pure, Except.pure]
    omega

theorem passes_useEncryptedPath : v.Passes useEncryptedPath ↔ v.Past 14 :=
  v.passes_minorGate.trans (by simp [Past])

theorem passes_shouldSlurpCode : v.Passes shouldSlurpCode ↔ v.Past 20 :=
  v.passes_minorGate.trans (by simp [Past])

theorem passes_useOpenclGraval : v.Passes useOpenclGraval ↔ v.HasOpencl :=
  v.passes_minorGate.trans (by simp [HasOpencl])

theorem passes_useEncryptedSlurp :
    v.Passes useEncryptedSlurp ↔ v.major = 0 ∧ v.Past 20 := by
  unfold Past
  by_cases h0 : v.major = 0
  · by_cases h2 : 2 ≤ v.minor
    · by_cases h3 : 2 < v.minor
      · simp [Passes, useEncryptedSlurp, format, h0, h2, h3, bind, Except.bind, pure, Except.pure]
      · simp [Passes, useEncryptedSlurp, format, h0, h2, h3, bind, Except.bind, pure, Except.pure]
        omega
    · simp [Passes, useEncryptedSlurp, format, h0, h2, bind, Except.bind, pure, Except.pure]
      omega
  · simp [Passes, useEncryptedSlurp, format, h0, pure, Except.pure]

variable {v w}

/-! ### Between two versions -/

/-- **A gate falls back between these versions**: the first is of a lower
major version, so that the minor versions start again, or the encrypted slurp
ends with major version 0, or the bug number passes 50. -/
def Falls (v w : Version) : Prop :=
  v.major < w.major ∧ (v.Past 14 ∧ ¬w.Past 14 ∨ v.Past 20 ∧ ¬w.Past 20 ∨
      v.HasOpencl ∧ ¬w.HasOpencl ∨ v.major = 0 ∧ v.Past 20) ∨
    v.major = w.major ∧ v.minor = 2 ∧ w.minor = 2 ∧ v.bug = 50 ∧ 50 < w.bug

/-- **The gates are consistent** between two versions: one that the first
passes the second does, and a version that passes the encrypted path passes
encryption V2. -/
def Consistent (v w : Version) : Prop :=
  (∀ gate ∈ gates, v.Passes gate → w.Passes gate) ∧
    (v.Passes useEncryptedPath → v.Passes useEncryptionV2)

/-- Encrypted paths are of version 2 of the encryption. -/
theorem Past.two_le {bug : ℕ} (h : v.Past bug) : 2 ≤ v.minor := by
  unfold Past at h
  omega

/-- Of the same major version, a later version is past the same bugs. -/
theorem Past.of_le {bug : ℕ} (h : v.Past bug) (hle : v ≤ w) (hmajor : v.major = w.major) :
    w.Past bug := by
  rw [le_def] at hle
  unfold Past at *
  omega

/-- Opencl falls back at bug 51. -/
theorem hasOpencl_of_le_iff (hle : v ≤ w) (hmajor : v.major = w.major) :
    (v.HasOpencl → w.HasOpencl) ↔
      ¬(v.minor = 2 ∧ w.minor = 2 ∧ v.bug = 50 ∧ 50 < w.bug) := by
  rw [le_def] at hle
  unfold HasOpencl
  omega

/-- **When the gates are consistent**: no gate falls back between the two
versions. -/
theorem consistent_iff (hle : v ≤ w) : v.Consistent w ↔ ¬v.Falls w := by
  have himplies : v.Passes useEncryptedPath → v.Passes useEncryptionV2 := fun h =>
    v.passes_useEncryptionV2.2 (.inr (v.passes_useEncryptedPath.1 h).two_le)
  unfold Consistent gates
  rw [and_iff_left himplies]
  simp only [List.forall_mem_cons, List.not_mem_nil, false_implies, implies_true, and_true,
    passes_useEncryptionV2, passes_useEncryptedPath, passes_shouldSlurpCode,
    passes_useOpenclGraval, passes_useEncryptedSlurp]
  unfold Falls
  rcases le_def.1 hle with hmajor | ⟨hmajor, hrest⟩
  · have hne : v.major ≠ w.major := by omega
    have hpos : w.major ≠ 0 := by omega
    simp only [hmajor, hne, hpos, true_and, false_and, or_false, imp_false, not_or, not_and,
      not_not, ne_eq, not_false_eq_true, true_or, implies_true]
  · have hsame : ∀ bug, v.Past bug → w.Past bug := fun bug h => h.of_le hle hmajor
    have hv2 : v.major ≠ 0 ∨ 2 ≤ v.minor → w.major ≠ 0 ∨ 2 ≤ w.minor := by omega
    have hzero : v.major = 0 ∧ v.Past 20 → w.major = 0 ∧ w.Past 20 := fun h =>
      ⟨hmajor ▸ h.1, hsame 20 h.2⟩
    have hopencl := hasOpencl_of_le_iff hle hmajor
    constructor
    · rintro ⟨-, -, -, hkept, -⟩ (⟨hlt, -⟩ | ⟨-, hbug⟩)
      · omega
      · exact hopencl.1 hkept hbug
    · intro h
      have hbug : ¬(v.minor = 2 ∧ w.minor = 2 ∧ v.bug = 50 ∧ 50 < w.bug) := fun hbug =>
        h (.inr ⟨hmajor, hbug⟩)
      exact ⟨hv2, hsame 14, hsame 20, hopencl.2 hbug, hzero⟩

/-- Version 0.2.50 has opencl, and 0.2.51 does not. -/
theorem not_consistent : ¬∀ v w : Version, v ≤ w → v.Consistent w := by
  intro h
  have hbugs := (h ⟨0, 2, 50⟩ ⟨0, 2, 51⟩ (by decide)).1 useOpenclGraval (by simp [gates])
  rw [passes_useOpenclGraval, passes_useOpenclGraval] at hbugs
  exact absurd (hbugs (by decide)) (by decide)

/-- The gates of 0.2.30 hold of 0.3.0. -/
theorem consistent_iff_minor : (⟨0, 2, 30⟩ : Version) ≤ ⟨0, 3, 0⟩ ∧
    ((⟨0, 2, 30⟩ : Version).Consistent ⟨0, 3, 0⟩ ↔ ¬(⟨0, 2, 30⟩ : Version).Falls ⟨0, 3, 0⟩) :=
  ⟨by decide, consistent_iff (by decide)⟩

end Version

end ChutesVersion

end ChutesApi
