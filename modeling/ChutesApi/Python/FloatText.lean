import ChutesApi.Python.Double
import ChutesApi.Python.Exc
import ChutesApi.Python.Str
import Mathlib.Data.List.TakeWhile
/-!
# The text of a float

`float` reads a decimal number and takes the float next to it; `str` writes
the shortest decimal number that is read as the float. `float_str` is the
round trip. A text that is written or read has no brace.
-/

namespace ChutesApi

namespace Python

namespace FloatText

/-! ## Reading -/

/-- Digits, where an underscore may stand between two of them. -/
def readDigits (cs : List Char) : Option (List Char) :=
  let parts := cs.splitOn '_'
  if parts.all fun part => part ≠ [] && part.all isDecimal then some parts.flatten else none

/-- Whether a sign in front is a minus, and what follows it. -/
def readSign : List Char → Bool × List Char
  | '-' :: cs => (true, cs)
  | '+' :: cs => (false, cs)
  | cs => (false, cs)

/-- The digits on one side of the point, where there may be none. -/
def readSide (cs : List Char) : Option (List Char) := if cs = [] then some [] else readDigits cs

/-- The digits as a number, and how many of them are behind the point. -/
def readMantissa (cs : List Char) : Option (ℕ × ℕ) :=
  let whole := cs.takeWhile (· != '.')
  match cs.dropWhile (· != '.') with
  | [] => (readDigits whole).map fun digits => (Nat.ofDigitChars 10 digits 0, 0)
  | _ :: fraction =>
    if whole = [] ∧ fraction = [] then none
    else do
      let before ← readSide whole
      let behind ← readSide fraction
      return (Nat.ofDigitChars 10 (before ++ behind) 0, behind.length)

/-- The exponent, where the letter is in front of it. -/
def readExponent : List Char → Option ℤ
  | [] => some 0
  | _ :: cs => do
    let (negative, cs) := readSign cs
    let digits ← readDigits cs
    let n : ℤ := Nat.ofDigitChars 10 digits 0
    return if negative then -n else n

def isExponent (c : Char) : Bool := c = 'e' || c = 'E'

def readDecimal (cs : List Char) : Option ℚ := do
  let (n, places) ← readMantissa (cs.takeWhile (!isExponent ·))
  let exponent ← readExponent (cs.dropWhile (!isExponent ·))
  return n * 10 ^ (exponent - places)

/-! ## Writing -/

/-- Where the decimal point is, counted from the first digit. -/
def decimalPoint (x : ℚ) : ℤ := Int.log 10 x + 1

/-- The two numbers of so many digits around `x`, the one next to it first. -/
def candidates (x : ℚ) (digits : ℕ) : List ℕ :=
  let scaled := x * 10 ^ (digits - decimalPoint x)
  let low := ⌊scaled⌋₊
  if scaled - low < 1 / 2 ∨ (scaled - low = 1 / 2 ∧ low % 2 = 0) then [low, low + 1]
  else [low + 1, low]

/-- The one that is read as `x`. -/
def roundTo (x : ℚ) (digits : ℕ) : Option ℕ :=
  (candidates x digits).find? fun c => nearest (c * 10 ^ (decimalPoint x - digits)) = .finite x

/-- **The shortest decimal number that is read as `x`**: its digits, and the
exponent of the last of them. -/
def shortest (x : ℚ) (h : ∃ digits, (roundTo x digits).isSome) : ℕ × ℤ :=
  let c := (roundTo x (Nat.find h)).get (Nat.find_spec h)
  if c = 10 ^ Nat.find h then (1, decimalPoint x) else (c, decimalPoint x - Nat.find h)

/-- The digits of a number in front of an exponent, the first of them in
front of the point. -/
def scientific : List Char → List Char
  | d :: d' :: ds => d :: '.' :: d' :: ds
  | ds => ds

/-- A number in two digits at least. -/
def twoDigits (n : ℕ) : List Char :=
  let ds := Nat.toDigits 10 n
  if ds.length < 2 then '0' :: ds else ds

def writeExponent (k : ℤ) : List Char := (if k < 0 then '-' else '+') :: twoDigits k.natAbs

/-- `repr` of `c * 10 ^ e`. -/
def writeDecimal (c : ℕ) (e : ℤ) : List Char :=
  let ds := Nat.toDigits 10 c
  let point := e + ds.length
  if point ≤ -4 ∨ 16 < point then scientific ds ++ 'e' :: writeExponent (point - 1)
  else if point ≤ 0 then '0' :: '.' :: (List.replicate (-point).toNat '0' ++ ds)
  else if point < ds.length then ds.take point.toNat ++ '.' :: ds.drop point.toNat
  else ds ++ List.replicate (point - ds.length).toNat '0' ++ ['.', '0']

/-- In front of the digits. -/
def writeSign (q : ℚ) : List Char := if q < 0 then ['-'] else []

/-! ## What is read -/

variable {cs ds : List Char} {x q : ℚ} {c : Char} {e : ℤ}

theorem readDigits_eq_self (hds : ds.all isDecimal) (hne : ds ≠ []) : readDigits ds = some ds := by
  have hmem : '_' ∉ ds := fun h => absurd (List.all_eq_true.1 hds '_' h) (by decide)
  simp [readDigits, List.splitOn_eq_singleton hmem, hds, hne]

theorem mem_of_mem_intercalate {sep : Char} {parts : List (List Char)}
    (h : c ∈ [sep].intercalate parts) : c = sep ∨ ∃ part ∈ parts, c ∈ part := by
  induction parts with
  | nil => simp at h
  | cons part parts ih =>
    cases parts with
    | nil => exact .inr ⟨part, List.mem_cons_self, by simpa using h⟩
    | cons part' parts =>
      rw [List.intercalate_cons_cons, List.mem_append, List.mem_append, List.mem_singleton] at h
      rcases h with (h | h) | h
      · exact .inr ⟨part, List.mem_cons_self, h⟩
      · exact .inl h
      · rcases ih h with h | ⟨l, hl, h⟩
        · exact .inl h
        · exact .inr ⟨l, List.mem_cons_of_mem part hl, h⟩

/-- A character of a decimal number. -/
def isNumeric (c : Char) : Bool :=
  isDecimal c || c = '_' || c = '.' || c = '+' || c = '-' || isExponent c

theorem mem_of_readDigits (h : readDigits cs = some ds) (hc : c ∈ cs) : isNumeric c := by
  simp only [readDigits, Option.ite_none_right_eq_some] at h
  have hcs : ['_'].intercalate (cs.splitOn '_') = cs := List.intercalate_splitOn '_'
  rw [← hcs] at hc
  rcases mem_of_mem_intercalate hc with rfl | ⟨part, hpart, hc⟩
  · decide
  · have hall := List.all_eq_true.1 h.1 part hpart
    rw [Bool.and_eq_true, List.all_eq_true] at hall
    simp [isNumeric, hall.2 c hc]

theorem mem_of_readSign (hc : c ∈ cs) : isNumeric c ∨ c ∈ (readSign cs).2 := by
  unfold readSign
  split
  · rcases List.mem_cons.1 hc with rfl | hc
    · exact .inl (by decide)
    · exact .inr hc
  · rcases List.mem_cons.1 hc with rfl | hc
    · exact .inl (by decide)
    · exact .inr hc
  · exact .inr hc

theorem mem_of_readExponent {first : Char} (h : readExponent (first :: cs) = some e) (hc : c ∈ cs) :
    isNumeric c := by
  simp only [readExponent, Option.bind_eq_bind, Option.bind_eq_some_iff] at h
  obtain ⟨ds, hds, -⟩ := h
  exact (mem_of_readSign hc).elim id (mem_of_readDigits hds)

theorem mem_of_readSide (h : readSide cs = some ds) (hc : c ∈ cs) : isNumeric c := by
  rw [readSide, if_neg (List.ne_nil_of_mem hc)] at h
  exact mem_of_readDigits h hc

theorem mem_of_readMantissa {n : ℕ × ℕ} (h : readMantissa cs = some n) (hc : c ∈ cs) :
    isNumeric c := by
  rw [← List.takeWhile_append_dropWhile (p := fun c => c != '.') (l := cs), List.mem_append] at hc
  unfold readMantissa at h
  dsimp only at h
  split at h
  case h_1 hrest =>
    rw [hrest] at hc
    obtain ⟨before, hbefore, -⟩ := Option.map_eq_some_iff.1 h
    exact mem_of_readDigits hbefore (hc.resolve_right List.not_mem_nil)
  case h_2 point _ hrest =>
    simp only [Option.ite_none_left_eq_some, Option.bind_eq_bind, Option.bind_eq_some_iff] at h
    obtain ⟨-, before, hbefore, behind, hbehind, -⟩ := h
    rw [hrest, List.mem_cons] at hc
    rcases hc with hc | rfl | hc
    · exact mem_of_readSide hbefore hc
    · have hpoint := List.head?_dropWhile_not ((· != '.')) cs
      rw [hrest] at hpoint
      have : c = '.' := by simpa using hpoint
      subst this
      decide
    · exact mem_of_readSide hbehind hc

theorem mem_of_readDecimal (h : readDecimal cs = some q) (hc : c ∈ cs) : isNumeric c := by
  rw [← List.takeWhile_append_dropWhile (p := fun c => !isExponent c) (l := cs),
    List.mem_append] at hc
  simp only [readDecimal, Option.bind_eq_bind, Option.bind_eq_some_iff] at h
  obtain ⟨n, hn, e, he, -⟩ := h
  rcases hc with hc | hc
  · exact mem_of_readMantissa hn hc
  · rcases hrest : cs.dropWhile (!isExponent ·) with _ | ⟨letter, rest⟩
    · rw [hrest] at hc
      cases hc
    · rw [hrest] at hc he
      rcases List.mem_cons.1 hc with rfl | hc
      · have hletter := List.head?_dropWhile_not (!isExponent ·) cs
        rw [hrest] at hletter
        have : isExponent c := by simpa using hletter
        simp [isNumeric, this]
      · exact mem_of_readExponent he hc

/-! ## What is written -/

theorem isDecimal_of_mem_toDigits {n : ℕ} (hc : c ∈ Nat.toDigits 10 n) : isDecimal c :=
  isDecimal_of_mem_repr (n := n) (by simpa [Nat.repr] using hc)

theorem all_toDigits (n : ℕ) : (Nat.toDigits 10 n).all isDecimal :=
  List.all_eq_true.2 fun _ => isDecimal_of_mem_toDigits

/-- A side of the point is read as it was written. -/
theorem readSide_eq_self (hds : ds.all isDecimal) : readSide ds = some ds := by
  unfold readSide
  split
  case isTrue h => rw [h]
  case isFalse h => exact readDigits_eq_self hds h

theorem takeWhile_append_cons {p : Char → Bool} {a b : List Char} (ha : ∀ c ∈ a, p c)
    (hc : p c = false) : (a ++ c :: b).takeWhile p = a := by
  rw [List.takeWhile_append_of_pos ha]
  simp [hc]

theorem dropWhile_append_cons {p : Char → Bool} {a b : List Char} (ha : ∀ c ∈ a, p c)
    (hc : p c = false) : (a ++ c :: b).dropWhile p = c :: b := by
  rw [List.dropWhile_append_of_pos ha]
  simp [hc]

theorem ne_point_of_isDecimal (hc : isDecimal c) : c ≠ '.' := by
  rintro rfl
  exact absurd hc (by decide)

/-- A number with a point. -/
theorem readMantissa_point {before behind : List Char} (hbefore : before.all isDecimal)
    (hbehind : behind.all isDecimal) (hne : before ≠ []) :
    readMantissa (before ++ '.' :: behind) =
      some (Nat.ofDigitChars 10 (before ++ behind) 0, behind.length) := by
  have hpoint : ∀ c ∈ before, c != '.' := fun c hc =>
    bne_iff_ne.2 (ne_point_of_isDecimal (List.all_eq_true.1 hbefore c hc))
  have hwhole := takeWhile_append_cons (b := behind) hpoint (c := '.') (by decide)
  have hrest := dropWhile_append_cons (b := behind) hpoint (c := '.') (by decide)
  simp [readMantissa, hwhole, hrest, hne, readSide_eq_self hbefore, readSide_eq_self hbehind]

/-- A number without a point. -/
theorem readMantissa_digits (hds : ds.all isDecimal) (hne : ds ≠ []) :
    readMantissa ds = some (Nat.ofDigitChars 10 ds 0, 0) := by
  have hpoint : ∀ c ∈ ds, c != '.' := fun c hc =>
    bne_iff_ne.2 (ne_point_of_isDecimal (List.all_eq_true.1 hds c hc))
  have hwhole : ds.takeWhile (· != '.') = ds := List.takeWhile_eq_self_iff.2 hpoint
  have hrest : ds.dropWhile (· != '.') = [] := List.dropWhile_eq_nil_iff.2 hpoint
  simp [readMantissa, hwhole, hrest, readDigits_eq_self hds hne]

theorem all_twoDigits (n : ℕ) : (twoDigits n).all isDecimal := by
  unfold twoDigits
  dsimp only
  split
  · rw [List.all_cons, all_toDigits]
    decide
  · exact all_toDigits n

theorem twoDigits_ne_nil (n : ℕ) : twoDigits n ≠ [] := by
  unfold twoDigits
  dsimp only
  split
  · exact List.cons_ne_nil _ _
  · exact Nat.toDigits_ne_nil

theorem ofDigitChars_twoDigits (n : ℕ) : Nat.ofDigitChars 10 (twoDigits n) 0 = n := by
  unfold twoDigits
  dsimp only
  split
  · simp [Nat.ofDigitChars_cons]
  · exact Nat.ofDigitChars_ten_toDigits

theorem readExponent_writeExponent (k : ℤ) : readExponent ('e' :: writeExponent k) = some k := by
  have hsign : readSign (writeExponent k) = (decide (k < 0), twoDigits k.natAbs) := by
    unfold writeExponent
    split
    case isTrue h => simp [readSign, h]
    case isFalse h => simp [readSign, h]
  have hdigits := readDigits_eq_self (all_twoDigits k.natAbs) (twoDigits_ne_nil _)
  simp only [readExponent, hsign, hdigits, ofDigitChars_twoDigits, Option.bind_eq_bind,
    Option.bind_some, Option.pure_def, decide_eq_true_eq, Option.some.injEq]
  omega

theorem readMantissa_scientific (hds : ds.all isDecimal) (hne : ds ≠ []) :
    readMantissa (scientific ds) = some (Nat.ofDigitChars 10 ds 0, ds.length - 1) := by
  match ds, hne with
  | [d], hne => exact readMantissa_digits hds hne
  | d :: d' :: ds, _ =>
    have hall : [d].all isDecimal ∧ (d' :: ds).all isDecimal := by
      simpa [List.all_cons] using hds
    exact readMantissa_point hall.1 hall.2 (List.cons_ne_nil d [])

/-- The letter of an exponent is not in front of it. -/
theorem not_isExponent_of_isDecimal (hc : isDecimal c) : !isExponent c := by
  rw [isExponent, Bool.not_eq_true', Bool.or_eq_false_iff, decide_eq_false_iff_not,
    decide_eq_false_iff_not]
  constructor
  all_goals
    rintro rfl
    exact absurd hc (by decide)

theorem readDecimal_exponent {n : ℕ × ℕ} {letter : Char} {rest : List Char}
    (hcs : ∀ c ∈ cs, !isExponent c) (hletter : isExponent letter)
    (hn : readMantissa cs = some n) (he : readExponent (letter :: rest) = some e) :
    readDecimal (cs ++ letter :: rest) = some ((n.1 : ℚ) * 10 ^ (e - n.2)) := by
  have hbefore := takeWhile_append_cons (b := rest) hcs (c := letter) (by simp [hletter])
  have hbehind := dropWhile_append_cons (b := rest) hcs (c := letter) (by simp [hletter])
  simp [readDecimal, hbefore, hbehind, hn, he]

theorem readDecimal_mantissa {n : ℕ × ℕ} (hcs : ∀ c ∈ cs, !isExponent c)
    (hn : readMantissa cs = some n) : readDecimal cs = some ((n.1 : ℚ) * 10 ^ (-n.2 : ℤ)) := by
  have hbefore : cs.takeWhile (!isExponent ·) = cs := List.takeWhile_eq_self_iff.2 hcs
  have hbehind : cs.dropWhile (!isExponent ·) = [] := List.dropWhile_eq_nil_iff.2 hcs
  simp [readDecimal, hbefore, hbehind, hn, readExponent]

theorem readDecimal_point {before behind : List Char} (hbefore : before.all isDecimal)
    (hbehind : behind.all isDecimal) (hne : before ≠ []) :
    readDecimal (before ++ '.' :: behind) =
      some ((Nat.ofDigitChars 10 (before ++ behind) 0 : ℚ) * 10 ^ (-behind.length : ℤ)) := by
  refine readDecimal_mantissa (fun c hc => ?_) (readMantissa_point hbefore hbehind hne)
  rcases List.mem_append.1 hc with hc | hc
  · exact not_isExponent_of_isDecimal (List.all_eq_true.1 hbefore c hc)
  · rcases List.mem_cons.1 hc with rfl | hc
    · decide
    · exact not_isExponent_of_isDecimal (List.all_eq_true.1 hbehind c hc)

theorem mem_of_mem_scientific (hc : c ∈ scientific ds) : c ∈ ds ∨ c = '.' := by
  unfold scientific at hc
  split at hc
  · simp only [List.mem_cons] at hc ⊢
    tauto
  · exact .inl hc

theorem all_replicate_zero (k : ℕ) : (List.replicate k '0').all isDecimal := by
  rw [List.all_replicate]
  simp [isDecimal]

/-- The digits are behind the point. -/
theorem readDecimal_behind (hds : ds.all isDecimal) (k : ℕ) :
    readDecimal ('0' :: '.' :: (List.replicate k '0' ++ ds)) =
      some ((Nat.ofDigitChars 10 ds 0 : ℚ) * 10 ^ (-(k + ds.length : ℕ) : ℤ)) := by
  have hbehind : (List.replicate k '0' ++ ds).all isDecimal := by
    rw [List.all_append, all_replicate_zero, hds]
    rfl
  have hzero : ['0'].all isDecimal := by decide
  have hread := readDecimal_point hzero hbehind (List.cons_ne_nil _ _)
  rw [List.singleton_append, List.singleton_append, Nat.ofDigitChars_cons,
    Nat.ofDigitChars_append, Nat.ofDigitChars_replicate_zero, List.length_append,
    List.length_replicate] at hread
  exact hread

/-- The point is between the digits. -/
theorem readDecimal_between (hds : ds.all isDecimal) (hne : ds ≠ []) {k : ℕ} (hk : k ≠ 0) :
    readDecimal (ds.take k ++ '.' :: ds.drop k) =
      some ((Nat.ofDigitChars 10 ds 0 : ℚ) * 10 ^ (-(ds.length - k : ℕ) : ℤ)) := by
  have hbefore : (ds.take k).all isDecimal :=
    List.all_eq_true.2 fun c hc => List.all_eq_true.1 hds c (List.mem_of_mem_take hc)
  have hbehind : (ds.drop k).all isDecimal :=
    List.all_eq_true.2 fun c hc => List.all_eq_true.1 hds c (List.mem_of_mem_drop hc)
  have hsome : ds.take k ≠ [] := by
    rw [Ne, List.take_eq_nil_iff]
    exact not_or.2 ⟨hk, hne⟩
  rw [readDecimal_point hbefore hbehind hsome, List.take_append_drop, List.length_drop]

/-- The digits are in front of the point. -/
theorem readDecimal_front (hds : ds.all isDecimal) (hne : ds ≠ []) (k : ℕ) :
    readDecimal (ds ++ List.replicate k '0' ++ ['.', '0']) =
      some ((Nat.ofDigitChars 10 ds 0 : ℚ) * 10 ^ (k : ℤ)) := by
  have hbefore : (ds ++ List.replicate k '0').all isDecimal := by
    rw [List.all_append, all_replicate_zero, hds]
    rfl
  have hzero : ['0'].all isDecimal := by decide
  have hread := readDecimal_point hbefore hzero
    (List.append_ne_nil_of_left_ne_nil hne _)
  have hvalue : Nat.ofDigitChars 10 (ds ++ List.replicate k '0' ++ ['0']) 0 =
      10 * (10 ^ k * Nat.ofDigitChars 10 ds 0) := by
    rw [Nat.ofDigitChars_append, Nat.ofDigitChars_append, Nat.ofDigitChars_replicate_zero,
      Nat.ofDigitChars_cons, Nat.ofDigitChars_nil]
    rfl
  rw [hread, hvalue, Option.some.injEq]
  push_cast
  rw [List.length_singleton, Nat.cast_one, zpow_neg_one, zpow_natCast]
  ring

/-- **A decimal number is read as it was written.** -/
theorem readDecimal_writeDecimal (n : ℕ) (e : ℤ) :
    readDecimal (writeDecimal n e) = some ((n : ℚ) * 10 ^ e) := by
  have hds := all_toDigits n
  have hne : Nat.toDigits 10 n ≠ [] := Nat.toDigits_ne_nil
  have hn : Nat.ofDigitChars 10 (Nat.toDigits 10 n) 0 = n := Nat.ofDigitChars_ten_toDigits
  have hlength : 0 < (Nat.toDigits 10 n).length := List.length_pos_iff.2 hne
  unfold writeDecimal
  generalize Nat.toDigits 10 n = ds at hds hne hn hlength
  dsimp only
  split
  · have hcs : ∀ c ∈ scientific ds, !isExponent c := fun c hc => by
      rcases mem_of_mem_scientific hc with hc | rfl
      · exact not_isExponent_of_isDecimal (List.all_eq_true.1 hds c hc)
      · decide
    rw [readDecimal_exponent hcs (by decide) (readMantissa_scientific hds hne)
      (readExponent_writeExponent _), hn]
    congr 3
    omega
  split
  · rw [readDecimal_behind hds, hn]
    congr 3
    omega
  split
  · rw [readDecimal_between hds hne (by omega), hn]
    congr 3
    omega
  · rw [readDecimal_front hds hne, hn]
    congr 3
    omega

/-! ## The shortest number -/

/-- A float has finitely many digits behind the point. -/
theorem exists_mul_pow_eq (h : Representable x) (hpos : 0 < x) :
    ∃ k₀ : ℕ, ∀ k ≥ k₀, ∃ n : ℕ, x * 10 ^ k = n := by
  obtain ⟨-, m, e, -, -, hx⟩ := h
  refine ⟨(-e).toNat, fun k hk => ?_⟩
  obtain ⟨j, hj⟩ := Int.eq_ofNat_of_zero_le (show 0 ≤ e + k by omega)
  have hint : x * 10 ^ k = (m * 2 ^ j * 5 ^ k : ℤ) := by
    have hten : (10 : ℚ) ^ k = 2 ^ (k : ℤ) * 5 ^ k := by
      rw [zpow_natCast, ← mul_pow]
      norm_num
    calc x * 10 ^ k = m * (2 ^ e * 2 ^ (k : ℤ)) * 5 ^ k := by rw [hx, hten]; ring
      _ = m * 2 ^ j * 5 ^ k := by rw [← zpow_add₀ two_ne_zero, hj, zpow_natCast]
      _ = (m * 2 ^ j * 5 ^ k : ℤ) := by push_cast; rfl
  have hnonneg : (0 : ℚ) ≤ (m * 2 ^ j * 5 ^ k : ℤ) := hint ▸ by positivity
  obtain ⟨n, hn⟩ := Int.eq_ofNat_of_zero_le (Int.cast_nonneg_iff.1 hnonneg)
  exact ⟨n, by rw [hint, hn]; rfl⟩

/-- **With enough digits a float is written out.** -/
theorem exists_roundTo (h : Representable x) (hpos : 0 < x) :
    ∃ digits, (roundTo x digits).isSome := by
  obtain ⟨k₀, hk₀⟩ := exists_mul_pow_eq h hpos
  let k := (decimalPoint x).toNat - decimalPoint x + k₀
  obtain ⟨j, hj⟩ := Int.eq_ofNat_of_zero_le (show 0 ≤ k by omega)
  obtain ⟨n, hn⟩ := hk₀ j (by omega)
  refine ⟨(decimalPoint x).toNat + k₀, ?_⟩
  have hscaled : x * 10 ^ (((decimalPoint x).toNat + k₀ : ℕ) - decimalPoint x) = n := by
    rw [← hn, ← zpow_natCast]
    congr 2
    omega
  have hback : (n : ℚ) * 10 ^ (decimalPoint x - ((decimalPoint x).toNat + k₀ : ℕ)) = x := by
    rw [← hscaled, mul_assoc, ← zpow_add₀ (by norm_num)]
    simp
  have hcandidates : candidates x ((decimalPoint x).toNat + k₀) = [n, n + 1] := by
    rw [candidates, hscaled]
    simp
  rw [roundTo, hcandidates, List.find?_cons_of_pos]
  · rfl
  · rw [hback]
    exact decide_eq_true (nearest_of_representable h)

theorem nearest_shortest (h : ∃ digits, (roundTo x digits).isSome) :
    nearest ((shortest x h).1 * 10 ^ (shortest x h).2) = .finite x := by
  have hread : nearest (((roundTo x (Nat.find h)).get (Nat.find_spec h) : ℚ) *
      10 ^ (decimalPoint x - Nat.find h)) = .finite x := by
    have hc := List.find?_some (Option.some_get (Nat.find_spec h)).symm
    exact of_decide_eq_true hc
  unfold shortest
  dsimp only
  split
  case isTrue hten =>
    rw [hten, Nat.cast_pow, Nat.cast_ofNat, ← zpow_natCast, ← zpow_add₀ (by norm_num),
      add_sub_cancel] at hread
    rw [Nat.cast_one, one_mul]
    exact hread
  case isFalse => exact hread

/-- A number starts with a digit. -/
theorem writeDecimal_head (n : ℕ) (e : ℤ) :
    ∃ d cs, writeDecimal n e = d :: cs ∧ isDecimal d := by
  have hds := all_toDigits n
  have hne : Nat.toDigits 10 n ≠ [] := Nat.toDigits_ne_nil
  unfold writeDecimal
  generalize Nat.toDigits 10 n = ds at hds hne
  obtain ⟨d, ds, rfl⟩ := List.exists_cons_of_ne_nil hne
  have hd : isDecimal d := List.all_eq_true.1 hds d List.mem_cons_self
  dsimp only
  split
  · cases ds with
    | nil => exact ⟨d, _, rfl, hd⟩
    | cons d' ds => exact ⟨d, _, rfl, hd⟩
  split
  · exact ⟨'0', _, rfl, by decide⟩
  split
  · obtain ⟨k, hk⟩ := Nat.exists_eq_succ_of_ne_zero
      (show (e + ((d :: ds).length : ℕ)).toNat ≠ 0 by omega)
    rw [hk]
    exact ⟨d, _, rfl, hd⟩
  · exact ⟨d, _, rfl, hd⟩

theorem not_isSpace_of_isNumeric (hc : isNumeric c) : isSpace c = false := by
  rw [← Bool.not_eq_true]
  intro hspace
  simp only [isNumeric, isDecimal, isExponent, Bool.or_eq_true, Bool.and_eq_true,
    decide_eq_true_eq] at hc
  rcases hc with ((((⟨hge, hle⟩ | rfl) | rfl) | rfl) | rfl) | rfl | rfl
  · have hge : 48 ≤ c.toNat := hge
    have hle : c.toNat ≤ 57 := hle
    simp only [isSpace, Bool.or_eq_true, Bool.and_eq_true, decide_eq_true_eq] at hspace
    omega
  all_goals exact absurd hspace (by decide)

end FloatText

open FloatText

/-! ## The round trip -/

/-- `float(s)`, of a text whose digits are ASCII. -/
def float (s : String) : Except PyError PyFloat :=
  let (negative, cs) := readSign (strip s).toList
  if cs.map Char.toLower ∈ ["inf".toList, "infinity".toList] then
    .ok (if negative then .negInf else .inf)
  else if cs.map Char.toLower = "nan".toList then .ok .nan
  else
    match readDecimal cs with
    | some q => .ok (if negative then (nearest q).neg else nearest q)
    | none => .error .valueError

theorem Double.exists_roundTo {q : ℚ} (h : PyFloat.IsDouble (.finite q)) (hq : q ≠ 0) :
    ∃ digits, (roundTo |q| digits).isSome :=
  FloatText.exists_roundTo h.abs (abs_pos.2 hq)

/-- `str(x)`. -/
def Double.str : Double → String
  | ⟨.nan, _⟩ => "nan"
  | ⟨.inf, _⟩ => "inf"
  | ⟨.negInf, _⟩ => "-inf"
  | ⟨.finite q, h⟩ =>
    if hq : q = 0 then "0.0"
    else
      let (c, e) := shortest |q| (exists_roundTo h hq)
      .ofList (writeSign q ++ writeDecimal c e)

/-- A text without spaces is its own. -/
theorem strip_eq_self {s : String} (h : ∀ c ∈ s.toList, isSpace c = false) : strip s = s := by
  have hdrop : ∀ cs : List Char, (∀ c ∈ cs, isSpace c = false) → cs.dropWhile isSpace = cs := by
    intro cs hcs
    cases cs with
    | nil => rfl
    | cons c cs => rw [List.dropWhile_cons_of_neg (by simp [hcs c List.mem_cons_self])]
  rw [strip, hdrop _ h, hdrop _ fun c hc => h c (List.mem_reverse.1 hc), List.reverse_reverse,
    String.ofList_toList]

/-- Only spaces are stripped. -/
theorem mem_strip {s : String} {c : Char} (hc : c ∈ s.toList) (hspace : isSpace c = false) :
    c ∈ (strip s).toList := by
  have hdrop : ∀ cs : List Char, c ∈ cs → c ∈ cs.dropWhile isSpace := by
    intro cs hcs
    rw [← List.takeWhile_append_dropWhile (p := isSpace) (l := cs), List.mem_append] at hcs
    refine hcs.resolve_left fun htake => ?_
    rw [List.mem_takeWhile_imp htake] at hspace
    cases hspace
  rw [strip, String.toList_ofList, List.mem_reverse]
  exact hdrop _ (List.mem_reverse.2 (hdrop _ hc))

/-- **A text with a brace is no float.** -/
theorem brace_notMem_of_float {s : String} {x : PyFloat} (h : float s = .ok x) :
    '{' ∉ s.toList := by
  intro hbrace
  have hrest : '{' ∈ (readSign (strip s).toList).2 :=
    (mem_of_readSign (mem_strip hbrace (by decide))).resolve_left (by decide)
  have hlower : '{' ∈ (readSign (strip s).toList).2.map Char.toLower :=
    List.mem_map.2 ⟨'{', hrest, by decide⟩
  unfold float at h
  dsimp only at h
  split at h
  case isTrue hword =>
    simp only [List.mem_cons, List.not_mem_nil, or_false] at hword
    rcases hword with hword | hword
    all_goals
      rw [hword] at hlower
      exact absurd hlower (by decide)
  split at h
  case isTrue hword =>
    rw [hword] at hlower
    exact absurd hlower (by decide)
  split at h
  case h_1 q hq => exact absurd (mem_of_readDecimal hq hrest) (by decide)
  case h_2 => cases h

theorem toLower_of_isDecimal {d : Char} (hd : isDecimal d) : d.toLower = d := by
  simp only [isDecimal, Bool.and_eq_true, decide_eq_true_eq] at hd
  have hle : d.toNat ≤ 57 := hd.2
  unfold Char.toLower
  rw [dif_neg]
  rintro ⟨hge, -⟩
  have hge : 65 ≤ d.toNat := hge
  omega

/-- A text of a sign and a number. -/
theorem float_eq_nearest {s : String} {negative : Bool} {d : Char} {cs : List Char} {q : ℚ}
    (hs : ∀ c ∈ s.toList, isNumeric c) (hsign : readSign s.toList = (negative, d :: cs))
    (hd : isDecimal d) (hq : readDecimal (d :: cs) = some q) :
    float s = .ok (if negative then (nearest q).neg else nearest q) := by
  unfold float
  rw [strip_eq_self fun c hc => not_isSpace_of_isNumeric (hs c hc), hsign]
  dsimp only
  rw [List.map_cons, toLower_of_isDecimal hd, if_neg, if_neg, hq]
  · intro hword
    obtain ⟨rfl, -⟩ := List.cons.inj (hword.trans rfl)
    exact absurd hd (by decide)
  · intro hword
    simp only [List.mem_cons, List.not_mem_nil, or_false] at hword
    rcases hword with hword | hword
    all_goals
      obtain ⟨rfl, -⟩ := List.cons.inj (hword.trans rfl)
      exact absurd hd (by decide)

theorem readSign_of_isDecimal {d : Char} {cs : List Char} (hd : isDecimal d) :
    readSign (d :: cs) = (false, d :: cs) := by
  unfold readSign
  split
  case h_1 heq =>
    obtain ⟨rfl, -⟩ := List.cons.inj heq
    exact absurd hd (by decide)
  case h_2 heq =>
    obtain ⟨rfl, -⟩ := List.cons.inj heq
    exact absurd hd (by decide)
  case h_3 => rfl

/-- A sign does not change which characters there are. -/
theorem isNumeric_writeSign {q : ℚ} {cs : List Char} (hcs : ∀ c ∈ cs, isNumeric c) :
    ∀ c ∈ writeSign q ++ cs, isNumeric c := by
  intro c hc
  rcases List.mem_append.1 hc with hc | hc
  · unfold writeSign at hc
    split at hc
    · rw [List.mem_singleton.1 hc]
      decide
    · cases hc
  · exact hcs c hc

/-- A number with its sign in front. -/
theorem float_writeSign (q : ℚ) {d : Char} {cs : List Char} {r : ℚ} (hd : isDecimal d)
    (hread : readDecimal (d :: cs) = some r) :
    float (.ofList (writeSign q ++ d :: cs)) =
      .ok (if q < 0 then (nearest r).neg else nearest r) := by
  have hchars : ∀ c ∈ (String.ofList (writeSign q ++ d :: cs)).toList, isNumeric c := by
    rw [String.toList_ofList]
    exact isNumeric_writeSign fun c => mem_of_readDecimal hread
  have hsign : readSign (String.ofList (writeSign q ++ d :: cs)).toList =
      (decide (q < 0), d :: cs) := by
    rw [String.toList_ofList, writeSign]
    split
    case isTrue h => simp [readSign, h]
    case isFalse h => simp [readSign_of_isDecimal hd, h]
  rw [float_eq_nearest hchars hsign hd hread]
  simp only [decide_eq_true_eq]

theorem float_writeDecimal (q : ℚ) (n : ℕ) (e : ℤ) :
    float (.ofList (writeSign q ++ writeDecimal n e)) =
      .ok (if q < 0 then (nearest (n * 10 ^ e)).neg else nearest (n * 10 ^ e)) := by
  obtain ⟨d, cs, hcs, hd⟩ := writeDecimal_head n e
  rw [hcs]
  exact float_writeSign q hd (hcs ▸ readDecimal_writeDecimal n e)

/-- A float has its sign back. -/
theorem signed_abs {q : ℚ} {x : PyFloat} (hx : x = .finite |q|) :
    (if q < 0 then x.neg else x) = .finite q := by
  subst hx
  split
  case isTrue h => rw [PyFloat.neg, abs_of_neg h, neg_neg]
  case isFalse h => rw [abs_of_nonneg (not_lt.1 h)]

theorem text_zero : "0.0" = String.ofList (writeSign 0 ++ writeDecimal 0 0) := by
  decide

/-- **A float is read as it was written.** -/
theorem float_str (x : Double) : float x.str = .ok x.value := by
  rcases x with ⟨q | _ | _ | _, h⟩
  · rw [Double.str]
    split
    case isTrue hzero =>
      subst hzero
      have hnearest := nearest_of_representable h
      rw [text_zero, float_writeDecimal, if_neg (lt_irrefl 0)]
      simpa using hnearest
    case isFalse hne =>
      rw [float_writeDecimal, signed_abs (nearest_shortest (Double.exists_roundTo h hne))]
  · simp [float, Double.str, strip, readSign, isSpace]
  · simp [float, Double.str, strip, readSign, isSpace]
  · simp [float, Double.str, strip, readSign, isSpace]

/-- The text of a finite float is that of a number. -/
theorem isNumeric_str {x : Double} {q : ℚ} (hx : x.value = .finite q) :
    ∀ c ∈ x.str.toList, isNumeric c := by
  rcases x with ⟨q' | _ | _ | _, h⟩
  · rw [Double.str]
    split
    · rw [text_zero, String.toList_ofList]
      exact isNumeric_writeSign fun c => mem_of_readDecimal (readDecimal_writeDecimal _ _)
    · rw [String.toList_ofList]
      exact isNumeric_writeSign fun c => mem_of_readDecimal (readDecimal_writeDecimal _ _)
  all_goals cases hx

/-! ## Numbers -/

/-- An `int` that a `float` holds, or a `float`. -/
inductive Number
  | int (n : ℤ) (h : Representable n)
  | float (x : Double)

namespace Number

/-- What it is equal to. -/
def value : Number → PyFloat
  | int n _ => .finite n
  | float x => x.value

/-- `str(x)`. -/
def str : Number → String
  | int n _ => .ofList (writeSign n ++ Nat.toDigits 10 n.natAbs)
  | float x => x.str

/-- **A number is read, as a float, as it was written.** -/
theorem float_str (x : Number) : Python.float x.str = .ok x.value := by
  cases x with
  | float x => exact Python.float_str x
  | int n h =>
    have hds := all_toDigits n.natAbs
    have hne : Nat.toDigits 10 n.natAbs ≠ [] := Nat.toDigits_ne_nil
    have hcs : ∀ c ∈ Nat.toDigits 10 n.natAbs, !isExponent c := fun c hc =>
      not_isExponent_of_isDecimal (List.all_eq_true.1 hds c hc)
    have hread := readDecimal_mantissa hcs (readMantissa_digits hds hne)
    rw [Nat.ofDigitChars_ten_toDigits] at hread
    rw [str, value]
    generalize Nat.toDigits 10 n.natAbs = ds at hds hne hread
    obtain ⟨d, ds, rfl⟩ := List.exists_cons_of_ne_nil hne
    rw [float_writeSign n (List.all_eq_true.1 hds d List.mem_cons_self) hread]
    refine congrArg Except.ok (signed_abs ?_)
    have habs : (n.natAbs : ℚ) = |(n : ℚ)| := by
      rw [Nat.cast_natAbs, Int.cast_abs]
    simpa [habs] using nearest_of_representable h.abs

end Number

end Python

end ChutesApi
