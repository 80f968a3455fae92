import ChutesApi.Python.Exc
import ChutesApi.Python.Str
import ChutesApi.Python.Text
import Mathlib.Data.UInt
import Mathlib.Tactic.IntervalCases
/-!
# Bytes as text

`bytes.hex` and the encoder of `base64`, with their inverses. `b64decode` is
lenient, as `base64.b64decode` is without `validate`: bytes outside the
alphabet are passed over (`b64decode_filter`), and what follows the padding
is not read.
-/

namespace ChutesApi

namespace Python

/-- A value that is a `str` or `bytes`. -/
inductive Data
  | str (s : Text)
  | bytes (b : List UInt8)
  deriving DecidableEq

/-- `s.encode()`, as a list. -/
def Text.bytes (s : Text) : Except Exc (List UInt8) := (Text.encode s).map (·.data.toList)

/-- The bytes of a text without surrogates. -/
def utf8 (s : String) : List UInt8 := s.toByteArray.data.toList

/-- `b.decode()`. -/
def decodeUtf8 (b : List UInt8) : Except Exc String :=
  match String.fromUTF8? ⟨b.toArray⟩ with
  | some s => .ok s
  | none => .error (.raised .valueError)

/-- `bytes.fromhex(s)`. A surrogate is no digit. -/
def Text.fromHex (s : Text) : Except Exc (List UInt8) :=
  match Text.chars s with
  | some cs => (Python.fromHex (.ofList cs)).mapError fun _ => .raised .valueError
  | none => .error (.raised .valueError)

@[simp] theorem Text.chars_ofString (s : String) : Text.chars (Text.ofString s) = some s.toList :=
  Text.chars_eq_some.2 rfl

@[simp] theorem Text.fromHex_ofString (s : String) :
    Text.fromHex (Text.ofString s) =
      (Python.fromHex s).mapError fun _ => Exc.raised .valueError := by
  simp only [Text.fromHex, Text.chars_ofString, String.ofList_toList]

@[simp] theorem Text.bytes_ofString (s : String) : (Text.ofString s).bytes = .ok (utf8 s) := by
  have hencode : Text.encode (Text.ofString s) = .ok s.toByteArray := by
    rw [Text.encode_eq_ok]
    exact ⟨s.toList, rfl, by rw [String.ofList_toList]⟩
  rw [Text.bytes, hencode]
  rfl

/-- **Bytes are decoded to the text whose bytes they are.** -/
theorem decodeUtf8_eq_ok {b : List UInt8} {s : String} : decodeUtf8 b = .ok s ↔ utf8 s = b := by
  unfold decodeUtf8 String.fromUTF8?
  constructor
  · intro h
    split_ifs at h with hvalid
    obtain rfl := Except.ok.inj h
    rfl
  · rintro rfl
    have hvalid : ByteArray.IsValidUTF8 ⟨(utf8 s).toArray⟩ := s.isValidUTF8
    rw [dif_pos hvalid]
    rfl

/-- `x if isinstance(x, bytes) else x.encode()`. -/
def Data.encoded : Data → Except Exc (List UInt8)
  | .str s => s.bytes
  | .bytes b => .ok b

/-- `x if isinstance(x, bytes) else bytes.fromhex(x)`. -/
def Data.unhexed : Data → Except Exc (List UInt8)
  | .str s => s.fromHex
  | .bytes b => .ok b

/-! ## Text of ASCII -/

/-- The byte of a character of ASCII. -/
def asciiByte (c : Char) : UInt8 := c.val.toUInt8

/-- **A text of ASCII is encoded** character by character. -/
theorem utf8_of_ascii {s : String} (h : ∀ c ∈ s.toList, c.toNat < 128) :
    utf8 s = s.toList.map asciiByte := by
  have hutf : ∀ cs : List Char, (∀ c ∈ cs, c.toNat < 128) →
      cs.flatMap String.utf8EncodeChar = cs.map asciiByte := by
    intro cs hcs
    induction cs with
    | nil => rfl
    | cons c cs ih =>
      rw [List.forall_mem_cons] at hcs
      have hc : c.val.toNat ≤ 0x7f := Nat.le_of_lt_succ hcs.1
      rw [List.flatMap_cons, ih hcs.2, List.map_cons, String.utf8EncodeChar, if_pos hc]
      rfl
  rw [← hutf _ h, utf8]
  conv_lhs => rw [← String.ofList_toList (s := s)]
  rw [String.toByteArray_ofList, List.utf8Encode]
  simp

/-! ## Hexadecimal -/

/-- The two digits of a byte. -/
def hexByte (b : UInt8) : List Char := [(b.toNat / 16).digitChar, (b.toNat % 16).digitChar]

/-- `b.hex()`. -/
def hex (b : List UInt8) : String := .ofList (b.flatMap hexByte)

theorem digitChar_spec {n : ℕ} (h : n < 16) :
    hexValue n.digitChar = some n ∧ isHexSpace n.digitChar = false ∧ n.digitChar.toNat < 128 ∧
      n.digitChar ≠ ':' := by
  interval_cases n <;> decide

theorem of_mem_hex {b : List UInt8} {c : Char} (h : c ∈ (hex b).toList) :
    c.toNat < 128 ∧ c ≠ ':' := by
  rw [hex, String.toList_ofList, List.mem_flatMap] at h
  obtain ⟨x, -, hc⟩ := h
  have hx := x.toNat_lt
  have hhigh := digitChar_spec (n := x.toNat / 16) (by omega)
  have hlow := digitChar_spec (n := x.toNat % 16) (by omega)
  rw [hexByte, List.mem_cons, List.mem_singleton] at hc
  obtain rfl | rfl := hc
  · exact ⟨hhigh.2.2.1, hhigh.2.2.2⟩
  · exact ⟨hlow.2.2.1, hlow.2.2.2⟩

theorem length_hex (b : List UInt8) : (hex b).toList.length = 2 * b.length := by
  rw [hex, String.toList_ofList]
  induction b with
  | nil => rfl
  | cons x b ih =>
    rw [List.flatMap_cons, List.length_append, ih, List.length_cons, Nat.mul_succ, Nat.add_comm]
    rfl

theorem fromHexFrom_hex (b : List UInt8) (i : ℕ) : fromHexFrom i (b.flatMap hexByte) = .ok b := by
  induction b generalizing i with
  | nil => rfl
  | cons x b ih =>
    have hx := x.toNat_lt
    obtain ⟨hhigh, hspace, -, -⟩ := digitChar_spec (n := x.toNat / 16) (by omega)
    obtain ⟨hlow, -, -, -⟩ := digitChar_spec (n := x.toNat % 16) (by omega)
    have hdigits : 16 * (x.toNat / 16) + x.toNat % 16 = x.toNat := Nat.div_add_mod ..
    simp only [List.flatMap_cons, hexByte, List.cons_append, List.nil_append, fromHexFrom, hspace,
      hhigh, hlow, Bool.false_eq_true, if_false, hdigits, UInt8.ofNat_toNat]
    rw [ih]
    rfl

/-- **Bytes are read as they were written.** -/
@[simp] theorem fromHex_hex (b : List UInt8) : fromHex (hex b) = .ok b := by
  have hascii : (hex b).toList.findIdx? (128 ≤ ·.toNat) = none := by
    rw [List.findIdx?_eq_none_iff]
    intro c hc
    simpa using (of_mem_hex hc).1
  rw [fromHex, hascii]
  simp only [hex, String.toList_ofList, fromHexFrom_hex]

/-! ## Base 64 -/

/-- The value of a byte of the alphabet. -/
def b64Value (c : UInt8) : Option ℕ :=
  if 65 ≤ c && c ≤ 90 then some (c.toNat - 65)
  else if 97 ≤ c && c ≤ 122 then some (c.toNat - 71)
  else if 48 ≤ c && c ≤ 57 then some (c.toNat + 4)
  else if c = 43 then some 62
  else if c = 47 then some 63
  else none

/-- The character of a value. -/
def b64Char (n : ℕ) : Char :=
  if n < 26 then .ofNat (n + 65)
  else if n < 52 then .ofNat (n + 71)
  else if n < 62 then .ofNat (n - 4)
  else if n = 62 then '+'
  else '/'

/-- The characters of `base64.b64encode(b)`, three bytes after three. -/
def b64Chars : List UInt8 → List Char
  | [] => []
  | [a] => [b64Char (a.toNat / 4), b64Char (a.toNat % 4 * 16), '=', '=']
  | [a, b] =>
    [b64Char (a.toNat / 4), b64Char (a.toNat % 4 * 16 + b.toNat / 16), b64Char (b.toNat % 16 * 4),
      '=']
  | a :: b :: c :: l =>
    b64Char (a.toNat / 4) :: b64Char (a.toNat % 4 * 16 + b.toNat / 16) ::
      b64Char (b.toNat % 16 * 4 + c.toNat / 64) :: b64Char (c.toNat % 64) :: b64Chars l

/-- `base64.b64encode(b).decode()`. -/
def b64encode (b : List UInt8) : String := .ofList (b64Chars b)

/-- The loop of `binascii.a2b_base64`, at the place `quad` of a group of
four, with the bits `left` of the last character, after `pads` signs of
padding. -/
def a2bFrom : ℕ → ℕ → ℕ → List UInt8 → Option (List UInt8)
  | quad, _, _, [] => if quad = 0 then some [] else none
  | quad, left, pads, c :: cs =>
    if c = 61 then
      if 2 ≤ quad then
        -- the group is complete: what follows is not read
        if 4 ≤ quad + (pads + 1) then some [] else a2bFrom quad left (pads + 1) cs
      else a2bFrom quad left pads cs
    else
      match b64Value c with
      | none => a2bFrom quad left pads cs
      | some v =>
        match quad with
        | 0 => a2bFrom 1 v 0 cs
        | 1 => (a2bFrom 2 (v % 16) 0 cs).map (.ofNat (left * 4 + v / 16) :: ·)
        | 2 => (a2bFrom 3 (v % 4) 0 cs).map (.ofNat (left * 16 + v / 4) :: ·)
        | _ => (a2bFrom 0 0 0 cs).map (.ofNat (left * 64 + v) :: ·)

/-- `base64.b64decode(b)`. A `binascii.Error` is a `ValueError`. -/
def b64decode (b : List UInt8) : Except Exc (List UInt8) :=
  match a2bFrom 0 0 0 b with
  | some l => .ok l
  | none => .error (.raised .valueError)

/-- A byte that the decoder does not pass over. -/
def isBase64 (c : UInt8) : Bool := c = 61 || (b64Value c).isSome

theorem a2bFrom_filter (cs : List UInt8) (quad left pads : ℕ) :
    a2bFrom quad left pads (cs.filter isBase64) = a2bFrom quad left pads cs := by
  induction cs generalizing quad left pads with
  | nil => rfl
  | cons c cs ih =>
    rcases hc : isBase64 c with _ | _
    · -- a byte outside the alphabet, which is no padding either
      rw [isBase64, Bool.or_eq_false_iff, decide_eq_false_iff_not, Option.isSome_eq_false_iff,
        Option.isNone_iff_eq_none] at hc
      rw [List.filter_cons_of_neg (by simp [isBase64, hc]), ih, a2bFrom, if_neg hc.1, hc.2]
    · rw [List.filter_cons_of_pos hc]
      simp only [a2bFrom, ih]

/-- **Bytes outside the alphabet do not matter**, line ends among them. -/
theorem b64decode_filter (b : List UInt8) : b64decode (b.filter isBase64) = b64decode b := by
  rw [b64decode, a2bFrom_filter, b64decode]

theorem b64Char_spec {n : ℕ} (h : n < 64) :
    b64Value (asciiByte (b64Char n)) = some n ∧ asciiByte (b64Char n) ≠ 61 ∧
      (b64Char n).toNat < 128 := by
  interval_cases n <;> decide

section Alphabet

variable {n left pads : ℕ} {cs : List UInt8}

/-! A character of the alphabet moves the decoder on, by its place. -/

theorem a2bFrom_first (h : n < 64) :
    a2bFrom 0 left pads (asciiByte (b64Char n) :: cs) = a2bFrom 1 n 0 cs := by
  obtain ⟨hvalue, hpad, -⟩ := b64Char_spec h
  simp only [a2bFrom, if_neg hpad, hvalue]

theorem a2bFrom_second (h : n < 64) :
    a2bFrom 1 left pads (asciiByte (b64Char n) :: cs) =
      (a2bFrom 2 (n % 16) 0 cs).map (.ofNat (left * 4 + n / 16) :: ·) := by
  obtain ⟨hvalue, hpad, -⟩ := b64Char_spec h
  simp only [a2bFrom, if_neg hpad, hvalue]

theorem a2bFrom_third (h : n < 64) :
    a2bFrom 2 left pads (asciiByte (b64Char n) :: cs) =
      (a2bFrom 3 (n % 4) 0 cs).map (.ofNat (left * 16 + n / 4) :: ·) := by
  obtain ⟨hvalue, hpad, -⟩ := b64Char_spec h
  simp only [a2bFrom, if_neg hpad, hvalue]

theorem a2bFrom_fourth (h : n < 64) :
    a2bFrom 3 left pads (asciiByte (b64Char n) :: cs) =
      (a2bFrom 0 0 0 cs).map (.ofNat (left * 64 + n) :: ·) := by
  obtain ⟨hvalue, hpad, -⟩ := b64Char_spec h
  simp only [a2bFrom, if_neg hpad, hvalue]

end Alphabet

/-- The byte of a number that has its value. -/
private theorem ofNat_eq {x : UInt8} {n : ℕ} (h : n = x.toNat) : UInt8.ofNat n = x := by
  rw [h, UInt8.ofNat_toNat]

theorem a2bFrom_b64Chars (b : List UInt8) :
    a2bFrom 0 0 0 ((b64Chars b).map asciiByte) = some b := by
  have hsign : asciiByte '=' = 61 := by decide
  have hend : a2bFrom 2 0 0 [61, 61] = some [] ∧ a2bFrom 3 0 0 [61] = some [] := by decide
  induction b using b64Chars.induct with
  | case1 => rfl
  | case2 a =>
    have ha := a.toNat_lt
    have hleft : a.toNat % 4 * 16 % 16 = 0 := by omega
    simp only [b64Chars, List.map_cons, List.map_nil, hsign]
    rw [a2bFrom_first (by omega), a2bFrom_second (by omega), hleft, hend.1, Option.map_some,
      ofNat_eq (x := a) (by omega)]
  | case3 a b =>
    have ha := a.toNat_lt
    have hb := b.toNat_lt
    have hleft : b.toNat % 16 * 4 % 4 = 0 := by omega
    simp only [b64Chars, List.map_cons, List.map_nil, hsign]
    rw [a2bFrom_first (by omega), a2bFrom_second (by omega), a2bFrom_third (by omega), hleft,
      hend.2, Option.map_some, Option.map_some, ofNat_eq (x := a) (by omega),
      ofNat_eq (x := b) (by omega)]
  | case4 a b c l ih =>
    have ha := a.toNat_lt
    have hb := b.toNat_lt
    have hc := c.toNat_lt
    simp only [b64Chars, List.map_cons]
    rw [a2bFrom_first (by omega), a2bFrom_second (by omega), a2bFrom_third (by omega),
      a2bFrom_fourth (by omega), ih, Option.map_some, Option.map_some, Option.map_some,
      ofNat_eq (x := a) (by omega), ofNat_eq (x := b) (by omega), ofNat_eq (x := c) (by omega)]

theorem of_mem_b64Chars {b : List UInt8} {c : Char} (h : c ∈ b64Chars b) : c.toNat < 128 := by
  have hchar : ∀ n, n < 64 → (b64Char n).toNat < 128 := fun n hn => (b64Char_spec hn).2.2
  induction b using b64Chars.induct with
  | case1 => cases h
  | case2 a =>
    have ha := a.toNat_lt
    simp only [b64Chars, List.mem_cons, List.not_mem_nil, or_false] at h
    obtain rfl | rfl | rfl | rfl := h
    · exact hchar _ (by omega)
    · exact hchar _ (by omega)
    · decide
    · decide
  | case3 a b =>
    have ha := a.toNat_lt
    have hb := b.toNat_lt
    simp only [b64Chars, List.mem_cons, List.not_mem_nil, or_false] at h
    obtain rfl | rfl | rfl | rfl := h
    · exact hchar _ (by omega)
    · exact hchar _ (by omega)
    · exact hchar _ (by omega)
    · decide
  | case4 a b c l ih =>
    have ha := a.toNat_lt
    have hb := b.toNat_lt
    have hc := c.toNat_lt
    simp only [b64Chars, List.mem_cons] at h
    obtain rfl | rfl | rfl | rfl | h := h
    · exact hchar _ (by omega)
    · exact hchar _ (by omega)
    · exact hchar _ (by omega)
    · exact hchar _ (by omega)
    · exact ih h

/-- **Bytes are decoded as they were encoded.** -/
@[simp] theorem b64decode_b64encode (b : List UInt8) :
    b64decode ((b64encode b).toList.map asciiByte) = .ok b := by
  rw [b64decode, b64encode, String.toList_ofList, a2bFrom_b64Chars]

example : b64encode [102, 111, 111, 98] = "Zm9vYg==" ∧
    a2bFrom 0 0 0 ("Zm9v\nYg==Zg".toList.map asciiByte) = some [102, 111, 111, 98] := by
  decide +kernel

end Python

end ChutesApi
