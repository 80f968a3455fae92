import ChutesApi.Python.Exc
import ChutesApi.Python.Num
/-!
# Texts and documents

A `str` is a list of code points, where half of a surrogate pair may stand by
itself: `json.loads` reads one from an escape. Such a text is not encoded.
`encode_inj` says that the bytes of a text that is encoded tell it from
others.
-/

namespace ChutesApi

namespace Python

/-- A code point. -/
inductive CodePoint
  | char (c : Char)
  | surrogate (n : Fin 2048)
  deriving DecidableEq

/-- **A `str`.** -/
abbrev Text := List CodePoint

namespace Text

def ofString (s : String) : Text := s.toList.map .char

theorem ofString_injective : Function.Injective ofString := fun _ _ h =>
  String.toList_injective (List.map_injective_iff.2 (fun _ _ => CodePoint.char.inj) h)

/-- The characters of a text without surrogates. -/
def chars : Text → Option (List Char)
  | [] => some []
  | .char c :: s => (chars s).map (c :: ·)
  | .surrogate _ :: _ => none

/-- `s.encode()`. A `UnicodeEncodeError` is a `ValueError`. -/
def encode (s : Text) : Except Exc ByteArray :=
  match chars s with
  | some cs => .ok (String.ofList cs).toByteArray
  | none => .error (.raised .valueError)

/-- There is no surrogate. -/
def Encodable (s : Text) : Prop := ∀ n, CodePoint.surrogate n ∉ s

variable {s s' : Text} {cs : List Char} {bytes : ByteArray}

theorem chars_eq_some : chars s = some cs ↔ s = cs.map .char := by
  induction s generalizing cs with
  | nil => cases cs <;> simp [chars]
  | cons c s ih =>
    cases c with
    | surrogate n => cases cs <;> simp [chars]
    | char c =>
      cases cs with
      | nil => simp [chars]
      | cons c' cs => simp [chars, ih, and_comm]

theorem encode_eq_ok :
    encode s = .ok bytes ↔ ∃ cs, s = cs.map .char ∧ (String.ofList cs).toByteArray = bytes := by
  simp only [← chars_eq_some]
  unfold encode
  cases chars s with
  | none => simp
  | some cs => simp

/-- **When a text is encoded.** -/
theorem exists_encode : (∃ bytes, encode s = .ok bytes) ↔ s.Encodable := by
  constructor
  · rintro ⟨bytes, h⟩ n hn
    obtain ⟨cs, rfl, -⟩ := encode_eq_ok.1 h
    obtain ⟨c, -, hc⟩ := List.mem_map.1 hn
    exact nomatch hc
  · intro h
    have hchars : ∃ cs : List Char, s = cs.map .char := by
      induction s with
      | nil => exact ⟨[], rfl⟩
      | cons c s ih =>
        obtain ⟨cs, rfl⟩ := ih fun n hn => h n (List.mem_cons_of_mem c hn)
        cases c with
        | char c => exact ⟨c :: cs, rfl⟩
        | surrogate n => exact absurd List.mem_cons_self (h n)
    obtain ⟨cs, hcs⟩ := hchars
    exact ⟨_, encode_eq_ok.2 ⟨cs, hcs, rfl⟩⟩

/-- **The bytes tell the texts apart.** -/
theorem encode_inj {bytes' : ByteArray} (h : encode s = .ok bytes) (h' : encode s' = .ok bytes') :
    bytes = bytes' ↔ s = s' := by
  obtain ⟨cs, rfl, rfl⟩ := encode_eq_ok.1 h
  obtain ⟨cs', rfl, rfl⟩ := encode_eq_ok.1 h'
  rw [String.toByteArray_inj, String.ofList_inj]
  refine ⟨fun heq => heq ▸ rfl, fun heq => ?_⟩
  exact List.map_injective_iff.2 (fun _ _ => CodePoint.char.inj) heq

end Text

/-- **A value of a JSON document**, with the texts that `json.loads` reads. -/
inductive Document
  | null
  | bool (b : Bool)
  | number (x : PyFloat)
  | text (s : Text)
  | array (items : List Document)
  | object (entries : List (Text × Document))

namespace Document

/-- `entries.get(key)`, which is `None` for a null as well. -/
def get (entries : List (Text × Document)) (key : String) : Document :=
  (entries.lookup (Text.ofString key)).getD .null

/-- `bool(value)`. -/
def truthy : Document → Bool
  | .null => false
  | .bool b => b
  | .number x => x.truthy
  | .text s => s ≠ []
  | .array items => !items.isEmpty
  | .object entries => !entries.isEmpty

/-- `len(value)`. -/
def len : Document → Except Exc ℕ
  | .text s => .ok s.length
  | .array items => .ok items.length
  | .object entries => .ok entries.length
  | .null | .bool _ | .number _ => .error (.raised .typeError)

/-- `for item in value`. -/
def iterate : Document → Except Exc (List Document)
  | .text s => .ok (s.map fun c => .text [c])
  | .array items => .ok items
  | .object entries => .ok (entries.map fun entry => .text entry.1)
  | .null | .bool _ | .number _ => .error (.raised .typeError)

end Document

end Python

end ChutesApi
