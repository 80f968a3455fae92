import ChutesApi.Python.FloatText
import ChutesApi.Python.Text
/-!
# JSON texts

A `JsonModule` is what a module for JSON does with flat objects: `loads`
reads what `dumps` wrote, but for a float that is not finite, which was
written as a null. `JsonModule.compact` is one, without spaces.
-/

namespace ChutesApi

namespace Python

/-- A value that `dumps` writes. -/
inductive Scalar
  | none
  | float (x : Double)
  | str (s : String)

/-- What there is of it in the text. -/
def Scalar.written : Scalar → Document
  | none => .null
  | float ⟨.finite q, _⟩ => .number (.finite q)
  | float _ => .null
  | str s => .text (Text.ofString s)

/-- What is looked up in an object is what was written under the key. -/
theorem Document.get_written (entries : List (String × Scalar)) (key : String) :
    Document.get (entries.map fun entry => (Text.ofString entry.1, entry.2.written)) key =
      ((entries.lookup key).map Scalar.written).getD .null := by
  induction entries with
  | nil => rfl
  | cons entry entries ih =>
    unfold Document.get at ih ⊢
    rw [List.map_cons, List.lookup_cons, List.lookup_cons]
    rcases eq_or_ne key entry.1 with rfl | hne
    · simp
    · have htext : (Text.ofString key == Text.ofString entry.1) = false :=
        beq_false_of_ne (Text.ofString_injective.ne hne)
      rw [htext, beq_false_of_ne hne]
      exact ih

/-- **A module for JSON.** -/
structure JsonModule where
  /-- `json.dumps`, of a `dict`. -/
  dumps : List (String × Scalar) → String
  loads : String → Except PyError Document
  loads_dumps : ∀ entries, (entries.map Prod.fst).Nodup →
    loads (dumps entries) =
      .ok (.object (entries.map fun entry => (Text.ofString entry.1, entry.2.written)))
  brace_mem_dumps : ∀ entries, '{' ∈ (dumps entries).toList
  brace_mem_of_loads : ∀ {s entries}, loads s = .ok (.object entries) → '{' ∈ s.toList

namespace JsonText

open FloatText

/-! ## Writing -/

/-- A character inside quotes. -/
def escape (c : Char) : List Char :=
  if c = '"' then ['\\', '"']
  else if c = '\\' then ['\\', '\\']
  else if c = '\n' then ['\\', 'n']
  else if c = '\r' then ['\\', 'r']
  else if c = '\t' then ['\\', 't']
  else if c.toNat = 8 then ['\\', 'b']
  else if c.toNat = 12 then ['\\', 'f']
  else if c.toNat < 32 then
    ['\\', 'u', '0', '0', Nat.digitChar (c.toNat / 16), Nat.digitChar (c.toNat % 16)]
  else [c]

def writeString (s : String) : List Char := '"' :: (s.toList.flatMap escape ++ ['"'])

def writeScalar : Scalar → List Char
  | .float x =>
    match x.value with
    | .finite _ => x.str.toList
    | _ => ['n', 'u', 'l', 'l']
  | .str s => writeString s
  | .none => ['n', 'u', 'l', 'l']

/-- The entries, with a comma in front of each. -/
def writeEntries (entries : List (String × Scalar)) : List Char :=
  entries.flatMap fun entry => ',' :: (writeString entry.1 ++ ':' :: writeScalar entry.2)

def dumps (entries : List (String × Scalar)) : String :=
  .ofList ('{' :: ((writeEntries entries).tail ++ ['}']))

/-! ## Reading -/

/-- What is behind a backslash, but for a `u`. -/
def unescape (c : Char) : Option Char :=
  [('"', '"'), ('\\', '\\'), ('/', '/'), ('n', '\n'), ('r', '\r'), ('t', '\t'),
    ('b', Char.ofNat 8), ('f', Char.ofNat 12)].lookup c

/-- A text up to the quote behind it. -/
def readString : List Char → Option (Text × List Char)
  | '"' :: cs => some ([], cs)
  | '\\' :: 'u' :: a :: b :: c :: d :: cs => do
    let n ← [a, b, c, d].foldlM (fun n digit => (hexValue digit).map (16 * n + ·)) 0
    let (s, cs) ← readString cs
    return (.char (Char.ofNat n) :: s, cs)
  | '\\' :: c :: cs => do
    let c ← unescape c
    let (s, cs) ← readString cs
    return (.char c :: s, cs)
  | c :: cs => (readString cs).map fun (s, cs) => (.char c :: s, cs)
  | [] => none

def readNumber (cs : List Char) : Option (Document × List Char) :=
  match float (.ofList (cs.takeWhile isNumeric)) with
  | .ok x => some (.number x, cs.dropWhile isNumeric)
  | .error _ => none

/-- A value, and what is behind it. -/
def readScalar : List Char → Option (Document × List Char)
  | '"' :: cs => (readString cs).map fun (s, cs) => (.text s, cs)
  | 'n' :: 'u' :: 'l' :: 'l' :: cs => some (.null, cs)
  | cs => readNumber cs

def readColon : List Char → Option (List Char)
  | ':' :: cs => some cs
  | _ => none

/-- Entries with a comma in front of each, up to the brace behind them. -/
def readEntries : ℕ → List Char → Option (List (Text × Document))
  | _, ['}'] => some []
  | fuel + 1, ',' :: '"' :: cs => do
    let (key, cs) ← readString cs
    let cs ← readColon cs
    let (value, cs) ← readScalar cs
    let entries ← readEntries fuel cs
    return (key, value) :: entries
  | _, _ => none

/-- What follows an opening brace. -/
def readObject (cs : List Char) : Option (List (Text × Document)) :=
  if cs = ['}'] then some [] else readEntries cs.length (',' :: cs)

def loads (s : String) : Except PyError Document :=
  match s.toList with
  | '{' :: cs =>
    match readObject cs with
    | some entries => .ok (.object entries)
    | none => .error .valueError
  | cs =>
    match readScalar cs with
    | some (value, []) => .ok value
    | _ => .error .valueError

/-! ## The round trip -/

variable {c : Char} {cs rest : List Char} {fuel : ℕ} {entries : List (String × Scalar)}

theorem hexValue_digitChar : ∀ n < 16, hexValue (Nat.digitChar n) = some n := by
  decide

/-- A character behind a backslash. -/
theorem readString_backslash {d : Char} (hd : unescape c = some d) (hu : c ≠ 'u') :
    readString ('\\' :: c :: rest) = (readString rest).map fun (s, cs) => (.char d :: s, cs) := by
  rw [readString.eq_3 _ _ fun _ _ _ _ _ h _ => hu h, hd]
  cases readString rest <;> rfl

/-- A character by its number. -/
theorem readString_number {n : ℕ} (hn : n < 256) (rest : List Char) :
    readString ('\\' :: 'u' :: '0' :: '0' :: Nat.digitChar (n / 16) :: Nat.digitChar (n % 16) ::
      rest) = (readString rest).map fun (s, cs) => (.char (Char.ofNat n) :: s, cs) := by
  have hvalue : ['0', '0', Nat.digitChar (n / 16), Nat.digitChar (n % 16)].foldlM
      (fun n digit => (hexValue digit).map (16 * n + ·)) 0 = some n := by
    have hzero : hexValue '0' = some 0 := by decide
    simp only [List.foldlM_cons, List.foldlM_nil, hzero,
      hexValue_digitChar _ (by omega : n / 16 < 16),
      hexValue_digitChar _ (by omega : n % 16 < 16), Option.map_some, Option.bind_eq_bind,
      Option.bind_some, Option.pure_def, Option.some.injEq]
    omega
  rw [readString, hvalue]
  cases readString rest <;> rfl

/-- A character is read as it was written. -/
theorem readString_escape (c : Char) (rest : List Char) :
    readString (escape c ++ rest) =
      (readString rest).map fun (s, cs) => (.char c :: s, cs) := by
  have hof : ∀ {n}, c.toNat = n → c = Char.ofNat n := fun h => h ▸ (Char.ofNat_toNat c).symm
  unfold escape
  split
  case isTrue h =>
    rw [h]
    exact readString_backslash (by decide) (by decide)
  split
  case isTrue h =>
    rw [h]
    exact readString_backslash (by decide) (by decide)
  split
  case isTrue h =>
    rw [h]
    exact readString_backslash (by decide) (by decide)
  split
  case isTrue h =>
    rw [h]
    exact readString_backslash (by decide) (by decide)
  split
  case isTrue h =>
    rw [h]
    exact readString_backslash (by decide) (by decide)
  split
  case isTrue h =>
    rw [hof h]
    exact readString_backslash (by decide) (by decide)
  split
  case isTrue h =>
    rw [hof h]
    exact readString_backslash (by decide) (by decide)
  split
  case isTrue h =>
    have hread := readString_number (n := c.toNat) (by omega) rest
    rwa [Char.ofNat_toNat] at hread
  case isFalse hquote hbackslash _ _ _ _ _ _ =>
    rw [List.singleton_append, readString]
    · exact hquote
    · exact fun _ _ _ _ _ hc _ => hbackslash hc
    · exact fun _ _ hc _ => hbackslash hc

theorem readString_writeString (s : String) (rest : List Char) :
    readString (s.toList.flatMap escape ++ '"' :: rest) = some (Text.ofString s, rest) := by
  unfold Text.ofString
  induction s.toList with
  | nil => rfl
  | cons c cs ih =>
    rw [List.flatMap_cons, List.append_assoc, readString_escape, ih]
    rfl

/-- Nothing of a number follows. -/
def EndsNumber (rest : List Char) : Prop := ∀ c ∈ rest.head?, isNumeric c = false

theorem readNumber_append {text : String} {x : PyFloat} (hx : float text = .ok x)
    (htext : ∀ c ∈ text.toList, isNumeric c) (hrest : EndsNumber rest) :
    readNumber (text.toList ++ rest) = some (.number x, rest) := by
  have hbefore : (text.toList ++ rest).takeWhile isNumeric = text.toList := by
    rw [List.takeWhile_append_of_pos htext]
    cases rest with
    | nil => simp
    | cons c rest => simp [hrest c rfl]
  have hbehind : (text.toList ++ rest).dropWhile isNumeric = rest := by
    rw [List.dropWhile_append_of_pos htext]
    cases rest with
    | nil => rfl
    | cons c rest => simp [hrest c rfl]
  rw [readNumber, hbefore, hbehind, String.ofList_toList, hx]

/-- A value that starts like a number is one. -/
theorem readScalar_of_isNumeric (hc : isNumeric c) :
    readScalar (c :: cs) = readNumber (c :: cs) := by
  rw [readScalar]
  · rintro _ heq
    obtain ⟨rfl, -⟩ := List.cons.inj heq
    exact absurd hc (by decide)
  · rintro _ heq
    obtain ⟨rfl, -⟩ := List.cons.inj heq
    exact absurd hc (by decide)

/-- **A value is read as it was written.** -/
theorem readScalar_writeScalar (value : Scalar) (hrest : EndsNumber rest) :
    readScalar (writeScalar value ++ rest) = some (value.written, rest) := by
  cases value with
  | none => rfl
  | str s =>
    rw [writeScalar, writeString, List.cons_append, List.append_assoc]
    change (readString (s.toList.flatMap escape ++ '"' :: rest)).map _ = _
    rw [readString_writeString]
    rfl
  | float x =>
    have hx := float_str x
    rcases x with ⟨q | _ | _ | _, h⟩
    case finite =>
      have hnumeric := isNumeric_str (x := ⟨.finite q, h⟩) rfl
      have hread := readNumber_append hx hnumeric hrest
      have hne : (Double.str ⟨.finite q, h⟩).toList ≠ [] := by
        intro hnil
        have hempty : float "" = .error .valueError := rfl
        rw [String.toList_eq_nil_iff.1 hnil, hempty] at hx
        cases hx
      change readScalar ((Double.str ⟨.finite q, h⟩).toList ++ rest) = _
      obtain ⟨c, cs, hcs⟩ := List.exists_cons_of_ne_nil hne
      rw [hcs] at hnumeric hread ⊢
      rw [List.cons_append, readScalar_of_isNumeric (hnumeric c List.mem_cons_self)]
      exact hread
    all_goals rfl

theorem endsNumber_writeEntries (entries : List (String × Scalar)) :
    EndsNumber (writeEntries entries ++ ['}']) := by
  intro c hc
  cases entries with
  | nil =>
    obtain rfl := Option.some.inj hc
    decide
  | cons entry entries =>
    obtain rfl := Option.some.inj hc
    decide

/-- **Entries are read as they were written.** -/
theorem readEntries_writeEntries (h : entries.length ≤ fuel) :
    readEntries fuel (writeEntries entries ++ ['}']) =
      some (entries.map fun entry => (Text.ofString entry.1, entry.2.written)) := by
  induction entries generalizing fuel with
  | nil => cases fuel <;> rfl
  | cons entry entries ih =>
    cases fuel with
    | zero => cases h
    | succ fuel =>
      have hrest := ih (Nat.le_of_succ_le_succ h)
      have hvalue := readScalar_writeScalar entry.2 (endsNumber_writeEntries entries)
      have hkey := readString_writeString entry.1
        (':' :: (writeScalar entry.2 ++ (writeEntries entries ++ ['}'])))
      have htext : writeEntries (entry :: entries) ++ ['}'] =
          ',' :: '"' :: (entry.1.toList.flatMap escape ++
            '"' :: ':' :: (writeScalar entry.2 ++ (writeEntries entries ++ ['}']))) := by
        simp [writeEntries, writeString]
      rw [htext, readEntries, hkey]
      simp only [Option.bind_eq_bind, Option.bind_some, readColon, hvalue, hrest]
      rfl

theorem length_le_writeEntries (entries : List (String × Scalar)) :
    entries.length ≤ (writeEntries entries).length := by
  induction entries with
  | nil => exact Nat.le_refl 0
  | cons entry entries ih =>
    have hsplit : writeEntries (entry :: entries) =
        ',' :: (writeString entry.1 ++ ':' :: writeScalar entry.2) ++ writeEntries entries := rfl
    rw [hsplit, List.length_append, List.length_cons, List.length_cons]
    omega

/-- **An object is read as it was written.** -/
theorem loads_dumps (entries : List (String × Scalar)) :
    loads (dumps entries) =
      .ok (.object (entries.map fun entry => (Text.ofString entry.1, entry.2.written))) := by
  cases entries with
  | nil => rfl
  | cons entry entries =>
    obtain ⟨cs, hcs⟩ : ∃ cs, writeEntries (entry :: entries) = ',' :: '"' :: cs := ⟨_, rfl⟩
    have htext : (dumps (entry :: entries)).toList = '{' :: '"' :: (cs ++ ['}']) := by
      rw [dumps, String.toList_ofList, hcs]
      rfl
    have hlength : (entry :: entries).length ≤ ('"' :: (cs ++ ['}'])).length := by
      have := length_le_writeEntries (entry :: entries)
      rw [hcs] at this
      simpa using this
    have hread := readEntries_writeEntries hlength
    rw [hcs] at hread
    have hobject : readObject ('"' :: (cs ++ ['}'])) =
        some ((entry :: entries).map fun entry => (Text.ofString entry.1, entry.2.written)) := by
      rw [readObject, if_neg (by simp)]
      exact hread
    simp only [loads, htext, hobject]

/-- A value that is no object. -/
theorem readScalar_ne_object {entries : List (Text × Document)} :
    readScalar cs ≠ some (.object entries, rest) := by
  intro h
  unfold readScalar at h
  split at h
  · obtain ⟨s, -, h⟩ := Option.map_eq_some_iff.1 h
    cases h
  · cases h
  · unfold readNumber at h
    split at h
    · cases h
    · cases h

end JsonText

/-- **The texts without spaces.** -/
def JsonModule.compact : JsonModule where
  dumps := JsonText.dumps
  loads := JsonText.loads
  loads_dumps entries _ := JsonText.loads_dumps entries
  brace_mem_dumps entries := by
    rw [JsonText.dumps, String.toList_ofList]
    exact List.mem_cons_self
  brace_mem_of_loads := by
    intro s entries h
    unfold JsonText.loads at h
    split at h
    case h_1 hs =>
      rw [hs]
      exact List.mem_cons_self
    case h_2 =>
      split at h
      case h_1 hvalue =>
        obtain rfl := Except.ok.inj h
        exact absurd hvalue JsonText.readScalar_ne_object
      case h_2 => cases h

end Python

end ChutesApi
