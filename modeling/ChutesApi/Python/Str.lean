import Mathlib.Data.List.Infix
/-!
# Python's strings

The methods of `str` that request handling uses, over text of latin-1, which
is what a header is decoded to. They run on the list of characters, so that
they evaluate in the kernel.
-/

namespace ChutesApi

namespace Python

/-- The characters `str.strip` removes. -/
def isSpace (c : Char) : Bool :=
  c.toNat = 32 || (9 ≤ c.toNat && c.toNat ≤ 13) || (28 ≤ c.toNat && c.toNat ≤ 31) ||
    c.toNat = 133 || c.toNat = 160

/-- `s.startswith(p)`. -/
def startsWith (s p : String) : Bool := p.toList.isPrefixOf s.toList

/-- `s.endswith(p)`. -/
def endsWith (s p : String) : Bool := p.toList.isSuffixOf s.toList

/-- `p in s`. -/
def contains (s p : String) : Bool := s.toList.tails.any p.toList.isPrefixOf

/-- `s.lstrip()`. -/
def lstrip (s : String) : String := .ofList (s.toList.dropWhile isSpace)

/-- `s.strip()`. -/
def strip (s : String) : String :=
  .ofList ((s.toList.dropWhile isSpace).reverse.dropWhile isSpace).reverse

/-- `s.lower()`, up to the letters outside ASCII. -/
def lower (s : String) : String := .ofList (s.toList.map Char.toLower)

/-- `s[i:j]`. -/
def slice (s : String) (i j : ℕ) : String := .ofList ((s.toList.take j).drop i)

/-- `s.split(sep)[-1]`, for a separator of one character. -/
def splitLast (s : String) (sep : Char) : String :=
  .ofList (s.toList.reverse.takeWhile (· != sep)).reverse

/-- `s.split(sep)[0]`, for a separator of one character. -/
def splitHead (s : String) (sep : Char) : String :=
  .ofList (s.toList.takeWhile (· != sep))

/-- `s.split(sep)`, for a separator of one character. -/
def split (s : String) (sep : Char) : List String := (s.toList.splitOn sep).map .ofList

/-- `sep.join(l)`. -/
def join (sep : Char) (l : List String) : String :=
  .ofList ([sep].intercalate (l.map String.toList))

@[simp] theorem join_singleton (sep : Char) (s : String) : join sep [s] = s := by
  simp [join]

@[simp] theorem join_split (s : String) (sep : Char) : join sep (split s sep) = s := by
  rw [join, split, List.map_map]
  simp [Function.comp_def, List.intercalate_splitOn]

/-- A text is not joined from two parts if it does not have the separator. -/
theorem mem_join {sep : Char} {a b : String} {l : List String} :
    sep ∈ (join sep (a :: b :: l)).toList := by
  rw [join, String.toList_ofList, List.map_cons, List.map_cons, List.intercalate_cons_cons]
  simp

/-- Parts without the separator are split as they were joined. -/
theorem split_join {sep : Char} {l : List String} (h : ∀ s ∈ l, sep ∉ s.toList) (hl : l ≠ []) :
    split (join sep l) sep = l := by
  have hlist : ([sep].intercalate (l.map String.toList)).splitOn sep = l.map String.toList := by
    refine List.splitOn_intercalate sep ?_ (by simpa using hl)
    simpa using h
  rw [split, join, String.toList_ofList, hlist, List.map_map]
  simp [Function.comp_def]

/-- Two texts are the same in front of their first separator, and behind it. -/
theorem eq_of_append_cons {sep : Char} {a a' b b' : List Char} (ha : sep ∉ a) (ha' : sep ∉ a')
    (h : a ++ sep :: b = a' ++ sep :: b') : a = a' ∧ b = b' := by
  induction a generalizing a' with
  | nil =>
    rcases a' with _ | ⟨c, a'⟩
    · exact ⟨rfl, (List.cons.inj h).2⟩
    · obtain ⟨rfl, -⟩ := List.cons.inj h
      exact absurd List.mem_cons_self ha'
  | cons c a ih =>
    rcases a' with _ | ⟨c', a'⟩
    · obtain ⟨rfl, -⟩ := List.cons.inj h
      exact absurd List.mem_cons_self ha
    · obtain ⟨rfl, hrest⟩ := List.cons.inj h
      rw [List.mem_cons, not_or] at ha ha'
      obtain ⟨rfl, rfl⟩ := ih ha.2 ha'.2 hrest
      exact ⟨rfl, rfl⟩

/-- What `.*` matches in front of `$`, which is also in front of a final line
feed, if that is all there is. -/
def beforeEnd (s : String) : Option String :=
  let body := if s.toList.getLast? = some '\n' then s.toList.dropLast else s.toList
  if '\n' ∈ body then none else some (.ofList body)

/-- `s` is not `None` and not empty. -/
def truthy : Option String → Bool
  | some s => s != ""
  | none => false

/-- `f"{s}"` of a `str | None`. -/
def format : Option String → String
  | some s => s
  | none => "None"

theorem slice_of_append {a b c : List Char} {s : String} {i j : ℕ} (hs : s.toList = a ++ b ++ c)
    (hi : a.length = i) (hj : i + b.length = j) : slice s i j = .ofList b := by
  have hlength : (a ++ b).length = j := by rw [List.length_append, hi, hj]
  rw [slice, hs, List.take_left' hlength, List.drop_left' hi]

/-! ## Numbers -/

/-- A decimal digit, which `int` accepts. -/
def isDecimal (c : Char) : Bool := '0' ≤ c && c ≤ '9'

/-- `s.isdigit()`. The superscripts are digits that are not decimal. -/
def isDigit (s : String) : Bool :=
  s != "" && s.toList.all fun c => isDecimal c || c = '²' || c = '³' || c = '¹'

/-- `int(s)` of a text of digits; `none` is a `ValueError`, also for a text
over the interpreter's limit. -/
def int (s : String) : Option ℕ :=
  if s.length ≤ 4300 && s.toList.all isDecimal then
    some (s.toList.foldl (fun n c => 10 * n + (c.toNat - '0'.toNat)) 0)
  else none

/-- `int(s)` of a text of digits that is not longer than the interpreter
reads. -/
def natural (s : String) : Option ℕ :=
  if s ≠ "" ∧ s.toList.all isDecimal then some (Nat.ofDigitChars 10 s.toList 0) else none

theorem isDecimal_of_mem_repr {n : ℕ} {c : Char} (h : c ∈ n.repr.toList) : isDecimal c := by
  have hdigit : c ∈ Nat.toDigits 10 n := by simpa [Nat.repr] using h
  have hchar := Nat.isDigit_of_mem_toDigits (by omega) (by omega) hdigit
  simp only [Char.isDigit, Bool.and_eq_true, decide_eq_true_eq] at hchar
  simp only [isDecimal, Bool.and_eq_true, decide_eq_true_eq]
  exact hchar

theorem notMem_repr {c : Char} (hc : isDecimal c = false) (n : ℕ) : c ∉ n.repr.toList := by
  intro h
  rw [isDecimal_of_mem_repr h] at hc
  cases hc

/-- A number is read as it was written. -/
@[simp] theorem natural_repr (n : ℕ) : natural n.repr = some n := by
  have hne : n.repr ≠ "" := fun h => by
    have hnil : Nat.toDigits 10 n = [] := by simpa [Nat.repr] using congrArg String.toList h
    exact Nat.toDigits_ne_nil hnil
  have hall : n.repr.toList.all isDecimal := by
    rw [List.all_eq_true]
    intro c hc
    exact isDecimal_of_mem_repr hc
  rw [natural, if_pos ⟨hne, hall⟩]
  simp [Nat.repr]

/-! ## Bytes -/

def hexValue (c : Char) : Option ℕ :=
  if isDecimal c then some (c.toNat - '0'.toNat)
  else if 'a' ≤ c && c ≤ 'f' then some (c.toNat - 'a'.toNat + 10)
  else if 'A' ≤ c && c ≤ 'F' then some (c.toNat - 'A'.toNat + 10)
  else none

/-- The spaces `bytes.fromhex` skips, those of ASCII. -/
def isHexSpace (c : Char) : Bool := c.toNat = 32 || (9 ≤ c.toNat && c.toNat ≤ 13)

/-- The loop of `bytes.fromhex` from position `i`. -/
def fromHexFrom : ℕ → List Char → Except ℕ (List UInt8)
  | _, [] => .ok []
  | i, [c] => if isHexSpace c then .ok [] else .error (if (hexValue c).isSome then i + 1 else i)
  | i, c :: d :: cs =>
    if isHexSpace c then fromHexFrom (i + 1) (d :: cs)
    else match hexValue c, hexValue d with
      | none, _ => .error i
      | some _, none => .error (i + 1)
      | some h, some l => (fromHexFrom (i + 2) cs).map (.ofNat (16 * h + l) :: ·)

/-- `bytes.fromhex(s)`, or the position its `ValueError` names. -/
def fromHex (s : String) : Except ℕ (List UInt8) :=
  match s.toList.findIdx? (128 ≤ ·.toNat) with
  | some i => .error i
  | none => fromHexFrom 0 s.toList

/-- The text of that error. -/
def fromHexError (i : ℕ) : String :=
  s!"non-hexadecimal number found in fromhex() arg at position {i}"

/-- `s.replace(pat, "")`, on characters, for a `pat` that is not empty. -/
def removeAll (pat : List Char) (s : List Char) : List Char :=
  go s.length s
where
  go : ℕ → List Char → List Char
    | 0, _ => []
    | _, [] => []
    | n + 1, c :: cs =>
      if pat.isPrefixOf (c :: cs) then go n ((c :: cs).drop pat.length) else c :: go n cs

theorem removeAll_go_singleton (c : Char) (s : List Char) (n : ℕ) (h : s.length ≤ n) :
    removeAll.go [c] n s = s.filter (· ≠ c) := by
  induction s generalizing n with
  | nil => cases n <;> rfl
  | cons d s ih =>
    cases n with
    | zero => exact absurd h (Nat.not_succ_le_zero _)
    | succ n =>
      have hrest := ih n (Nat.le_of_succ_le_succ h)
      rcases eq_or_ne c d with rfl | hd
      · simp [removeAll.go, hrest]
      · simp [removeAll.go, hd, hd.symm, hrest]

/-- Without a single character. -/
theorem removeAll_singleton (c : Char) (s : List Char) : removeAll [c] s = s.filter (· ≠ c) :=
  removeAll_go_singleton c s s.length le_rfl

/-- What `int(s, 16)` accepts: a sign and `0x`, which may be missing, and
digits with single underscores between them. -/
def isHexInt (s : List Char) : Bool :=
  let s := ((s.dropWhile isSpace).reverse.dropWhile isSpace).reverse
  let s := match s with
    | '+' :: cs | '-' :: cs => cs
    | cs => cs
  let s := match s with
    | '0' :: 'x' :: '_' :: cs | '0' :: 'X' :: '_' :: cs => cs
    | '0' :: 'x' :: cs | '0' :: 'X' :: cs => cs
    | cs => cs
  (s.splitOn '_').all fun group => group != [] && group.all fun c => (hexValue c).isSome

/-- `uuid.UUID(s)` does not raise. -/
def isUuid (s : String) : Bool :=
  let s := removeAll "uuid:".toList (removeAll "urn:".toList s.toList)
  let s := ((s.dropWhile "{}".toList.contains).reverse.dropWhile "{}".toList.contains).reverse
  let s := removeAll ['-'] s
  s.length = 32 && isHexInt s

/-! ## Representation -/

private def apostrophe : Char := .ofNat 39

private def quotation : Char := .ofNat 34

private def backslash : Char := .ofNat 92

private def hexDigit (n : ℕ) : Char := "0123456789abcdef".toList.getD n '0'

/-- How a character stands in `repr`, between the given quotes. -/
def reprChar (quote c : Char) : List Char :=
  if c = quote || c = backslash then [backslash, c]
  else if c = '\n' then [backslash, 'n']
  else if c = '\r' then [backslash, 'r']
  else if c = '\t' then [backslash, 't']
  else if c.toNat < 32 || (127 ≤ c.toNat && c.toNat ≤ 160) || c.toNat = 173 then
    [backslash, 'x', hexDigit (c.toNat / 16), hexDigit (c.toNat % 16)]
  else [c]

/-- `repr(s)`. -/
def repr (s : String) : String :=
  let quote :=
    if s.toList.contains apostrophe && !s.toList.contains quotation then quotation else apostrophe
  .ofList (quote :: s.toList.flatMap (reprChar quote) ++ [quote])

example : fromHex "0a Ff" = .ok [10, 255] := by decide +kernel

example : isUuid "urn:uuid:{01234567-89ab-cdef-0123-456789abcdef}" = true ∧
    isUuid "01234567-89ab-cdef-0123-456789abcde" = false := by
  decide +kernel

example : splitLast "Bearer a b" ' ' = "b" ∧ repr "it's" = "\"it's\"" := by decide +kernel

end Python

end ChutesApi
