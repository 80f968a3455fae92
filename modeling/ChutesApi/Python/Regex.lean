import ChutesApi.Python.Str
/-!
# Regular expressions

The patterns of `re` that are made of characters of a class, sequences,
optional parts, repetitions of a class, a negative look ahead and the bounds
of a word or of the text. A pattern has its ways through a text in the order
in which they are tried, and its match is the first of them.

Which letters beyond ASCII belong to a word is left open: `WordChars`.
-/

namespace ChutesApi

namespace Python

/-- **The characters of a word**, `\w`. -/
structure WordChars where
  isWord : Char → Bool
  ascii : ∀ c : Char, c.toNat < 128 → isWord c = (c.isAlphanum || c == '_')

namespace WordChars

theorem not_isWord_space (w : WordChars) : w.isWord ' ' = false := w.ascii ' ' (by decide)

/-- Those of ASCII only. -/
def asciiOnly : WordChars where
  isWord c := c.isAlphanum || c == '_'
  ascii _ _ := rfl

end WordChars

/-- **A pattern.** -/
inductive Regex
  /-- A character of a class. -/
  | char (p : Char → Bool)
  | seq (r s : Regex)
  /-- `r?`, which tries to match first. -/
  | opt (r : Regex)
  /-- A repetition of a class, `[…]*`, as long as can be first. -/
  | many (p : Char → Bool)
  /-- `(?!r)` -/
  | notAhead (r : Regex)
  /-- `$` -/
  | atEnd
  /-- `\b` -/
  | wordBound

namespace Regex

/-- A text as it is written. -/
def text : List Char → Regex
  | [] => opt (char fun _ => false)
  | [c] => char (· == c)
  | c :: cs => seq (char (· == c)) (text cs)

/-- `[…]+` -/
def many1 (p : Char → Bool) : Regex := seq (char p) (many p)

variable (w : WordChars)

/-- A character of a word is next. -/
def wordNext : List Char → Bool
  | [] => false
  | c :: _ => w.isWord c

/-- The ways of a repetition, the longest first. -/
def runMany (p : Char → Bool) : Bool → List Char → List (Bool × List Char)
  | b, [] => [(b, [])]
  | b, c :: cs => if p c then runMany p (w.isWord c) cs ++ [(b, c :: cs)] else [(b, c :: cs)]

/-- **The ways of a pattern** through a text: what each leaves, with whether
the last character before that belongs to a word. -/
def run : Regex → Bool → List Char → List (Bool × List Char)
  | char _, _, [] => []
  | char p, _, c :: cs => if p c then [(w.isWord c, cs)] else []
  | seq r s, b, cs => (r.run b cs).flatMap fun end_ => s.run end_.1 end_.2
  | opt r, b, cs => r.run b cs ++ [(b, cs)]
  | many p, b, cs => runMany w p b cs
  | notAhead r, b, cs => if r.run b cs = [] then [(b, cs)] else []
  | atEnd, b, cs => if cs = [] ∨ cs = ['\n'] then [(b, cs)] else []
  | wordBound, b, cs => if b = wordNext w cs then [] else [(b, cs)]

/-- `re.search`, from a place in the text on. -/
def searchFrom (r : Regex) : Bool → List Char → Bool
  | b, [] => !(r.run w b []).isEmpty
  | b, c :: cs => !(r.run w b (c :: cs)).isEmpty || searchFrom r (w.isWord c) cs

/-- **`re.search`.** -/
def search (r : Regex) (s : String) : Bool := searchFrom w r false s.toList

/-- `re.sub`, of a pattern that takes at least one character, from a place in
the text on; the first `skip` characters belong to the last match. -/
def subFrom (r : Regex) (repl : List Char) : Bool → ℕ → List Char → List Char
  | _, _, [] => []
  | _, skip + 1, c :: cs => subFrom r repl (w.isWord c) skip cs
  | b, 0, c :: cs =>
    match r.run w b (c :: cs) with
    | (_, rest) :: _ => repl ++ subFrom r repl (w.isWord c) (cs.length - rest.length) cs
    | [] => c :: subFrom r repl (w.isWord c) 0 cs

/-- **`re.sub`.** -/
def sub (r : Regex) (repl : String) (s : String) : String :=
  .ofList (subFrom w r repl.toList false 0 s.toList)

end Regex

end Python

end ChutesApi
