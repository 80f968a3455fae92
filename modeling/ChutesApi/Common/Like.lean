import Mathlib.Data.List.Forall2
import Mathlib.Data.List.Infix
/-!
# Patterns of `ILIKE`

The operand of `ILIKE` is a pattern: a percent sign stands for any text, an
underscore for any one character, and a backslash takes the meaning from the
character after it. `Spells` is that meaning, a split of the text into one
piece for each token, and `accepts` decides it. Letters are compared as the
database's locale folds them, `fold`. A pattern without these three
characters spells what is equal to it up to the case, `matches_of_plain`.
-/

namespace ChutesApi

namespace Like

/-- One element of a pattern. -/
inductive Token
  | char (c : Char)
  | anyChar
  | anyText
  deriving DecidableEq, Repr

/-- The backslash. -/
def escape : Char := .ofNat 92

/-- A character that stands for itself. -/
def Plain (c : Char) : Prop := c ≠ '%' ∧ c ≠ '_' ∧ c ≠ escape

/-- What a character is that no escape is before. -/
def token (c : Char) : Token :=
  if c = '%' then .anyText else if c = '_' then .anyChar else .char c

/-- The tokens of a pattern. One that ends in an escape has none: the
database raises where it gets there. -/
def parse : List Char → Option (List Token)
  | [] => some []
  | [c] => if c = escape then none else some [token c]
  | c :: d :: cs =>
    if c = escape then (parse cs).map (.char d :: ·) else (parse (d :: cs)).map (token c :: ·)

variable (fold : Char → Char)

/-- Equal up to the case. -/
def Same (s t : String) : Prop := s.toList.map fold = t.toList.map fold

instance (s t : String) : Decidable (Same fold s t) := by
  unfold Same
  infer_instance

/-- The texts a token stands for. -/
def Token.Stands : Token → List Char → Prop
  | .char c, piece => ∃ d, piece = [d] ∧ fold c = fold d
  | .anyChar, piece => ∃ d, piece = [d]
  | .anyText, _ => True

/-- **The meaning of a pattern.** A text is one piece for each token. -/
def Spells (tokens : List Token) (text : List Char) : Prop :=
  ∃ pieces, List.Forall₂ (Token.Stands fold) tokens pieces ∧ pieces.flatten = text

/-- **`s ILIKE pattern`, by its meaning.** -/
def Matches (s pattern : String) : Prop :=
  ∃ tokens, parse pattern.toList = some tokens ∧ Spells fold tokens s.toList

/-- The scan of a text. -/
def accepts : List Token → List Char → Bool
  | [], text => text.isEmpty
  | .char _ :: _, [] => false
  | .char c :: tokens, d :: text => fold c == fold d && accepts tokens text
  | .anyChar :: _, [] => false
  | .anyChar :: tokens, _ :: text => accepts tokens text
  | .anyText :: tokens, text => text.tails.any (accepts tokens)

/-- `s ILIKE pattern`, which finds nothing by a pattern that has no tokens. -/
def ilike (s pattern : String) : Bool :=
  match parse pattern.toList with
  | some tokens => accepts fold tokens s.toList
  | none => false

variable {fold} {tokens : List Token} {text : List Char}

theorem spells_nil : Spells fold [] text ↔ text = [] := by
  simp [Spells, List.forall₂_nil_left_iff, eq_comm]

theorem spells_cons {t : Token} :
    Spells fold (t :: tokens) text ↔
      ∃ piece rest, t.Stands fold piece ∧ Spells fold tokens rest ∧ piece ++ rest = text := by
  constructor
  · rintro ⟨pieces, hpieces, rfl⟩
    obtain ⟨piece, rest, ht, hrest, rfl⟩ := List.forall₂_cons_left_iff.1 hpieces
    exact ⟨piece, rest.flatten, ht, ⟨rest, hrest, rfl⟩, rfl⟩
  · rintro ⟨piece, _, ht, ⟨rest, hrest, rfl⟩, rfl⟩
    exact ⟨piece :: rest, .cons ht hrest, rfl⟩

/-- **The scan decides the meaning.** -/
theorem accepts_iff : accepts fold tokens text ↔ Spells fold tokens text := by
  induction tokens generalizing text with
  | nil => rw [spells_nil, accepts, List.isEmpty_iff]
  | cons t tokens ih =>
    rw [spells_cons]
    cases t with
    | char c =>
      cases text with
      | nil => simp [accepts, Token.Stands]
      | cons d text =>
        have hscan : accepts fold (.char c :: tokens) (d :: text) ↔
            fold c = fold d ∧ Spells fold tokens text := by
          rw [accepts, Bool.and_eq_true, beq_iff_eq, ih]
        rw [hscan]
        constructor
        · rintro ⟨hc, htext⟩
          exact ⟨[d], text, ⟨d, rfl, hc⟩, htext, rfl⟩
        · rintro ⟨_, rest, ⟨e, rfl, hc⟩, hrest, heq⟩
          obtain ⟨rfl, rfl⟩ := List.cons.inj heq
          exact ⟨hc, hrest⟩
    | anyChar =>
      cases text with
      | nil => simp [accepts, Token.Stands]
      | cons d text =>
        have hscan : accepts fold (.anyChar :: tokens) (d :: text) ↔ Spells fold tokens text := by
          rw [accepts, ih]
        rw [hscan]
        constructor
        · intro htext
          exact ⟨[d], text, ⟨d, rfl⟩, htext, rfl⟩
        · rintro ⟨_, rest, ⟨e, rfl⟩, hrest, heq⟩
          obtain ⟨rfl, rfl⟩ := List.cons.inj heq
          exact hrest
    | anyText =>
      -- what is left to the other tokens is one of the text's tails
      simp only [accepts, List.any_eq_true, List.mem_tails, ih]
      constructor
      · rintro ⟨rest, ⟨piece, rfl⟩, hrest⟩
        exact ⟨piece, rest, trivial, hrest, rfl⟩
      · rintro ⟨piece, rest, -, hrest, rfl⟩
        exact ⟨rest, ⟨piece, rfl⟩, hrest⟩

/-- `ILIKE` finds what the pattern spells. -/
theorem ilike_iff {s pattern : String} : ilike fold s pattern ↔ Matches fold s pattern := by
  unfold ilike Matches
  cases parse pattern.toList with
  | none => simp
  | some tokens => simp [accepts_iff]

/-! ## Patterns that spell one text -/

theorem parse_of_plain {cs : List Char} (h : ∀ c ∈ cs, Plain c) :
    parse cs = some (cs.map .char) := by
  have htoken : ∀ c, Plain c → token c = .char c := fun c hc => by
    rw [token, if_neg hc.1, if_neg hc.2.1]
  induction cs with
  | nil => rfl
  | cons c cs ih =>
    have hc : Plain c := h c List.mem_cons_self
    have hcs := ih fun d hd => h d (List.mem_cons_of_mem c hd)
    cases cs with
    | nil => rw [parse, if_neg hc.2.2, htoken c hc]; rfl
    | cons d cs => rw [parse, if_neg hc.2.2, hcs, htoken c hc]; rfl

theorem spells_chars {cs : List Char} :
    Spells fold (cs.map .char) text ↔ cs.map fold = text.map fold := by
  induction cs generalizing text with
  | nil => simp [spells_nil, eq_comm]
  | cons c cs ih =>
    rw [List.map_cons, spells_cons]
    constructor
    · rintro ⟨_, rest, ⟨d, rfl, hc⟩, hrest, rfl⟩
      rw [List.map_cons, List.singleton_append, List.map_cons, hc, ih.1 hrest]
    · intro h
      obtain ⟨d, rest, rfl, hd, hrest⟩ := List.map_eq_cons_iff.1 (List.map_cons ▸ h.symm)
      exact ⟨[d], rest, ⟨d, rfl, hd.symm⟩, ih.2 hrest.symm, rfl⟩

/-- **Without a wildcard** `ILIKE` compares up to the case. -/
theorem matches_of_plain {s pattern : String} (h : ∀ c ∈ pattern.toList, Plain c) :
    Matches fold s pattern ↔ Same fold s pattern := by
  rw [Matches, parse_of_plain h, Same]
  simp only [Option.some.injEq, exists_eq_left', spells_chars]
  exact eq_comm

example : ilike Char.toLower "my-model" "MY_model" = true ∧
    ilike Char.toLower "my-model" "my_" = false ∧ ilike Char.toLower "org/affine-1" "%/AFF%" := by
  decide +kernel

end Like

end ChutesApi
