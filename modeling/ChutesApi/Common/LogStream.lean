import Mathlib.Data.List.Pairwise
import Mathlib.Data.Prod.Lex
/-!
# Append-only streams

Entries under ids that grow, as Redis keeps a stream: an id is a time and a
number within it, and an entry that is appended gets one over the last,
whatever the clock says. A reader takes the entries from an id on.
-/

namespace ChutesApi

/-- `ms-seq`. -/
abbrev StreamId := ℕ ×ₗ ℕ

/-- `ms-(seq + 1)`. -/
def StreamId.next (i : StreamId) : StreamId := toLex ((ofLex i).1, (ofLex i).2 + 1)

/-- **Reading on from the next id** is reading what is behind an id. -/
theorem StreamId.next_le_iff {i j : StreamId} : i.next ≤ j ↔ i < j := by
  rw [StreamId.next, Prod.Lex.le_iff, Prod.Lex.lt_iff]
  exact or_congr_right (and_congr_right fun _ => Nat.succ_le_iff)

/-- **A stream**: its entries and the last id. -/
structure LogStream (ν : Type*) where
  entries : List (StreamId × ν)
  last : StreamId

namespace LogStream

variable {ν : Type*} {s : LogStream ν} {ms : ℕ} {v : ν}

/-- The stream that is not there. -/
def empty : LogStream ν := ⟨[], toLex (0, 0)⟩

/-- The id of an entry that is appended at a time. -/
def newId (s : LogStream ν) (ms : ℕ) : StreamId :=
  if (ofLex s.last).1 < ms then toLex (ms, 0) else s.last.next

/-- `XADD key * …`. -/
def append (s : LogStream ν) (ms : ℕ) (v : ν) : LogStream ν :=
  ⟨s.entries ++ [(s.newId ms, v)], s.newId ms⟩

/-- An id is at or behind where a reader starts. -/
def From (start : Option StreamId) (i : StreamId) : Prop := ∀ o ∈ start, o ≤ i

instance {start : Option StreamId} {i : StreamId} : Decidable (From start i) :=
  match start with
  | none => isTrue fun _ h => by cases h
  | some o => decidable_of_iff (o ≤ i) ⟨fun h _ ho => Option.some.inj ho ▸ h, fun h => h o rfl⟩

/-- `XRANGE key start +`. -/
def range (s : LogStream ν) (start : Option StreamId) : List (StreamId × ν) :=
  s.entries.filter fun e => From start e.1

theorem last_lt_newId : s.last < s.newId ms := by
  unfold newId
  split
  · next h =>
    rw [Prod.Lex.lt_iff]
    exact .inl h
  · exact StreamId.next_le_iff.1 le_rfl

@[simp] theorem mem_range {start : Option StreamId} {e : StreamId × ν} :
    e ∈ s.range start ↔ e ∈ s.entries ∧ From start e.1 := by
  rw [range, List.mem_filter, decide_eq_true_eq]

theorem mem_append {e : StreamId × ν} :
    e ∈ (s.append ms v).entries ↔ e ∈ s.entries ∨ e = (s.newId ms, v) := by
  rw [append, List.mem_append, List.mem_singleton]

end LogStream

end ChutesApi
