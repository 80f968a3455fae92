import ChutesApi.Python.Exc
import Mathlib.Data.List.Nodup
/-!
# Looking a row up

A query that should find one row either takes the first of those it finds,
`limitOne`, where the order leaves ties the database breaks as it likes, or
raises unless there is one, `scalarOneOrNone`. `Exactly` says that such a
lookup finds only what was asked for, and what has the id that was asked
for; `exactly_limitOne_iff` and `exactly_filter_iff` say of which rows and
conditions that holds.
-/

namespace ChutesApi

namespace Select

open Python

variable {α : Type*}

/-- The rows an order by `first` puts at the head. -/
def leaders (first : α → Bool) (rows : List α) : List α :=
  if rows.any first then rows.filter first else rows

/-- **`ORDER BY first DESC LIMIT 1`.** The database breaks ties by `pick`. -/
def limitOne (first : α → Bool) (rows : List α) (pick : ℕ) : List α :=
  let rows := leaders first rows
  (rows[pick % rows.length]?).toList

/-- **A lookup is exact**: it selects only rows that are `wanted`, and of the
rows that are there the one with the id, however ties are broken. -/
structure Exactly (rows : List α) (wanted hasId : α → Prop)
    (select : ℕ → Except Exc (Option α)) : Prop where
  only : ∀ pick a, select pick = .ok (some a) → wanted a
  byId : ∀ a ∈ rows, hasId a → ∀ pick, select pick = .ok (some a)

variable {first p : α → Bool} {rows : List α} {wanted hasId : α → Prop} {a : α}

theorem mem_leaders :
    a ∈ leaders first rows ↔ a ∈ rows ∧ (first a ∨ ∀ b ∈ rows, ¬first b) := by
  unfold leaders
  split
  case isTrue h =>
    obtain ⟨b, hb, hfirst⟩ := List.any_eq_true.1 h
    rw [List.mem_filter]
    refine and_congr_right fun _ => ⟨.inl, fun ha => ha.resolve_right fun hnone => ?_⟩
    exact hnone b hb hfirst
  case isFalse h =>
    have hnone : ∀ b ∈ rows, ¬first b := fun b hb hfirst => h (List.any_eq_true.2 ⟨b, hb, hfirst⟩)
    exact ⟨fun ha => ⟨ha, .inr hnone⟩, And.left⟩

theorem select_limitOne {pick : ℕ} :
    scalarOneOrNone (limitOne first rows pick) = .ok (some a) ↔
      (leaders first rows)[pick % (leaders first rows).length]? = some a := by
  rw [scalarOneOrNone_eq_some, limitOne]
  cases (leaders first rows)[pick % (leaders first rows).length]? with
  | none => simp
  | some b => simp

/-- What the limit may leave are the rows at the head. -/
theorem exists_select_limitOne :
    (∃ pick, scalarOneOrNone (limitOne first rows pick) = .ok (some a)) ↔
      a ∈ leaders first rows := by
  simp only [select_limitOne]
  constructor
  · rintro ⟨pick, h⟩
    exact List.mem_of_getElem? h
  · intro h
    obtain ⟨i, hi, ha⟩ := List.getElem_of_mem h
    refine ⟨i, ?_⟩
    rw [Nat.mod_eq_of_lt hi, List.getElem?_eq_getElem hi, ha]

/-- What the limit always leaves is alone at the head. -/
theorem forall_select_limitOne :
    (∀ pick, scalarOneOrNone (limitOne first rows pick) = .ok (some a)) ↔
      a ∈ leaders first rows ∧ ∀ b ∈ leaders first rows, b = a := by
  constructor
  · intro h
    refine ⟨exists_select_limitOne.1 ⟨0, h 0⟩, fun b hb => ?_⟩
    obtain ⟨pick, hpick⟩ := exists_select_limitOne.2 hb
    have heq := hpick.symm.trans (h pick)
    injection heq with heq
    injection heq
  · rintro ⟨hmem, hall⟩ pick
    have hpos : 0 < (leaders first rows).length := List.length_pos_of_mem hmem
    have hlt := Nat.mod_lt pick hpos
    rw [select_limitOne, List.getElem?_eq_getElem hlt, hall _ (List.getElem_mem hlt)]

/-- A row is alone at the head when it comes before every other. -/
theorem alone_iff :
    (a ∈ leaders first rows ∧ ∀ b ∈ leaders first rows, b = a) ↔
      a ∈ rows ∧ ∀ b ∈ rows, b ≠ a → first a ∧ ¬first b := by
  simp only [mem_leaders]
  constructor
  · rintro ⟨⟨ha, hfirst⟩, hall⟩
    refine ⟨ha, fun b hb hne => ?_⟩
    -- another row is not at the head, so it is behind this one
    have hbehind : ¬(first b ∨ ∀ d ∈ rows, ¬first d) := fun h => hne (hall b ⟨hb, h⟩)
    rw [not_or] at hbehind
    exact ⟨hfirst.resolve_right hbehind.2, hbehind.1⟩
  · rintro ⟨ha, hothers⟩
    have hfirst : first a ∨ ∀ b ∈ rows, ¬first b := by
      by_cases hfa : first a
      · exact .inl hfa
      · refine .inr fun b hb => ?_
        by_cases hba : b = a
        · exact hba ▸ hfa
        · exact absurd (hothers b hb hba).1 hfa
    refine ⟨⟨ha, hfirst⟩, fun b ⟨hb, hbfirst⟩ => ?_⟩
    by_contra hba
    obtain ⟨hfa, hfb⟩ := hothers b hb hba
    exact hbfirst.elim hfb fun hnone => hnone a ha hfa

/-- **When the first of the rows found is the right one**: what the condition
finds is wanted, unless it comes after another that is found, and the row with
the id is found before any other. -/
theorem exactly_limitOne_iff :
    Exactly rows wanted hasId
        (fun pick => scalarOneOrNone (limitOne first (rows.filter p) pick)) ↔
      (∀ a ∈ rows, p a → wanted a ∨ ¬first a ∧ ∃ b ∈ rows, p b ∧ first b) ∧
        ∀ a ∈ rows, hasId a → p a ∧ ∀ b ∈ rows, b ≠ a → p b → first a ∧ ¬first b := by
  have hmay : ∀ a, (∃ pick, scalarOneOrNone (limitOne first (rows.filter p) pick) =
      .ok (some a)) ↔ a ∈ rows ∧ p a ∧ (first a ∨ ∀ b ∈ rows, p b → ¬first b) := fun a => by
    rw [exists_select_limitOne, mem_leaders]
    simp only [List.mem_filter, and_imp, and_assoc]
  have hmust : ∀ a, (∀ pick, scalarOneOrNone (limitOne first (rows.filter p) pick) =
      .ok (some a)) ↔ a ∈ rows ∧ p a ∧ ∀ b ∈ rows, b ≠ a → p b → first a ∧ ¬first b :=
    fun a => by
    rw [forall_select_limitOne, alone_iff]
    simp only [List.mem_filter, and_imp, and_assoc, imp.swap (a := p _)]
  constructor
  · rintro ⟨honly, hid⟩
    refine ⟨fun a ha hp => ?_, fun a ha hhas => ((hmust a).1 (hid a ha hhas)).2⟩
    by_cases hhead : first a ∨ ∀ b ∈ rows, p b → ¬first b
    · obtain ⟨pick, hpick⟩ := (hmay a).2 ⟨ha, hp, hhead⟩
      exact .inl (honly pick a hpick)
    · rw [not_or] at hhead
      push Not at hhead
      obtain ⟨hbehind, b, hb, hpb, hbfirst⟩ := hhead
      exact .inr ⟨by simpa using hbehind, b, hb, hpb, hbfirst⟩
  · rintro ⟨honly, hid⟩
    refine ⟨fun pick a hpick => ?_, fun a ha hhas => (hmust a).2 ⟨ha, hid a ha hhas⟩⟩
    obtain ⟨ha, hp, hfirst⟩ := (hmay a).1 ⟨pick, hpick⟩
    refine (honly a ha hp).resolve_right ?_
    rintro ⟨hna, b, hb, hpb, hbfirst⟩
    exact hfirst.elim hna fun hnone => hnone b hb hpb hbfirst

/-- Among distinct rows, a condition that finds one finds no other. -/
theorem filter_eq_singleton (h : rows.Nodup) :
    rows.filter p = [a] ↔ a ∈ rows ∧ p a ∧ ∀ b ∈ rows, b ≠ a → ¬p b := by
  constructor
  · intro heq
    have hmem : ∀ b, b ∈ rows ∧ p b ↔ b = a := fun b => by
      rw [← List.mem_filter, heq, List.mem_singleton]
    obtain ⟨ha, hp⟩ := (hmem a).2 rfl
    exact ⟨ha, hp, fun b hb hne hpb => hne ((hmem b).1 ⟨hb, hpb⟩)⟩
  · rintro ⟨ha, hp, hothers⟩
    have hperm : (rows.filter p).Perm [a] := by
      refine (List.perm_ext_iff_of_nodup (h.filter p) (List.nodup_singleton a)).2 fun b => ?_
      rw [List.mem_filter, List.mem_singleton]
      exact ⟨fun hb => by_contra fun hne => hothers b hb.1 hne hb.2, fun hb => hb ▸ ⟨ha, hp⟩⟩
    exact List.perm_singleton.1 hperm

/-- **When the only row found is the right one**: what the condition finds is
wanted, unless it finds another too, and with the row of the id it finds no
other. -/
theorem exactly_filter_iff (h : rows.Nodup) :
    Exactly rows wanted hasId (fun _ => scalarOneOrNone (rows.filter p)) ↔
      (∀ a ∈ rows, p a → wanted a ∨ ∃ b ∈ rows, b ≠ a ∧ p b) ∧
        ∀ a ∈ rows, hasId a → p a ∧ ∀ b ∈ rows, b ≠ a → ¬p b := by
  have hselect : ∀ a, scalarOneOrNone (rows.filter p) = .ok (some a) ↔
      a ∈ rows ∧ p a ∧ ∀ b ∈ rows, b ≠ a → ¬p b := fun a => by
    rw [scalarOneOrNone_eq_some, filter_eq_singleton h]
  constructor
  · rintro ⟨honly, hid⟩
    refine ⟨fun a ha hp => ?_, fun a ha hhas => ((hselect a).1 (hid a ha hhas 0)).2⟩
    by_cases hother : ∃ b ∈ rows, b ≠ a ∧ p b
    · exact .inr hother
    · push Not at hother
      have honlyOne : ∀ b ∈ rows, b ≠ a → ¬p b := fun b hb hne => by simpa using hother b hb hne
      exact .inl (honly 0 a ((hselect a).2 ⟨ha, hp, honlyOne⟩))
  · rintro ⟨honly, hid⟩
    refine ⟨fun _ a hsel => ?_, fun a ha hhas _ => (hselect a).2 ⟨ha, hid a ha hhas⟩⟩
    obtain ⟨ha, hp, hothers⟩ := (hselect a).1 hsel
    refine (honly a ha hp).resolve_right ?_
    rintro ⟨b, hb, hne, hpb⟩
    exact hothers b hb hne hpb

/-! ## Conditions an id meets -/

/-- A row the id is of needs no check that it is wanted. -/
theorem only_iff (isIt : α → Prop) {q X : α → Prop}
    (hp : ∀ a ∈ rows, p a ↔ isIt a ∨ q a) (hwanted : ∀ a, isIt a → wanted a) :
    (∀ a ∈ rows, p a → wanted a ∨ X a) ↔ ∀ a ∈ rows, q a → wanted a ∨ X a := by
  refine forall₂_congr fun a ha => ?_
  rw [hp a ha]
  exact ⟨fun h hq => h (.inr hq), fun h => Or.rec (fun hit => .inl (hwanted a hit)) h⟩

/-- The id of one row finds it, and others by what else the condition asks. -/
theorem byId_iff {q : α → Prop} {R : α → α → Prop}
    (hp : ∀ a ∈ rows, hasId a → ∀ b ∈ rows, p b ↔ b = a ∨ q b) :
    (∀ a ∈ rows, hasId a → p a ∧ ∀ b ∈ rows, b ≠ a → p b → R a b) ↔
      ∀ a ∈ rows, hasId a → ∀ b ∈ rows, b ≠ a → q b → R a b := by
  refine forall₃_congr fun a ha hid => ?_
  have hfound : p a := (hp a ha hid a ha).2 (.inl rfl)
  refine (and_iff_right hfound).trans (forall₃_congr fun b hb hne => ?_)
  rw [hp a ha hid b hb, or_iff_right hne]

/-- A lookup that finds nothing is exact where nothing has the id. -/
theorem exactly_none_iff :
    Exactly rows wanted hasId (fun _ => .ok none) ↔ ∀ a ∈ rows, ¬hasId a := by
  constructor
  · intro h a ha hid
    cases h.byId a ha hid 0
  · intro h
    exact ⟨fun _ _ hsel => (nomatch hsel), fun a ha hid => absurd hid (h a ha)⟩

end Select

end ChutesApi
