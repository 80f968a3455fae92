import ChutesApi.Metasync.Model.Scoring
import Mathlib.Algebra.Order.BigOperators.Group.List
import Mathlib.Analysis.SpecialFunctions.Pow.Real
/-!
# When the scores are a distribution

The loops of `get_scoring_data` are followed one after the other: the raw
values with the highest unique count, the shares that are divided by it, and
the elimination of a coldkey's other hotkeys. `scored_iff` says for which
rows they get through, and that the scores then are what they should be.
-/

namespace ChutesApi

namespace Metasync

open Python

/-! ## The raw values -/

section

variable {values : Dict String RawValues} {raw : Raw} {hotkey : String}

/-- The unique count of a miner that has raw values. -/
def uniqueOf (values : Dict String RawValues) (hotkey : String) : Option ℕ :=
  (values.get? hotkey).map RawValues.uniqueChuteCount

theorem isSome_uniqueOf : (uniqueOf values hotkey).isSome ↔ hotkey ∈ values.keys := by
  rw [uniqueOf, Option.isSome_map, Dict.isSome_get?]

/-- **The loop over the compute rows**: every named miner, with no unique
chutes yet. -/
theorem uniqueOf_foldl_addCompute {rows : List ComputeRow} :
    uniqueOf (rows.foldl Raw.addCompute values) hotkey =
      if ∃ row ∈ rows, row.hotkey = hotkey ∧ hotkey ≠ "" then some 0
      else uniqueOf values hotkey := by
  induction rows generalizing values with
  | nil => simp
  | cons row rows ih =>
    have hstep : uniqueOf (Raw.addCompute values row) hotkey =
        if row.hotkey = hotkey ∧ hotkey ≠ "" then some 0 else uniqueOf values hotkey := by
      unfold Raw.addCompute
      split
      · next h =>
        rw [if_neg]
        rintro ⟨rfl, hne⟩
        exact hne h
      · next h =>
        rw [uniqueOf, Dict.get?_set]
        by_cases hk : hotkey = row.hotkey
        · rw [if_pos hk, if_pos ⟨hk.symm, hk ▸ h⟩, Option.map_some]
        · rw [if_neg hk, if_neg fun h' => hk h'.1.symm, uniqueOf]
    rw [List.foldl_cons, ih, hstep]
    simp only [List.exists_mem_cons_iff]
    by_cases h : ∃ row ∈ rows, row.hotkey = hotkey ∧ hotkey ≠ ""
    · rw [if_pos h, if_pos (.inr h)]
    · rw [if_neg h]
      simp only [h, or_false]

/-- **One round over the unique rows**, for a miner that is there. -/
theorem addUnique_of_mem {row : UniqueRow} (hne : row.minerHotkey ≠ "")
    (hmem : row.minerHotkey ∈ raw.values.keys) :
    (raw.addUnique row).highestUnique = max raw.highestUnique row.averageActiveChutes ∧
      ∀ hotkey, uniqueOf (raw.addUnique row).values hotkey =
        if hotkey = row.minerHotkey then some row.averageActiveChutes
        else uniqueOf raw.values hotkey := by
  obtain ⟨old, hold⟩ := Dict.mem_keys.1 hmem
  simp only [Raw.addUnique, if_neg hne, hold]
  refine ⟨(max_def_lt _ _).symm, fun hotkey => ?_⟩
  rw [uniqueOf, Dict.get?_set]
  split
  · rfl
  · rfl

/-- A row for no such miner changes nothing. -/
theorem addUnique_of_not_mem {row : UniqueRow}
    (h : ¬(row.minerHotkey ≠ "" ∧ row.minerHotkey ∈ raw.values.keys)) :
    raw.addUnique row = raw := by
  unfold Raw.addUnique
  split
  · rfl
  · next hne => rw [Dict.get?_eq_none.2 fun hmem => h ⟨hne, hmem⟩]

/-- **The highest unique count** bounds the counts and is one of them. -/
structure Raw.Bounded (raw : Raw) : Prop where
  le : ∀ hotkey count, uniqueOf raw.values hotkey = some count → count ≤ raw.highestUnique
  attained : raw.highestUnique = 0 ∨ ∃ hotkey, uniqueOf raw.values hotkey = some raw.highestUnique

/-- A miner that has not been counted keeps the bound attained elsewhere. -/
theorem Raw.Bounded.addUnique {row : UniqueRow} (hb : raw.Bounded)
    (hfresh : ∀ count, uniqueOf raw.values row.minerHotkey = some count → count = 0) :
    (raw.addUnique row).Bounded := by
  by_cases h : row.minerHotkey ≠ "" ∧ row.minerHotkey ∈ raw.values.keys
  swap
  · rwa [addUnique_of_not_mem h]
  obtain ⟨hhighest, hget⟩ := addUnique_of_mem h.1 h.2
  refine ⟨fun hotkey count hcount => ?_, ?_⟩
  · rw [hhighest]
    rw [hget] at hcount
    split at hcount
    · exact Option.some.inj hcount ▸ le_max_right _ _
    · exact (hb.le hotkey count hcount).trans (le_max_left _ _)
  · rw [hhighest]
    rcases le_total row.averageActiveChutes raw.highestUnique with hle | hle
    · rw [max_eq_left hle]
      rcases hb.attained with h0 | ⟨hotkey, hatt⟩
      · exact .inl h0
      · by_cases hk : hotkey = row.minerHotkey
        · exact .inl (hfresh _ (hk ▸ hatt))
        · exact .inr ⟨hotkey, by rw [hget, if_neg hk, hatt]⟩
    · rw [max_eq_right hle]
      exact .inr ⟨row.minerHotkey, by rw [hget, if_pos rfl]⟩

theorem mem_keys_addUnique {row : UniqueRow} :
    hotkey ∈ (raw.addUnique row).values.keys ↔ hotkey ∈ raw.values.keys := by
  by_cases h : row.minerHotkey ≠ "" ∧ row.minerHotkey ∈ raw.values.keys
  · rw [← isSome_uniqueOf, (addUnique_of_mem h.1 h.2).2, ← isSome_uniqueOf]
    split
    · next hk => simpa [hk, isSome_uniqueOf] using h.2
    · rfl
  · rw [addUnique_of_not_mem h]

/-- **The loop over the unique rows** finds the highest count among the
miners that are there. -/
theorem foldl_addUnique {rows : List UniqueRow} (hnd : (rows.map UniqueRow.minerHotkey).Nodup)
    (hb : raw.Bounded) (hfresh : ∀ row ∈ rows, ∀ count,
      uniqueOf raw.values row.minerHotkey = some count → count = 0) :
    (rows.foldl Raw.addUnique raw).Bounded ∧
      (∀ hotkey, hotkey ∈ (rows.foldl Raw.addUnique raw).values.keys ↔
        hotkey ∈ raw.values.keys) ∧
      (0 < (rows.foldl Raw.addUnique raw).highestUnique ↔ 0 < raw.highestUnique ∨
        ∃ row ∈ rows, (row.minerHotkey ≠ "" ∧ row.minerHotkey ∈ raw.values.keys) ∧
          0 < row.averageActiveChutes) := by
  induction rows generalizing raw with
  | nil => exact ⟨hb, by simp, by simp⟩
  | cons row rows ih =>
    rw [List.map_cons, List.nodup_cons] at hnd
    have hother : ∀ row' ∈ rows, row'.minerHotkey ≠ row.minerHotkey := by
      intro row' hrow' heq
      exact hnd.1 (heq ▸ List.mem_map_of_mem hrow')
    obtain ⟨hb', hkeys, hpos⟩ := @ih (raw.addUnique row) hnd.2
      (hb.addUnique (hfresh row List.mem_cons_self)) fun row' hrow' count hcount => by
        refine hfresh row' (List.mem_cons_of_mem row hrow') count ?_
        by_cases h : row.minerHotkey ≠ "" ∧ row.minerHotkey ∈ raw.values.keys
        · rwa [(addUnique_of_mem h.1 h.2).2, if_neg (hother row' hrow')] at hcount
        · rwa [addUnique_of_not_mem h] at hcount
    refine ⟨hb', fun hotkey => (hkeys hotkey).trans mem_keys_addUnique, ?_⟩
    rw [List.foldl_cons, hpos, List.exists_mem_cons_iff, ← or_assoc]
    simp only [mem_keys_addUnique]
    refine or_congr_left ?_
    by_cases h : row.minerHotkey ≠ "" ∧ row.minerHotkey ∈ raw.values.keys
    · rw [(addUnique_of_mem h.1 h.2).1, lt_max_iff]
      simp only [h, ne_eq, not_false_eq_true, and_self, true_and]
    · rw [addUnique_of_not_mem h]
      simp only [h, false_and, or_false]

/-- The private instances leave the unique counts alone. -/
theorem uniqueOf_foldl_addPrivate {rows : List PrivateRow} :
    uniqueOf (rows.foldl Raw.addPrivate values) hotkey = uniqueOf values hotkey := by
  induction rows generalizing values with
  | nil => rfl
  | cons row rows ih =>
    rw [List.foldl_cons, ih]
    unfold Raw.addPrivate
    split
    · rfl
    · next old hold =>
      rw [uniqueOf, Dict.get?_set]
      split
      · next hk => rw [hk, uniqueOf, hold, Option.map_some, Option.map_some]
      · rfl

/-! ## The rows as a whole -/

variable (rows : ScoringRows)

theorem uniqueOf_computed : uniqueOf (rows.compute.foldl Raw.addCompute .empty) hotkey =
    if ∃ row ∈ rows.compute, row.hotkey = hotkey ∧ hotkey ≠ "" then some 0 else none :=
  uniqueOf_foldl_addCompute

theorem mem_keys_computed : hotkey ∈ (rows.compute.foldl Raw.addCompute .empty).keys ↔
    ∃ row ∈ rows.compute, row.hotkey = hotkey ∧ hotkey ≠ "" := by
  rw [← isSome_uniqueOf, uniqueOf_computed]
  split
  · next h => simpa using h
  · next h => simpa using h

/-- **The raw values**: of the named miners, with a highest count that is
positive where one of them has unique chutes. -/
theorem raw_spec : rows.raw.Bounded ∧
    (∀ hotkey, hotkey ∈ rows.raw.values.keys ↔
      ∃ row ∈ rows.compute, row.hotkey = hotkey ∧ hotkey ≠ "") ∧
    (0 < rows.raw.highestUnique ↔ ∃ row ∈ rows.unique,
      (∃ named ∈ rows.compute, named.hotkey = row.minerHotkey ∧ row.minerHotkey ≠ "") ∧
        0 < row.averageActiveChutes) := by
  have hzero : ∀ hotkey count,
      uniqueOf (rows.compute.foldl Raw.addCompute .empty) hotkey = some count → count = 0 := by
    intro hotkey count h
    rw [uniqueOf_computed] at h
    split at h
    · exact (Option.some.inj h).symm
    · cases h
  have hcomputed : Raw.Bounded ⟨rows.compute.foldl Raw.addCompute .empty, 0⟩ :=
    ⟨fun hotkey count h => (hzero hotkey count h).le, .inl rfl⟩
  obtain ⟨hb, hkeys, hpos⟩ := foldl_addUnique rows.nodup_unique hcomputed
    fun row _ count h => hzero row.minerHotkey count h
  refine ⟨⟨fun hotkey count h => ?_, ?_⟩, fun hotkey => ?_, ?_⟩
  · rw [ScoringRows.raw, uniqueOf_foldl_addPrivate] at h
    exact hb.le hotkey count h
  · simp only [ScoringRows.raw, uniqueOf_foldl_addPrivate]
    exact hb.attained
  · rw [← isSome_uniqueOf, ScoringRows.raw, uniqueOf_foldl_addPrivate, isSome_uniqueOf, hkeys,
      mem_keys_computed]
  · refine hpos.trans ?_
    simp only [lt_irrefl, false_or, mem_keys_computed]
    refine exists_congr fun row => and_congr_right fun _ => and_congr_left fun _ => ?_
    exact and_iff_right_of_imp fun ⟨_, _, _, hne⟩ => hne

end

/-! ## The shares -/

section

variable {K : Type} [Field K] [LinearOrder K] [IsStrictOrderedRing K] {pow : K → ℚ → K}
  {raw : Raw}

/-- What is used of a power. -/
structure Power (pow : K → ℚ → K) : Prop where
  nonneg : ∀ x p, 0 ≤ x → 0 ≤ pow x p
  pos : ∀ x p, 0 < x → 0 < pow x p

theorem totalOf_pos {l : List K} (h : ∀ x ∈ l, 0 ≤ x) : 0 < totalOf l := by
  unfold totalOf
  split
  · exact zero_lt_one
  · next hne => exact lt_of_le_of_ne (List.sum_nonneg h) (Ne.symm hne)

theorem Metrics.score_nonneg {m : Metrics K} (h1 : 0 ≤ m.computeUnits)
    (h2 : 0 ≤ m.invocationCount) (h3 : 0 ≤ m.uniqueChuteCount) (h4 : 0 ≤ m.bountyCount) :
    0 ≤ m.score := by
  unfold Metrics.score
  positivity

theorem Metrics.score_pos {m : Metrics K} (h1 : 0 ≤ m.computeUnits)
    (h2 : 0 ≤ m.invocationCount) (h3 : 0 < m.uniqueChuteCount) (h4 : 0 ≤ m.bountyCount) :
    0 < m.score := by
  unfold Metrics.score
  positivity

theorem uniqueShare_nonneg (hp : Power pow) (highest : ℕ) (median : K) (count : ℕ) :
    0 ≤ uniqueShare pow highest median count := by
  unfold uniqueShare
  split
  · exact hp.nonneg _ _ (by positivity)
  · exact hp.nonneg _ _ (by positivity)

theorem uniqueShare_pos (hp : Power pow) {highest count : ℕ} (median : K) (hh : 0 < highest)
    (hc : 0 < count) : 0 < uniqueShare pow highest median count := by
  have hh' : (0 : K) < highest := by exact_mod_cast hh
  have hc' : (0 : K) < count := by exact_mod_cast hc
  unfold uniqueShare
  split
  · exact hp.pos _ _ (by positivity)
  · exact hp.pos _ _ (by positivity)

/-- The shares of a row, before the unique ones are normalised again. -/
theorem normalizedRow_nonneg (hp : Power pow) (raw : Raw) (row : RawValues) :
    0 ≤ (normalizedRow pow raw row).computeUnits ∧
      0 ≤ (normalizedRow pow raw row).invocationCount ∧
      0 ≤ (normalizedRow pow raw row).uniqueChuteCount ∧
      0 ≤ (normalizedRow pow raw row).bountyCount := by
  refine ⟨div_nonneg (NNRat.cast_nonneg _) (totalOf_pos ?_).le,
    div_nonneg (Nat.cast_nonneg _) (totalOf_pos ?_).le, uniqueShare_nonneg hp _ _ _,
    div_nonneg (Nat.cast_nonneg _) (totalOf_pos ?_).le⟩
  · simp only [List.mem_map]
    rintro _ ⟨r, -, rfl⟩
    exact NNRat.cast_nonneg _
  · simp only [List.mem_map]
    rintro _ ⟨r, -, rfl⟩
    exact Nat.cast_nonneg _
  · simp only [List.mem_map]
    rintro _ ⟨r, -, rfl⟩
    exact Nat.cast_nonneg _

/-- **Without unique chutes the first division raises.** -/
theorem normalizedValues_error (hne : raw.values.items ≠ []) (h : raw.highestUnique = 0) :
    normalizedValues pow raw = .error .zeroDivisionError := by
  simp [normalizedValues, divides, hne, h, bind, Except.bind]

theorem sum_pos_of_mem {l : List K} (h : ∀ x ∈ l, 0 ≤ x) {x : K} (hx : x ∈ l) (hpos : 0 < x) :
    0 < l.sum :=
  hpos.trans_le (List.single_le_sum h x hx)

/-- The metrics after the first normalisation. -/
def firstPass (pow : K → ℚ → K) (raw : Raw) : Dict String (Metrics K) :=
  raw.values.map fun _ row => normalizedRow pow raw row

/-- `unique_sum`. -/
def uniqueSum (pow : K → ℚ → K) (raw : Raw) : K :=
  ((firstPass pow raw).values.map Metrics.uniqueChuteCount).sum

/-- `normalized_values`, where no division raises. -/
def renormalized (pow : K → ℚ → K) (raw : Raw) : Dict String (Metrics K) :=
  (firstPass pow raw).map fun _ m =>
    { m with uniqueChuteCount := m.uniqueChuteCount / uniqueSum pow raw }

omit [IsStrictOrderedRing K] in
theorem get?_renormalized {hotkey : String} {m : Metrics K} :
    (renormalized pow raw).get? hotkey = some m ↔ ∃ row, raw.values.get? hotkey = some row ∧
      m = { normalizedRow pow raw row with
        uniqueChuteCount := (normalizedRow pow raw row).uniqueChuteCount / uniqueSum pow raw } := by
  rw [renormalized, firstPass, Dict.get?_map, Dict.get?_map, Option.map_map,
    Option.map_eq_some_iff]
  exact exists_congr fun row => and_congr_right fun _ => eq_comm

/-- **Where some miner has unique chutes, no division raises.** -/
theorem normalizedValues_ok (hp : Power pow) (hb : raw.Bounded)
    (h : raw.values.items = [] ∨ 0 < raw.highestUnique) :
    normalizedValues pow raw = .ok (renormalized pow raw) ∧
      (0 < raw.highestUnique → 0 < uniqueSum pow raw) := by
  have hsum : 0 < raw.highestUnique → 0 < uniqueSum pow raw ∧
      0 < (raw.values.values.map RawValues.uniqueChuteCount).sum := by
    intro hpos
    obtain ⟨hotkey, hatt⟩ := hb.attained.resolve_left hpos.ne'
    obtain ⟨row, hget, hcount⟩ := Option.map_eq_some_iff.1 hatt
    have hrow : row ∈ raw.values.values := Dict.mem_values.2 ⟨hotkey, hget⟩
    have hfirst : normalizedRow pow raw row ∈ (firstPass pow raw).values :=
      Dict.mem_values.2 ⟨hotkey, by rw [firstPass, Dict.get?_map, hget, Option.map_some]⟩
    constructor
    · refine sum_pos_of_mem ?_ (List.mem_map_of_mem hfirst)
        (uniqueShare_pos hp _ hpos (by rw [hcount]; exact hpos))
      simp only [List.mem_map, Dict.mem_values]
      rintro _ ⟨m, ⟨hotkey, hm⟩, rfl⟩
      rw [firstPass, Dict.get?_map] at hm
      obtain ⟨row', -, rfl⟩ := Option.map_eq_some_iff.1 hm
      exact (normalizedRow_nonneg hp raw row').2.2.1
    · have hle := List.single_le_sum (fun n _ => Nat.zero_le n) _
        (List.mem_map_of_mem (f := RawValues.uniqueChuteCount) hrow)
      omega
  refine ⟨?_, fun hpos => (hsum hpos).1⟩
  unfold normalizedValues divides
  rcases h with hnil | hpos
  · have hnil' : (firstPass pow raw).items = [] := by simp [firstPass, Dict.map, hnil]
    simp only [hnil, ne_eq, not_true_eq_false, and_false, if_false]
    unfold firstPass at hnil'
    simp only [hnil', not_true_eq_false, and_false, if_false]
    rfl
  · obtain ⟨h1, h2⟩ := hsum hpos
    have h0 : (raw.highestUnique : K) ≠ 0 := by exact_mod_cast hpos.ne'
    have h2' : (((raw.values.values.map RawValues.uniqueChuteCount).sum : ℕ) : K) ≠ 0 := by
      exact_mod_cast h2.ne'
    have h1' := h1.ne'
    unfold uniqueSum firstPass at h1'
    simp only [h0, h1', h2', false_and, if_false]
    rfl

/-- **Every miner has its score**, and where some miner has unique chutes some
score is positive. -/
theorem scores_of_renormalized (hp : Power pow) (hb : raw.Bounded)
    (h : 0 < raw.highestUnique → 0 < uniqueSum pow raw) :
    (∀ m ∈ (renormalized pow raw).values, raw.highestUnique ≠ 0 → 0 ≤ m.score) ∧
      (0 < raw.highestUnique → ∃ m ∈ (renormalized pow raw).values, 0 < m.score) := by
  constructor
  · intro m hm hne
    obtain ⟨hotkey, hget⟩ := Dict.mem_values.1 hm
    obtain ⟨row, -, rfl⟩ := get?_renormalized.1 hget
    obtain ⟨h1, h2, h3, h4⟩ := normalizedRow_nonneg hp raw row
    exact Metrics.score_nonneg h1 h2 (div_nonneg h3 (h (Nat.pos_of_ne_zero hne)).le) h4
  · intro hpos
    obtain ⟨hotkey, hatt⟩ := hb.attained.resolve_left hpos.ne'
    obtain ⟨row, hget, hcount⟩ := Option.map_eq_some_iff.1 hatt
    obtain ⟨h1, h2, -, h4⟩ := normalizedRow_nonneg hp raw row
    have h3 : 0 < (normalizedRow pow raw row).uniqueChuteCount :=
      uniqueShare_pos hp _ hpos (by rw [hcount]; exact hpos)
    exact ⟨_, Dict.mem_values.2 ⟨hotkey, get?_renormalized.2 ⟨row, hget, rfl⟩⟩,
      Metrics.score_pos h1 h2 (div_pos h3 (h hpos)) h4⟩

end

/-! ## The elimination -/

section

variable {K : Type} [Field K] [LinearOrder K] {hotColdMap : Dict String String}
  {coldkeyCounts : Dict String ℕ} {scores : Dict String K} {hotkeys : List String}
  {acc acc' : Dict String K × List String}

/-- A miner's score before the elimination. -/
def scoreBefore (scores : Dict String K) (hotkey : String) : K := (scores.get? hotkey).getD 0

/-- Only the first hotkey of each coldkey that has none yet keeps its score,
and none of the others of that coldkey has a higher one. -/
structure Eliminated (hotColdMap : Dict String String) (scores : Dict String K)
    (hotkeys used : List String) (before after : Dict String K) : Prop where
  outside : ∀ h ∉ hotkeys, after.get? h = before.get? h
  value : ∀ h ∈ hotkeys, after.get? h = some 0 ∨ after.get? h = some (scoreBefore scores h)
  kept : ∀ h ∈ hotkeys, ∀ coldkey, hotColdMap.get? h = some coldkey → after.get? h ≠ some 0 →
    coldkey ∉ used ∧ ∀ h' ∈ hotkeys, hotColdMap.get? h' = some coldkey →
      scoreBefore scores h' ≤ scoreBefore scores h ∧ (h' ≠ h → after.get? h' = some 0)
  leader : ∀ h ∈ hotkeys, ∀ coldkey, hotColdMap.get? h = some coldkey → coldkey ∉ used →
    ∃ h' ∈ hotkeys, hotColdMap.get? h' = some coldkey ∧
      scoreBefore scores h ≤ scoreBefore scores h' ∧
      after.get? h' = some (scoreBefore scores h')

theorem lookup_eq_ok {κ ν : Type} [DecidableEq κ] {d : Dict κ ν} {k : κ} {v : ν} :
    lookup d k = .ok v ↔ d.get? k = some v := by
  unfold lookup
  split
  · next v' h => simp [h]
  · next h => simp [h]

section

variable {h : String} {coldkey : String} {used : List String} {before after : Dict String K}

/-- The first hotkey is not one of those outside. -/
theorem Eliminated.outside_cons {score : K} {h' : String} (hh' : h' ∉ h :: hotkeys)
    (he : Eliminated hotColdMap scores hotkeys (coldkey :: used) (before.set h score) after) :
    after.get? h' = before.get? h' := by
  rw [List.mem_cons, not_or] at hh'
  rw [he.outside h' hh'.2, Dict.get?_set, if_neg hh'.1]

/-- A later hotkey that keeps its score is of another coldkey than the first,
and keeps it with the first in front. -/
theorem Eliminated.kept_cons {h' coldkey' : String} (hck : hotColdMap.get? h = some coldkey)
    (he : Eliminated hotColdMap scores hotkeys (coldkey :: used) before after) (hh' : h' ∈ hotkeys)
    (hck' : hotColdMap.get? h' = some coldkey') (hne : after.get? h' ≠ some 0) :
    coldkey' ∉ used ∧ ∀ h'' ∈ h :: hotkeys, hotColdMap.get? h'' = some coldkey' →
      scoreBefore scores h'' ≤ scoreBefore scores h' ∧ (h'' ≠ h' → after.get? h'' = some 0) := by
  obtain ⟨hfree, hbest⟩ := he.kept h' hh' coldkey' hck' hne
  rw [List.mem_cons, not_or] at hfree
  refine ⟨hfree.2, fun h'' hh'' hck'' => ?_⟩
  rcases List.mem_cons.1 hh'' with rfl | hh''
  · exact absurd (Option.some.inj (hck''.symm.trans hck)) hfree.1
  · exact hbest h'' hh'' hck''

/-- A later hotkey of another coldkey than the first's has its leader among
the later ones. -/
theorem Eliminated.leader_cons {h' coldkey' : String}
    (he : Eliminated hotColdMap scores hotkeys (coldkey :: used) before after) (hh' : h' ∈ hotkeys)
    (hck' : hotColdMap.get? h' = some coldkey') (hne : coldkey' ≠ coldkey)
    (hfree : coldkey' ∉ used) :
    ∃ h'' ∈ h :: hotkeys, hotColdMap.get? h'' = some coldkey' ∧
      scoreBefore scores h' ≤ scoreBefore scores h'' ∧
      after.get? h'' = some (scoreBefore scores h'') := by
  obtain ⟨h'', hh'', hrest⟩ := he.leader h' hh' coldkey' hck' (by simp [hne, hfree])
  exact ⟨h'', List.mem_cons_of_mem h hh'', hrest⟩

/-- A hotkey whose coldkey has one already gets nothing. -/
theorem Eliminated.drop (hnot : h ∉ hotkeys) (hck : hotColdMap.get? h = some coldkey)
    (hused : coldkey ∈ used)
    (he : Eliminated hotColdMap scores hotkeys (coldkey :: used) (before.set h 0) after) :
    Eliminated hotColdMap scores (h :: hotkeys) used before after := by
  have hzero : after.get? h = some 0 := by
    rw [he.outside h hnot, Dict.get?_set, if_pos rfl]
  refine ⟨fun h' hh' => he.outside_cons hh', fun h' hh' => ?_, fun h' hh' coldkey' hck' hne => ?_,
    fun h' hh' coldkey' hck' hfree => ?_⟩
  · rcases List.mem_cons.1 hh' with rfl | hh'
    · exact .inl hzero
    · exact he.value h' hh'
  · rcases List.mem_cons.1 hh' with rfl | hh'
    · exact absurd hzero hne
    · exact he.kept_cons hck hh' hck' hne
  · rcases List.mem_cons.1 hh' with rfl | hh'
    · exact absurd (Option.some.inj (hck.symm.trans hck') ▸ hused) hfree
    · have hne : coldkey' ≠ coldkey := by
        rintro rfl
        exact hfree hused
      exact he.leader_cons hh' hck' hne hfree

/-- The first hotkey of a coldkey keeps its score, and no later one has
more. -/
theorem Eliminated.keep (hnot : h ∉ hotkeys) (hck : hotColdMap.get? h = some coldkey)
    (hfree : coldkey ∉ used)
    (hbest : ∀ h' ∈ hotkeys, scoreBefore scores h' ≤ scoreBefore scores h)
    (he : Eliminated hotColdMap scores hotkeys (coldkey :: used)
      (before.set h (scoreBefore scores h)) after) :
    Eliminated hotColdMap scores (h :: hotkeys) used before after := by
  have hscore : after.get? h = some (scoreBefore scores h) := by
    rw [he.outside h hnot, Dict.get?_set, if_pos rfl]
  -- The others of the coldkey come after it and get nothing.
  have hothers : ∀ h' ∈ hotkeys, hotColdMap.get? h' = some coldkey → after.get? h' = some 0 := by
    intro h' hh' hck'
    by_contra hne
    exact (he.kept h' hh' coldkey hck' hne).1 List.mem_cons_self
  refine ⟨fun h' hh' => he.outside_cons hh', fun h' hh' => ?_, fun h' hh' coldkey' hck' hne => ?_,
    fun h' hh' coldkey' hck' hfree' => ?_⟩
  · rcases List.mem_cons.1 hh' with rfl | hh'
    · exact .inr hscore
    · exact he.value h' hh'
  · rcases List.mem_cons.1 hh' with rfl | hh'
    · obtain rfl := Option.some.inj (hck.symm.trans hck')
      refine ⟨hfree, fun h'' hh'' hck'' => ?_⟩
      rcases List.mem_cons.1 hh'' with rfl | hh''
      · exact ⟨le_rfl, fun hne => absurd rfl hne⟩
      · exact ⟨hbest h'' hh'', fun _ => hothers h'' hh'' hck''⟩
    · exact he.kept_cons hck hh' hck' hne
  · rcases List.mem_cons.1 hh' with rfl | hh'
    · exact ⟨h', List.mem_cons_self, hck', le_rfl, hscore⟩
    · by_cases hsame : coldkey' = coldkey
      · exact ⟨h, List.mem_cons_self, hsame ▸ hck, hbest h' hh', hscore⟩
      · exact he.leader_cons hh' hck' hsame hfree'

end

/-- **The loop over the hotkeys, highest score first.** -/
theorem exists_foldlM_penalize (acc : Dict String K × List String) (hnd : hotkeys.Nodup)
    (hsorted : hotkeys.Pairwise fun a b => scoreBefore scores b ≤ scoreBefore scores a)
    (hcold : ∀ h ∈ hotkeys, ∃ coldkey, hotColdMap.get? h = some coldkey)
    (hcounts : ∀ h coldkey, hotColdMap.get? h = some coldkey →
      ∃ count, coldkeyCounts.get? coldkey = some count)
    (hscores : ∀ h ∈ hotkeys, scores.get? h = some (scoreBefore scores h)) :
    ∃ acc', hotkeys.foldlM (penalize hotColdMap coldkeyCounts scores) acc = .ok acc' ∧
      Eliminated hotColdMap scores hotkeys acc.2 acc.1 acc'.1 := by
  induction hotkeys generalizing acc with
  | nil => exact ⟨acc, rfl, by simp, by simp, by simp, by simp⟩
  | cons h hs ih =>
    rw [List.nodup_cons] at hnd
    rw [List.pairwise_cons] at hsorted
    obtain ⟨coldkey, hck⟩ := hcold h List.mem_cons_self
    obtain ⟨count, hcount⟩ := hcounts h coldkey hck
    have hrest := fun acc => ih acc hnd.2 hsorted.2
      (fun h' hh' => hcold h' (List.mem_cons_of_mem h hh'))
      fun h' hh' => hscores h' (List.mem_cons_of_mem h hh')
    by_cases hused : coldkey ∈ acc.2
    · obtain ⟨acc', hacc', he⟩ := hrest (acc.1.set h 0, coldkey :: acc.2)
      refine ⟨acc', ?_, he.drop hnd.1 hck hused⟩
      rw [List.foldlM_cons, penalize, lookup_eq_ok.2 hck]
      simp only [bind, Except.bind, hused, if_true, lookup_eq_ok.2 hcount, pure, Except.pure]
      exact hacc'
    · obtain ⟨acc', hacc', he⟩ :=
        hrest (acc.1.set h (scoreBefore scores h), coldkey :: acc.2)
      refine ⟨acc', ?_, he.keep hnd.1 hck hused hsorted.1⟩
      rw [List.foldlM_cons, penalize, lookup_eq_ok.2 hck]
      simp only [bind, Except.bind, hused, if_false,
        lookup_eq_ok.2 (hscores h List.mem_cons_self), pure, Except.pure]
      exact hacc'

omit [LinearOrder K] in
/-- **The loop raises at a hotkey that is not in `hot_cold_map`.** -/
theorem exists_coldkey_of_foldlM
    (h : hotkeys.foldlM (penalize hotColdMap coldkeyCounts scores) acc = .ok acc') :
    ∀ hotkey ∈ hotkeys, ∃ coldkey, hotColdMap.get? hotkey = some coldkey := by
  induction hotkeys generalizing acc with
  | nil => simp
  | cons hotkey hs ih =>
    rw [List.foldlM_cons, bind_eq_ok] at h
    obtain ⟨acc₁, hfirst, hrest⟩ := h
    intro hotkey' hmem
    rcases List.mem_cons.1 hmem with rfl | hmem
    · obtain ⟨coldkey, hck, -⟩ := bind_eq_ok.1 hfirst
      exact ⟨coldkey, lookup_eq_ok.1 hck⟩
    · exact ih hrest hotkey' hmem

/-- The hotkeys as they are gone through: each once, the highest score
first. -/
theorem sortedHotkeys_spec (scores : Dict String K) :
    (sortedHotkeys scores).Nodup ∧
      ((sortedHotkeys scores).Pairwise fun a b => scoreBefore scores b ≤ scoreBefore scores a) ∧
      ∀ h, h ∈ sortedHotkeys scores ↔ h ∈ scores.keys := by
  refine ⟨(List.mergeSort_perm _ _).nodup_iff.2 scores.nodup_keys, ?_, fun h => List.mem_mergeSort⟩
  have hpair : (sortedHotkeys scores).Pairwise fun a b =>
      decide (scoreBefore scores b ≤ scoreBefore scores a) = true :=
    List.pairwise_mergeSort
      (fun a b c hab hbc => by
        rw [decide_eq_true_eq] at hab hbc ⊢
        exact hbc.trans hab)
      (fun a b => by simpa using le_total _ _) scores.keys
  exact hpair.imp fun h => of_decide_eq_true h

end

/-! ## The result -/

namespace ScoringRows

/-- `hot_cold_map`. -/
def hotColdMap (rows : ScoringRows) : Dict String String :=
  Dict.ofList (rows.nodes.map fun (coldkey, hotkey) => (hotkey, coldkey))

/-- `coldkey_counts`. -/
def coldkeyCounts (rows : ScoringRows) : Dict String ℕ :=
  Dict.ofList (rows.hotColdMap.values.map fun coldkey =>
    (coldkey, rows.hotColdMap.values.countP (· = coldkey)))

/-- **The condition on the rows.** Every named miner that computed has a node
with an id that is not negative, and one of them has unique chutes, if there
are any. -/
def Scorable (rows : ScoringRows) : Prop :=
  (∀ row ∈ rows.compute, row.hotkey ≠ "" → row.hotkey ∈ rows.nodes.map Prod.snd) ∧
    ((∀ row ∈ rows.compute, row.hotkey = "") ∨
      ∃ row ∈ rows.unique, (∃ named ∈ rows.compute, named.hotkey = row.minerHotkey ∧
        row.minerHotkey ≠ "") ∧ 0 < row.averageActiveChutes)

end ScoringRows

/-- A raw feature of a miner is positive. -/
def RawValues.Positive (row : RawValues) : Prop :=
  0 < row.computeUnits ∨ 0 < row.invocationCount ∨ 0 < row.uniqueChuteCount ∨ 0 < row.bountyCount

section

variable {K : Type} [Field K] [LinearOrder K]

/-- **The scores are a distribution over the best hotkeys**: they are
positive and sum to one where some raw feature is positive, and of each
coldkey only one hotkey has a score, whose score before the elimination was
the highest. -/
structure Distribution (rows : ScoringRows) (s : Scoring K) : Prop where
  positive : ∀ score ∈ s.finalScores.values, 0 < score
  sum : (∃ row ∈ rows.raw.values.values, row.Positive) → s.finalScores.values.sum = 1
  one : ∀ h ∈ s.finalScores.keys, ∀ h' ∈ s.finalScores.keys,
    rows.hotColdMap.get? h = rows.hotColdMap.get? h' → h = h'
  best : ∀ h ∈ s.finalScores.keys, ∀ h' ∈ s.preFinalScores.keys,
    rows.hotColdMap.get? h = rows.hotColdMap.get? h' →
      scoreBefore s.preFinalScores h' ≤ scoreBefore s.preFinalScores h

variable {rows : ScoringRows} {pow : K → ℚ → K}

theorem mem_keys_hotColdMap {hotkey : String} :
    hotkey ∈ rows.hotColdMap.keys ↔ hotkey ∈ rows.nodes.map Prod.snd := by
  rw [ScoringRows.hotColdMap, Dict.mem_keys_ofList, List.map_map]
  rfl

theorem exists_coldkeyCount {hotkey coldkey : String}
    (h : rows.hotColdMap.get? hotkey = some coldkey) :
    ∃ count, rows.coldkeyCounts.get? coldkey = some count := by
  rw [← Dict.mem_keys, ScoringRows.coldkeyCounts, Dict.mem_keys_ofList, List.map_map]
  exact List.mem_map.2 ⟨coldkey, Dict.mem_values.2 ⟨hotkey, h⟩, rfl⟩

variable [IsStrictOrderedRing K]

/-- The scores before the elimination, where no division raises. -/
def preFinal (pow : K → ℚ → K) (rows : ScoringRows) : Dict String K :=
  (renormalized pow rows.raw).map fun _ metrics => metrics.score

omit [IsStrictOrderedRing K] in
theorem mem_sortedHotkeys {hotkey : String} :
    hotkey ∈ sortedHotkeys (preFinal pow rows) ↔
      ∃ row ∈ rows.compute, row.hotkey = hotkey ∧ hotkey ≠ "" := by
  rw [(sortedHotkeys_spec _).2.2, preFinal, Dict.keys_map, renormalized, Dict.keys_map, firstPass,
    Dict.keys_map, (raw_spec rows).2.1]

theorem items_raw_eq_nil : rows.raw.values.items = [] ↔ ∀ row ∈ rows.compute, row.hotkey = "" := by
  have hkeys : rows.raw.values.items = [] ↔ ∀ hotkey, hotkey ∉ rows.raw.values.keys := by
    rw [← List.eq_nil_iff_forall_not_mem, Dict.keys, List.map_eq_nil_iff]
  rw [hkeys]
  simp only [(raw_spec rows).2.1, not_exists, not_and, ne_eq, not_not]
  exact ⟨fun h row hrow => h _ row hrow rfl, fun h hotkey row hrow heq => heq ▸ h row hrow⟩

/-- Where the shares can be computed, the condition on the unique counts
holds, and the other way round. -/
theorem items_nil_or_highest_pos :
    rows.raw.values.items = [] ∨ 0 < rows.raw.highestUnique ↔
      (∀ row ∈ rows.compute, row.hotkey = "") ∨
        ∃ row ∈ rows.unique, (∃ named ∈ rows.compute, named.hotkey = row.minerHotkey ∧
          row.minerHotkey ≠ "") ∧ 0 < row.averageActiveChutes := by
  rw [items_raw_eq_nil, (raw_spec rows).2.2]

/-- **Getting through says that the rows are scorable.** -/
theorem scorable_of_ok (hp : Power pow) {s : Scoring K} (h : getScoringData pow rows = .ok s) :
    rows.Scorable := by
  unfold getScoringData at h
  obtain ⟨normalized, hnorm, h⟩ := bind_eq_ok.1 h
  obtain ⟨⟨penalized, used⟩, hloop, -⟩ := bind_eq_ok.1 h
  have hdiv : rows.raw.values.items = [] ∨ 0 < rows.raw.highestUnique := by
    by_contra hnot
    rw [not_or, Nat.pos_iff_ne_zero, not_not] at hnot
    rw [normalizedValues_error hnot.1 hnot.2] at hnorm
    cases hnorm
  rw [(normalizedValues_ok hp (raw_spec rows).1 hdiv).1] at hnorm
  obtain rfl := Except.ok.inj hnorm
  refine ⟨fun row hrow hne => ?_, items_nil_or_highest_pos.1 hdiv⟩
  obtain ⟨coldkey, hck⟩ := exists_coldkey_of_foldlM hloop row.hotkey
    (mem_sortedHotkeys.2 ⟨row, hrow, rfl, hne⟩)
  exact mem_keys_hotColdMap.1 (Dict.mem_keys.2 ⟨coldkey, hck⟩)

/-! ## Normalising what is left -/

omit [IsStrictOrderedRing K] in
/-- Dropping the scores that are not positive does not change the sum. -/
theorem sum_filter_pos {l : List (String × K)} (h : ∀ e ∈ l, 0 ≤ e.2) :
    ((l.filter fun e => 0 < e.2).map Prod.snd).sum = (l.map Prod.snd).sum := by
  induction l with
  | nil => rfl
  | cons e l ih =>
    have hrest := ih fun e' he' => h e' (List.mem_cons_of_mem e he')
    rcases (h e List.mem_cons_self).lt_or_eq with hpos | hzero
    · rw [List.filter_cons_of_pos (by simpa using hpos)]
      simp only [List.map_cons, List.sum_cons, hrest]
    · rw [List.filter_cons_of_neg (by simp [← hzero]), hrest, List.map_cons, List.sum_cons,
        ← hzero, zero_add]

/-- The final scores of what the elimination leaves. -/
def finalOf (penalized : Dict String K) : Dict String K :=
  (penalized.filter fun e => 0 < e.2).map fun _ score => score / penalized.values.sum

omit [IsStrictOrderedRing K] in
theorem get?_finalOf {penalized : Dict String K} {hotkey : String} {score : K} :
    (finalOf penalized).get? hotkey = some score ↔ ∃ before, penalized.get? hotkey = some before ∧
      0 < before ∧ score = before / penalized.values.sum := by
  rw [finalOf, Dict.get?_map, Dict.get?_filter, Option.map_eq_some_iff]
  simp only [Option.filter_eq_some_iff, decide_eq_true_eq, and_assoc]
  exact exists_congr fun before => and_congr_right fun _ => and_congr_right fun _ => eq_comm

omit [IsStrictOrderedRing K] in
/-- **The final scores sum to one** where some score is left. -/
theorem sum_finalOf {penalized : Dict String K} (h : ∀ score ∈ penalized.values, 0 ≤ score)
    (hsum : penalized.values.sum ≠ 0) : (finalOf penalized).values.sum = 1 := by
  have hvalues : (finalOf penalized).values =
      ((penalized.items.filter fun e => 0 < e.2).map Prod.snd).map
        fun score => score * penalized.values.sum⁻¹ := by
    simp [finalOf, Dict.values, Dict.map, Dict.filter, Function.comp_def, div_eq_mul_inv]
  rw [hvalues, List.sum_map_mul_right, List.map_id', sum_filter_pos]
  · exact mul_inv_cancel₀ hsum
  · intro e he
    exact h e.2 (List.mem_map_of_mem he)

/-- What the elimination leaves of the scores of scorable rows. -/
structure Left (pow : K → ℚ → K) (rows : ScoringRows) (penalized : Dict String K) : Prop where
  eliminated : Eliminated rows.hotColdMap (preFinal pow rows) (sortedHotkeys (preFinal pow rows))
    [] .empty penalized
  coldkey : ∀ h ∈ sortedHotkeys (preFinal pow rows), ∃ coldkey,
    rows.hotColdMap.get? h = some coldkey
  nonneg : ∀ score ∈ penalized.values, 0 ≤ score
  sum_pos : (∃ score ∈ penalized.values, 0 < score) → 0 < penalized.values.sum
  exists_pos : rows.raw.values.items ≠ [] → ∃ score ∈ penalized.values, 0 < score

omit [IsStrictOrderedRing K] in
theorem Left.mem_of_get? {penalized : Dict String K} (hl : Left pow rows penalized)
    {hotkey : String} {score : K} (h : penalized.get? hotkey = some score) :
    hotkey ∈ sortedHotkeys (preFinal pow rows) := by
  by_contra hnot
  rw [hl.eliminated.outside hotkey hnot] at h
  cases h

/-- **The loops get through on scorable rows.** -/
theorem exists_left (hp : Power pow) (h : rows.Scorable) :
    ∃ penalized used, (sortedHotkeys (preFinal pow rows)).foldlM
        (penalize rows.hotColdMap rows.coldkeyCounts (preFinal pow rows)) (.empty, []) =
          .ok (penalized, used) ∧ Left pow rows penalized := by
  have hdiv := items_nil_or_highest_pos.2 h.2
  obtain ⟨hb, hkeys, -⟩ := raw_spec rows
  obtain ⟨hnonneg, hpos⟩ := scores_of_renormalized hp hb (normalizedValues_ok hp hb hdiv).2
  obtain ⟨hnd, hsorted, hmem⟩ := sortedHotkeys_spec (preFinal pow rows)
  have hcold : ∀ hotkey ∈ sortedHotkeys (preFinal pow rows), ∃ coldkey,
      rows.hotColdMap.get? hotkey = some coldkey := by
    intro hotkey hin
    obtain ⟨row, hrow, rfl, hne⟩ := mem_sortedHotkeys.1 hin
    exact Dict.mem_keys.1 (mem_keys_hotColdMap.2 (h.1 row hrow hne))
  have hscores : ∀ hotkey ∈ sortedHotkeys (preFinal pow rows),
      (preFinal pow rows).get? hotkey = some (scoreBefore (preFinal pow rows) hotkey) := by
    intro hotkey hin
    obtain ⟨score, hscore⟩ := Dict.mem_keys.1 ((hmem hotkey).1 hin)
    rw [scoreBefore, hscore, Option.getD_some]
  obtain ⟨⟨penalized, used⟩, hloop, he⟩ := exists_foldlM_penalize (.empty, []) hnd hsorted hcold
    (fun _ _ hck => exists_coldkeyCount hck) hscores
  -- A score before the elimination is that of a miner with shares.
  have hbefore : ∀ hotkey ∈ sortedHotkeys (preFinal pow rows), ∃ m,
      (renormalized pow rows.raw).get? hotkey = some m ∧
        scoreBefore (preFinal pow rows) hotkey = m.score := by
    intro hotkey hin
    have hget := hscores hotkey hin
    rw [preFinal, Dict.get?_map, Option.map_eq_some_iff] at hget
    obtain ⟨m, hm, hscore⟩ := hget
    exact ⟨m, hm, hscore.symm⟩
  have hleft : ∀ score ∈ penalized.values, 0 ≤ score := by
    intro score hscore
    obtain ⟨hotkey, hget⟩ := Dict.mem_values.1 hscore
    by_cases hin : hotkey ∈ sortedHotkeys (preFinal pow rows)
    · rcases he.value hotkey hin with hz | hv
      · rw [hget, Option.some.injEq] at hz
        exact hz.ge
      · obtain ⟨m, hm, hms⟩ := hbefore hotkey hin
        rw [hget, Option.some.injEq, hms] at hv
        have hne : rows.raw.highestUnique ≠ 0 := by
          refine (hdiv.resolve_left fun hnil => ?_).ne'
          obtain ⟨row, hrow, -⟩ := get?_renormalized.1 hm
          rw [Dict.get?_eq_some, hnil] at hrow
          cases hrow
        exact hv ▸ hnonneg m (Dict.mem_values.2 ⟨hotkey, hm⟩) hne
    · rw [he.outside hotkey hin] at hget
      cases hget
  refine ⟨penalized, used, hloop, he, hcold, hleft, ?_, fun hne => ?_⟩
  · rintro ⟨score, hscore, hpos⟩
    exact sum_pos_of_mem hleft hscore hpos
  · obtain ⟨m, hm, hmpos⟩ := hpos (hdiv.resolve_left hne)
    obtain ⟨hotkey, hget⟩ := Dict.mem_values.1 hm
    obtain ⟨row, hrow, -⟩ := get?_renormalized.1 hget
    have hin : hotkey ∈ sortedHotkeys (preFinal pow rows) :=
      mem_sortedHotkeys.2 ((hkeys hotkey).1 (Dict.mem_keys.2 ⟨row, hrow⟩))
    obtain ⟨m', hm', hms⟩ := hbefore hotkey hin
    obtain rfl := Option.some.inj (hget.symm.trans hm')
    obtain ⟨coldkey, hck⟩ := hcold hotkey hin
    obtain ⟨leader, -, -, hle, hlead⟩ := he.leader hotkey hin coldkey hck (by simp)
    exact ⟨_, Dict.mem_values.2 ⟨leader, hlead⟩, (hms ▸ hmpos).trans_le hle⟩

/-- **`get_scoring_data` returns on scorable rows.** -/
theorem getScoringData_of_scorable (hp : Power pow) (h : rows.Scorable) :
    ∃ penalized, Left pow rows penalized ∧
      getScoringData pow rows = .ok ⟨preFinal pow rows, finalOf penalized⟩ := by
  obtain ⟨penalized, used, hloop, hl⟩ := exists_left hp h
  refine ⟨penalized, hl, ?_⟩
  have hnorm := (normalizedValues_ok hp (raw_spec rows).1 (items_nil_or_highest_pos.2 h.2)).1
  have htotal : divides (penalized.filter fun e => 0 < e.2).items penalized.values.sum =
      .ok () := by
    unfold divides
    refine if_neg fun ⟨hzero, hne⟩ => ?_
    obtain ⟨e, he⟩ := List.exists_mem_of_ne_nil _ hne
    rw [Dict.filter, List.mem_filter, decide_eq_true_eq] at he
    exact (hl.sum_pos ⟨e.2, List.mem_map_of_mem he.1, he.2⟩).ne' hzero
  have hlog : (sortedHotkeys (finalOf penalized)).forM (fun hotkey => do
      let _ ← lookup rows.coldkeyCounts (← lookup rows.hotColdMap hotkey)) = .ok () := by
    refine forM_eq_ok fun hotkey hin => ?_
    obtain ⟨score, hget⟩ := Dict.mem_keys.1 (((sortedHotkeys_spec _).2.2 hotkey).1 hin)
    obtain ⟨before, hbefore, -⟩ := get?_finalOf.1 hget
    obtain ⟨coldkey, hck⟩ := hl.coldkey hotkey (hl.mem_of_get? hbefore)
    obtain ⟨count, hcount⟩ := exists_coldkeyCount hck
    rw [lookup_eq_ok.2 hck]
    simp only [bind, Except.bind, lookup_eq_ok.2 hcount]
    rfl
  unfold getScoringData
  rw [hnorm]
  change ((sortedHotkeys (preFinal pow rows)).foldlM
    (penalize rows.hotColdMap rows.coldkeyCounts (preFinal pow rows)) (.empty, [])) >>= _ = _
  rw [hloop]
  change (divides (penalized.filter fun e => 0 < e.2).items penalized.values.sum) >>= _ = _
  rw [htotal]
  change ((sortedHotkeys (finalOf penalized)).forM (fun hotkey => do
      let _ ← lookup rows.coldkeyCounts (← lookup rows.hotColdMap hotkey))) >>= _ = _
  rw [hlog]
  rfl

/-- **What it returns is a distribution over the best hotkeys.** -/
theorem Left.distribution {penalized : Dict String K} (hl : Left pow rows penalized) :
    Distribution rows ⟨preFinal pow rows, finalOf penalized⟩ := by
  have hscored : ∀ h ∈ (finalOf penalized).keys, h ∈ sortedHotkeys (preFinal pow rows) ∧
      penalized.get? h ≠ some 0 := by
    intro h hin
    obtain ⟨score, hget⟩ := Dict.mem_keys.1 hin
    obtain ⟨before, hbefore, hpos, -⟩ := get?_finalOf.1 hget
    refine ⟨hl.mem_of_get? hbefore, fun hzero => ?_⟩
    rw [hbefore, Option.some.injEq] at hzero
    exact hpos.ne' hzero
  refine ⟨fun score hscore => ?_, fun ⟨row, hrow, _⟩ => ?_, fun h hin h' hin' hck => ?_,
    fun h hin h' hin' hck => ?_⟩
  · obtain ⟨hotkey, hget⟩ := Dict.mem_values.1 hscore
    obtain ⟨before, hbefore, hpos, rfl⟩ := get?_finalOf.1 hget
    exact div_pos hpos (hl.sum_pos ⟨before, Dict.mem_values.2 ⟨hotkey, hbefore⟩, hpos⟩)
  · have hne : rows.raw.values.items ≠ [] := by
      intro hnil
      rw [Dict.values, hnil] at hrow
      cases hrow
    exact sum_finalOf hl.nonneg (hl.sum_pos (hl.exists_pos hne)).ne'
  · obtain ⟨hmem, hne⟩ := hscored h hin
    obtain ⟨hmem', hne'⟩ := hscored h' hin'
    obtain ⟨coldkey, hc⟩ := hl.coldkey h hmem
    by_contra hdiff
    exact hne' (((hl.eliminated.kept h hmem coldkey hc hne).2 h' hmem' (hck ▸ hc)).2
      (Ne.symm hdiff))
  · obtain ⟨hmem, hne⟩ := hscored h hin
    obtain ⟨coldkey, hc⟩ := hl.coldkey h hmem
    have hmem' := ((sortedHotkeys_spec _).2.2 h').2 hin'
    exact ((hl.eliminated.kept h hmem coldkey hc hne).2 h' hmem' (hck ▸ hc)).1

end

/-- `x ** y`. -/
noncomputable def realPow (x : ℝ) (p : ℚ) : ℝ := x ^ (p : ℝ)

theorem power_realPow : Power realPow :=
  ⟨fun _ _ h => Real.rpow_nonneg h _, fun _ _ h => Real.rpow_pos_of_pos h _⟩

/-- **The scores are computed, and a distribution over the best hotkeys,
exactly on scorable rows.** -/
theorem scored_iff (rows : ScoringRows) :
    (∃ s, getScoringData realPow rows = .ok s ∧ Distribution rows s) ↔ rows.Scorable := by
  constructor
  · rintro ⟨s, hs, -⟩
    exact scorable_of_ok power_realPow hs
  · intro h
    obtain ⟨penalized, hl, hs⟩ := getScoringData_of_scorable power_realPow h
    exact ⟨_, hs, hl.distribution⟩

/-- One miner that computed and has no unique chutes. -/
def noUniqueChutes : ScoringRows where
  nodes := [("cold", "5A")]
  compute := [⟨"5A", 1, 0, 1⟩]
  unique := [⟨"5A", 0⟩]
  privateInstances := []
  nodup_nodes := by decide
  nodup_compute := by decide
  nodup_unique := by decide
  nodup_private := by decide

/-- **The scores are not always computed**: without unique chutes the first
division is by zero. -/
theorem not_scored : ¬ ∀ rows : ScoringRows,
    ∃ s, getScoringData realPow rows = .ok s ∧ Distribution rows s := by
  intro h
  obtain ⟨s, hs, -⟩ := h noUniqueChutes
  obtain ⟨-, hunique⟩ := scorable_of_ok power_realPow hs
  revert hunique
  decide

end Metasync

end ChutesApi
