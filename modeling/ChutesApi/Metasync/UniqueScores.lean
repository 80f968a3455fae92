import ChutesApi.Metasync.Scoring
/-!
# The unique scores are in the order of the counts

The exponent of a miner's share changes at the median. A share is at most 1,
so that the larger exponent below the median gives the smaller power, and
the order is kept across it (`uniqueShare_le_uniqueShare`). The division by
the sum keeps it as well.
-/

namespace ChutesApi

namespace Metasync

open Python

variable {raw : Raw} {highestUnique : ℕ}

theorem realPow_le_realPow {x y : ℝ} {p : ℚ} (hp : 0 ≤ p) (hx : 0 ≤ x) (hxy : x ≤ y) :
    realPow x p ≤ realPow y p :=
  Real.rpow_le_rpow hx hxy (by exact_mod_cast hp)

/-- The larger power of a share is the smaller number. -/
theorem realPow_le_of_exponent {x : ℝ} {p q : ℚ} (hp : 0 ≤ p) (hpq : p ≤ q) (h0 : 0 ≤ x)
    (h1 : x ≤ 1) : realPow x q ≤ realPow x p :=
  Real.rpow_le_rpow_of_exponent_ge' h0 h1 (by exact_mod_cast hp) (by exact_mod_cast hpq)

/-- **The share of a higher count is no lower**, on either side of the median
and across it. -/
theorem uniqueShare_le_uniqueShare {count count' : ℕ} (median : ℝ) (hle : count ≤ count')
    (hmax : count ≤ highestUnique) :
    uniqueShare realPow highestUnique median count ≤
      uniqueShare realPow highestUnique median count' := by
  have h0 : (0 : ℝ) ≤ (count : ℝ) / highestUnique := by positivity
  have h1 : (count : ℝ) / highestUnique ≤ 1 :=
    div_le_one_of_le₀ (by exact_mod_cast hmax) (Nat.cast_nonneg _)
  have hshare : (count : ℝ) / highestUnique ≤ (count' : ℝ) / highestUnique :=
    div_le_div_of_nonneg_right (by exact_mod_cast hle) (Nat.cast_nonneg _)
  unfold uniqueShare
  by_cases hmedian : median ≤ count
  · have hmedian' : median ≤ count' := hmedian.trans (by exact_mod_cast hle)
    rw [if_pos hmedian, if_pos hmedian']
    exact realPow_le_realPow (by norm_num) h0 hshare
  · rw [if_neg hmedian]
    by_cases hmedian' : median ≤ count'
    · -- the two counts are on different sides: first the exponent, then the share
      rw [if_pos hmedian']
      calc realPow ((count : ℝ) / highestUnique) (22 / 10)
          ≤ realPow ((count : ℝ) / highestUnique) (13 / 10) :=
            realPow_le_of_exponent (by norm_num) (by norm_num) h0 h1
        _ ≤ realPow ((count' : ℝ) / highestUnique) (13 / 10) :=
            realPow_le_realPow (by norm_num) h0 hshare
    · rw [if_neg hmedian']
      exact realPow_le_realPow (by norm_num) h0 hshare

/-- The unique scores of miners with these raw values: everyone has one, they
are in the order of the counts, and their sum is 1. -/
structure UniqueScores (values : Dict String RawValues) (normalized : Dict String (Metrics ℝ)) :
    Prop where
  keys : normalized.keys = values.keys
  mono : ∀ a b rowA rowB metricsA metricsB, values.get? a = some rowA → values.get? b = some rowB →
    normalized.get? a = some metricsA → normalized.get? b = some metricsB →
    rowB.uniqueChuteCount ≤ rowA.uniqueChuteCount →
    metricsB.uniqueChuteCount ≤ metricsA.uniqueChuteCount
  sum : (normalized.values.map Metrics.uniqueChuteCount).sum = 1

theorem sum_renormalized (h : uniqueSum realPow raw ≠ 0) :
    ((renormalized realPow raw).values.map Metrics.uniqueChuteCount).sum = 1 := by
  have hvalues : (renormalized realPow raw).values.map Metrics.uniqueChuteCount =
      ((firstPass realPow raw).values.map Metrics.uniqueChuteCount).map
        fun share => share * (uniqueSum realPow raw)⁻¹ := by
    simp [renormalized, Dict.values, Dict.map, Function.comp_def, div_eq_mul_inv]
  have hsum : ((firstPass realPow raw).values.map Metrics.uniqueChuteCount).sum =
      uniqueSum realPow raw := rfl
  rw [hvalues, List.sum_map_mul_right, List.map_id', hsum, mul_inv_cancel₀ h]

theorem uniqueScores_renormalized (hb : raw.Bounded) (hpos : 0 < uniqueSum realPow raw) :
    UniqueScores raw.values (renormalized realPow raw) where
  keys := by rw [renormalized, firstPass, Dict.keys_map, Dict.keys_map]
  mono a b rowA rowB metricsA metricsB hrowA hrowB hmetricsA hmetricsB hle := by
    obtain ⟨_, hA, rfl⟩ := get?_renormalized.1 hmetricsA
    obtain ⟨_, hB, rfl⟩ := get?_renormalized.1 hmetricsB
    obtain rfl := Option.some.inj (hrowA.symm.trans hA)
    obtain rfl := Option.some.inj (hrowB.symm.trans hB)
    have hmax : rowB.uniqueChuteCount ≤ raw.highestUnique :=
      hb.le b _ (by rw [uniqueOf, hrowB, Option.map_some])
    exact div_le_div_of_nonneg_right (uniqueShare_le_uniqueShare _ hle hmax) hpos.le
  sum := sum_renormalized hpos.ne'

/-- **The unique scores are monotone** in the counts, where some miner has
unique chutes, and their sum is 1. -/
theorem uniqueScores_of_pos (rows : ScoringRows)
    (h : ∃ row ∈ rows.raw.values.values, 0 < row.uniqueChuteCount) :
    ∃ normalized, normalizedValues realPow rows.raw = .ok normalized ∧
      UniqueScores rows.raw.values normalized := by
  obtain ⟨row, hrow, hcount⟩ := h
  obtain ⟨hotkey, hget⟩ := Dict.mem_values.1 hrow
  have hb := (raw_spec rows).1
  have hhighest : 0 < rows.raw.highestUnique :=
    hcount.trans_le (hb.le hotkey _ (by rw [uniqueOf, hget, Option.map_some]))
  obtain ⟨hok, hpos⟩ := normalizedValues_ok power_realPow hb (.inr hhighest)
  exact ⟨_, hok, uniqueScores_renormalized hb (hpos hhighest)⟩

/-- Two miners with counts on different sides of the median. -/
def twoMiners : ScoringRows where
  nodes := [("cold", "5A"), ("warm", "5B")]
  compute := [⟨"5A", 1, 0, 1⟩, ⟨"5B", 1, 0, 1⟩]
  unique := [⟨"5A", 4⟩, ⟨"5B", 1⟩]
  privateInstances := []
  nodup_nodes := by decide
  nodup_compute := by decide
  nodup_unique := by decide
  nodup_private := noUniqueChutes.nodup_private

theorem uniqueScores_twoMiners :
    (∃ row ∈ twoMiners.raw.values.values, 0 < row.uniqueChuteCount) ∧
      ∃ normalized, normalizedValues realPow twoMiners.raw = .ok normalized ∧
        UniqueScores twoMiners.raw.values normalized :=
  ⟨by decide, uniqueScores_of_pos twoMiners (by decide)⟩

end Metasync

end ChutesApi
