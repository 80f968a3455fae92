import ChutesApi.Common.Lts
import ChutesApi.Metrics.Model
import Mathlib.Analysis.Convex.Basic
/-!
# The bounds of an adaptive average

Each update moves the average towards the new value by the coefficient, and
the coefficient follows a rate that is itself smoothed. The average stays
between values that were seen because the coefficient stays between its
bounds, and that it is defined at all needs a positive rate: `Sound` has the
three together, and every run of updates from a key that does not exist
keeps it (`sound_exec`).
-/

namespace ChutesApi

namespace Metrics

variable (cfg : Config)

/-- The updates of one key, which at first does not exist. -/
def system : Lts Fields Update where
  init data := data = {}
  step := next cfg

/-- **What the hash holds** after updates with these values. -/
structure Sound (values : List ℚ) (data : Fields) : Prop where
  ema : ∃ e, data.ema = some e ∧ ∃ lo ∈ values, ∃ hi ∈ values, lo ≤ e ∧ e ≤ hi
  count : data.count = some values.length
  lastTime : data.lastTime.isSome
  recentRate : ∃ r, data.recentRate = some r ∧ 0 < r
  lastAlpha : ∃ a, data.lastAlpha = some a ∧ cfg.minAlpha ≤ a ∧ a ≤ cfg.maxAlpha

variable {cfg} {values : List ℚ} {data : Fields}

/-! ## The two recurrences -/

/-- A positive rate stays positive, also where the time does not pass. -/
theorem newRate_pos (h : ∀ r ∈ data.recentRate, 0 < r) (currentTime : ℚ) :
    0 < newRate data currentTime := by
  unfold newRate
  cases data.lastTime with
  | none => exact one_pos
  | some lastTime =>
    dsimp only
    cases hrate : data.recentRate with
    | none =>
      split_ifs with htime
      · exact one_div_pos.2 htime
      · exact one_pos
    | some recentRate =>
      have hpos : 0 < recentRate := h recentRate hrate
      split_ifs with htime
      · have hinstant : 0 < 1 / (currentTime - lastTime) := one_div_pos.2 htime
        positivity
      · exact hpos

/-- A weighted mean is between bounds of both. -/
theorem mean_mem {lo hi a x y : ℚ} (ha0 : 0 ≤ a) (ha1 : a ≤ 1) (hx : lo ≤ x ∧ x ≤ hi)
    (hy : lo ≤ y ∧ y ≤ hi) : lo ≤ a * x + (1 - a) * y ∧ a * x + (1 - a) * y ≤ hi := by
  have hconvex : Convex ℚ (Set.Icc lo hi) := convex_Icc lo hi
  have hmem := hconvex (Set.mem_Icc.2 hx) (Set.mem_Icc.2 hy) ha0 (sub_nonneg.2 ha1) (by ring)
  simpa only [smul_eq_mul, Set.mem_Icc] using hmem

/-! ## The invariant -/

/-- The first update. -/
theorem Sound.first (cfg : Config) (u : Update) :
    ∃ data, next cfg {} u = some data ∧ Sound cfg [u.value] data := by
  refine ⟨_, rfl, ?_⟩
  exact {
    ema := ⟨u.value, rfl, u.value, by simp, u.value, by simp, le_rfl, le_rfl⟩
    count := rfl
    lastTime := rfl
    recentRate := ⟨1, rfl, one_pos⟩
    lastAlpha := ⟨cfg.maxAlpha, rfl, cfg.alpha_le, le_rfl⟩ }

/-- **Another update.** -/
theorem Sound.step (h : Sound cfg values data) (u : Update) :
    ∃ data', next cfg data u = some data' ∧ Sound cfg (values ++ [u.value]) data' := by
  obtain ⟨e, he, lo, hlo, hi, hhi, hloe, hehi⟩ := h.ema
  obtain ⟨r, hr, hpos⟩ := h.recentRate
  have hrate : 0 < newRate data u.time := newRate_pos (by simp [hr, hpos]) u.time
  obtain ⟨hmin, hmax⟩ := alphaOf_mem cfg (newRate data u.time)
  have halpha0 := cfg.alpha_pos.le.trans hmin
  have halpha1 := hmax.trans cfg.alpha_lt.le
  have hnext : next cfg data u = some
      ⟨some (alphaOf cfg (newRate data u.time) * u.value +
          (1 - alphaOf cfg (newRate data u.time)) * e), some (values.length + 1), some u.time,
        some (newRate data u.time), some (alphaOf cfg (newRate data u.time))⟩ := by
    simp only [next, he, h.count, Option.map_some]
  refine ⟨_, hnext, ?_⟩
  -- the new bounds are the old ones or the new value
  obtain ⟨hlow, hhigh⟩ := mean_mem halpha0 halpha1
    ⟨min_le_left u.value lo, le_max_left u.value hi⟩
    ⟨(min_le_right u.value lo).trans hloe, hehi.trans (le_max_right u.value hi)⟩
  have hlomem : min u.value lo ∈ values ++ [u.value] := by
    rcases min_choice u.value lo with h | h <;> simp [h, hlo]
  have hhimem : max u.value hi ∈ values ++ [u.value] := by
    rcases max_choice u.value hi with h | h <;> simp [h, hhi]
  exact {
    ema := ⟨_, rfl, min u.value lo, hlomem, max u.value hi, hhimem, hlow, hhigh⟩
    count := by simp
    lastTime := rfl
    recentRate := ⟨_, rfl, hrate⟩
    lastAlpha := ⟨_, rfl, hmin, hmax⟩ }

/-- The invariant is kept by a run. -/
theorem Sound.exec (h : Sound cfg values data) (us : List Update) :
    ∃ data', (system cfg).exec data us = some data' ∧
      Sound cfg (values ++ us.map Update.value) data' := by
  induction us generalizing values data with
  | nil => exact ⟨data, rfl, by simpa using h⟩
  | cons u us ih =>
    obtain ⟨data₁, hstep, hsound⟩ := h.step u
    obtain ⟨data₂, hexec, hdone⟩ := ih hsound
    refine ⟨data₂, ?_, by simpa using hdone⟩
    have hnext : (system cfg).step data u = some data₁ := hstep
    rw [Lts.exec, hnext]
    exact hexec

/-- **The bounds hold in every run**: after any updates, at any times, the
script does not fail, and the hash holds a mean of values seen, a coefficient
between its bounds, a positive rate and the number of the updates. -/
theorem sound_exec (cfg : Config) (u : Update) (us : List Update) :
    ∃ data, (system cfg).exec {} (u :: us) = some data ∧
      Sound cfg ((u :: us).map Update.value) data := by
  obtain ⟨data₁, hfirst, hsound⟩ := Sound.first cfg u
  obtain ⟨data₂, hexec, hdone⟩ := hsound.exec us
  refine ⟨data₂, ?_, hdone⟩
  have hnext : (system cfg).step {} u = some data₁ := hfirst
  rw [Lts.exec, hnext]
  exact hexec

end Metrics

end ChutesApi
