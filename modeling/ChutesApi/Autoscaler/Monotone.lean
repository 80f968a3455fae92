import ChutesApi.Autoscaler.Model
import Mathlib.Tactic.IntervalCases
import Mathlib.Tactic.Linarith
import Mathlib.Tactic.NormNum.OfScientific
/-!
# When the decisions are monotone

A public chute that is busier should not get fewer instances. Within one
branch of the cascade it does not, but the branches are not in order: what
high utilization adds can be less than what rate limiting adds, and less
than what takes an idle chute to its minimum. `monotone_iff` says between
which snapshots the target falls.
-/

namespace ChutesApi

namespace Autoscaler

/-- **One snapshot is at least as high as the other** in every window. -/
structure Metrics.Le (m m' : Metrics) : Prop where
  utilization : ∀ w, m.utilization w ≤ m'.utilization w
  rateLimitRatio : ∀ w, m.rateLimitRatio w ≤ m'.rateLimitRatio w

/-- **The chutes that go through the cascade**: public, with instances, and
without a manual override or a rolling update. -/
structure Governed (info : ChuteInfo) : Prop where
  isPublic : info.chute.isPublic = true
  instances : info.instanceCount ≠ 0
  noRollingUpdate : info.hasRollingUpdate = false
  noOverride : limitOverrides.get? info.chute.chuteId = none

/-- Which of the three thresholds of utilization are reached. -/
def utilizationLevel (basis : ℚ) : ℕ :=
  if utilizationScaleUp * 1.5 ≤ basis then 3
  else if utilizationScaleUp * 1.25 ≤ basis then 2
  else if utilizationScaleUp ≤ basis then 1
  else 0

/-- Which of the three thresholds of rate limiting are reached. -/
def rateLimitLevel (basis : ℚ) : ℕ :=
  if 0.2 ≤ basis then 3 else if 0.1 ≤ basis then 2 else if rateLimitScaleUp ≤ basis then 1 else 0

/-- The level that counts: that of the rate limiting if the utilization has
none. -/
def pressure (m : Metrics) : ℕ :=
  if utilizationLevel m.utilizationBasis ≠ 0 then utilizationLevel m.utilizationBasis
  else rateLimitLevel m.rateLimitBasis

/-- How many instances a chute without a failsafe has at least when it is
idle. -/
def idleMinimum (info : ChuteInfo) : ℕ :=
  if info.newChute ∧ ¬ Python.contains (Python.lower info.chute.name) "affine" then 10
  else underutilizedCap

/-- **Rate limiting adds more than utilization does**, at these levels, and
the failsafe does not make up for it. -/
def RateLimitAddsMore (count least rateLimit utilization : ℕ) : Prop :=
  rateLimit = 1 ∧ utilization = 1 ∧ 40 ≤ count ∧ least < count + count / 20 ∨
  rateLimit = 2 ∧ utilization = 1 ∧ least < count + max 2 (count * 3 / 20) ∨
  rateLimit = 3 ∧ (utilization = 1 ∨ utilization = 2 ∧ count ∉ [12, 13, 16]) ∧
    least < count + max 3 (count * 3 / 10)

/-- **Between these snapshots the target falls**: the lower one is rate
limited and the higher one is utilized, and that adds less, or the lower one
is idle and the higher one is scaled up to less than the minimum of idle
chutes. -/
def Falls (info : ChuteInfo) (m m' : Metrics) : Prop :=
  utilizationLevel m.utilizationBasis = 0 ∧
      RateLimitAddsMore info.instanceCount (failsafeMin info.chute.chuteId 0)
        (rateLimitLevel m.rateLimitBasis) (utilizationLevel m'.utilizationBasis) ∨
    failsafe.get? info.chute.chuteId = none ∧ pressure m = 0 ∧ pressure m' ≠ 0 ∧
      info.instanceCount + pressure m' < idleMinimum info

variable {info : ChuteInfo} {m m' : Metrics} {count : ℕ} {x y : ℚ}

/-! ## The levels -/

theorem utilizationLevel_eq_zero : utilizationLevel x = 0 ↔ x < utilizationScaleUp := by
  have hmid : utilizationScaleUp ≤ utilizationScaleUp * 1.25 := by norm_num [utilizationScaleUp]
  have hhigh : utilizationScaleUp ≤ utilizationScaleUp * 1.5 := by norm_num [utilizationScaleUp]
  unfold utilizationLevel
  split_ifs with h3 h2 h1
  · simpa using hhigh.trans h3
  · simpa using hmid.trans h2
  · simpa using h1
  · simpa using h1

theorem rateLimitLevel_eq_zero : rateLimitLevel x = 0 ↔ x < rateLimitScaleUp := by
  have hmid : rateLimitScaleUp ≤ 0.1 := by norm_num [rateLimitScaleUp]
  have hhigh : rateLimitScaleUp ≤ 0.2 := by norm_num [rateLimitScaleUp]
  unfold rateLimitLevel
  split_ifs with h3 h2 h1
  · simpa using hhigh.trans h3
  · simpa using hmid.trans h2
  · simpa using h1
  · simpa using h1

theorem utilizationLevel_mono (h : x ≤ y) : utilizationLevel x ≤ utilizationLevel y := by
  unfold utilizationLevel
  split_ifs <;> first | omega | (exfalso; linarith)

theorem rateLimitLevel_mono (h : x ≤ y) : rateLimitLevel x ≤ rateLimitLevel y := by
  unfold rateLimitLevel
  split_ifs <;> first | omega | (exfalso; linarith)

theorem utilizationLevel_le : utilizationLevel x ≤ 3 := by
  unfold utilizationLevel
  split_ifs <;> omega

theorem rateLimitLevel_le : rateLimitLevel x ≤ 3 := by
  unfold rateLimitLevel
  split_ifs <;> omega

/-- **What utilization adds**, by its level. -/
theorem addForUtilization_eq (h : utilizationLevel x ≠ 0) :
    addForUtilization count x = if utilizationLevel x = 1 then 1
      else if utilizationLevel x = 2 then max 2 (count / 4) else max 3 (count / 2) := by
  unfold addForUtilization utilizationLevel at *
  split_ifs at * <;> first | rfl | omega

/-- **What rate limiting adds**, by its level. -/
theorem addForRateLimit_eq (h : rateLimitLevel x ≠ 0) :
    addForRateLimit count x = if rateLimitLevel x = 1 then max 1 (count / 20)
      else if rateLimitLevel x = 2 then max 2 (count * 3 / 20) else max 3 (count * 3 / 10) := by
  unfold addForRateLimit rateLimitLevel at *
  split_ifs at * <;> first | rfl | omega

theorem addForUtilization_mono (count : ℕ) (h : x ≤ y) (hx : utilizationLevel x ≠ 0) :
    addForUtilization count x ≤ addForUtilization count y := by
  have hle : utilizationLevel x ≤ utilizationLevel y := utilizationLevel_mono h
  have hy : utilizationLevel y ≤ 3 := utilizationLevel_le
  rw [addForUtilization_eq hx, addForUtilization_eq (by omega)]
  split_ifs <;> omega

theorem addForRateLimit_mono (count : ℕ) (h : x ≤ y) (hx : rateLimitLevel x ≠ 0) :
    addForRateLimit count x ≤ addForRateLimit count y := by
  have hle : rateLimitLevel x ≤ rateLimitLevel y := rateLimitLevel_mono h
  have hy : rateLimitLevel y ≤ 3 := rateLimitLevel_le
  rw [addForRateLimit_eq hx, addForRateLimit_eq (by omega)]
  split_ifs <;> omega

/-- Three tenths against a quarter. -/
theorem quarter_lt_iff (count : ℕ) :
    max 2 (count / 4) < max 3 (count * 3 / 10) ↔ count ≠ 12 ∧ count ≠ 13 ∧ count ≠ 16 := by
  rcases Nat.lt_or_ge count 20 with h | h
  · interval_cases count <;> decide
  · have htenths : count / 4 < count * 3 / 10 := by omega
    omega

/-- **Where rate limiting adds more.** -/
theorem rateLimitAddsMore_iff {least : ℕ} (hx : rateLimitLevel x ≠ 0)
    (hy : utilizationLevel y ≠ 0) :
    RateLimitAddsMore count least (rateLimitLevel x) (utilizationLevel y) ↔
      max least (count + addForUtilization count y) <
        max least (count + addForRateLimit count x) := by
  have hx3 : rateLimitLevel x ≤ 3 := rateLimitLevel_le
  have hy3 : utilizationLevel y ≤ 3 := utilizationLevel_le
  rw [max_lt_max_right_iff, Nat.add_lt_add_iff_left, addForUtilization_eq hy, addForRateLimit_eq hx]
  generalize rateLimitLevel x = r at hx hx3 ⊢
  generalize utilizationLevel y = u at hy hy3 ⊢
  have hquarter := quarter_lt_iff count
  unfold RateLimitAddsMore
  -- the nine pairs of levels, of which three tenths against a quarter is `hquarter`
  interval_cases r <;> interval_cases u <;> simp <;> omega

/-- What is removed is at least one, and less the higher the utilization. -/
theorem one_le_removeForUtilization (count : ℕ) (x : ℚ) : 1 ≤ removeForUtilization count x := by
  unfold removeForUtilization
  split_ifs <;> omega

theorem removeForUtilization_anti (count : ℕ) (h : x ≤ y) :
    removeForUtilization count y ≤ removeForUtilization count x := by
  unfold removeForUtilization
  split_ifs <;> first | omega | (exfalso; linarith)

/-! ## The branches -/

theorem le_of_mem_failsafe {chuteId : ChuteId} {least : ℕ}
    (h : failsafe.get? chuteId = some least) : 15 ≤ least := by
  have hall : ∀ e ∈ failsafe.items, 15 ≤ e.2 := by decide
  exact hall _ (Dict.get?_eq_some.1 h)

/-- **The failsafe caps the removal.** -/
theorem target_scaleDown : (scaleDown info x).target =
    max (failsafeMin info.chute.chuteId underutilizedCap)
      (info.instanceCount - removeForUtilization info.instanceCount x) := by
  have hone := one_le_removeForUtilization info.instanceCount x
  unfold scaleDown
  simp only
  split_ifs <;> simp only <;> omega

theorem target_scaleNew : (scaleNew info).target =
    if Python.contains (Python.lower info.chute.name) "affine" then
      failsafeMin info.chute.chuteId underutilizedCap
    else max 10 (failsafeMin info.chute.chuteId underutilizedCap) := by
  unfold scaleNew
  simp only
  split_ifs <;> rfl

theorem autoscalePublic_of_utilization (h : utilizationLevel m.utilizationBasis ≠ 0) :
    autoscalePublic info m =
      scaleUp info (addForUtilization info.instanceCount m.utilizationBasis) := by
  have hreached : utilizationScaleUp ≤ m.utilizationBasis := by
    simpa using mt utilizationLevel_eq_zero.2 h
  exact if_pos hreached

theorem autoscalePublic_of_rateLimit (hu : utilizationLevel m.utilizationBasis = 0)
    (h : rateLimitLevel m.rateLimitBasis ≠ 0) :
    autoscalePublic info m =
      scaleUp info (addForRateLimit info.instanceCount m.rateLimitBasis) := by
  have hlow : ¬ utilizationScaleUp ≤ m.utilizationBasis := by
    simpa using utilizationLevel_eq_zero.1 hu
  have hreached : rateLimitScaleUp ≤ m.rateLimitBasis := by
    simpa using mt rateLimitLevel_eq_zero.2 h
  exact (if_neg hlow).trans (if_pos hreached)

/-- No request of the chute was rate limited. -/
def Unlimited (m : Metrics) : Prop :=
  ∀ w ∈ [Window.fiveMinutes, .fifteenMinutes, .oneHour], m.rateLimitRatio w = 0

instance : Decidable (Unlimited m) := by
  unfold Unlimited
  infer_instance

/-- **The target of an idle chute.** -/
theorem target_idle (hg : Governed info) (hu : utilizationLevel m.utilizationBasis = 0)
    (hr : rateLimitLevel m.rateLimitBasis = 0) :
    (autoscalePublic info m).target =
      if info.newChute then (scaleNew info).target
      else max (failsafeMin info.chute.chuteId underutilizedCap)
        (if underutilizedCap ≤ info.instanceCount ∧ Unlimited m then
          info.instanceCount - removeForUtilization info.instanceCount m.utilizationBasis
        else info.instanceCount) := by
  have hutil := utilizationLevel_eq_zero.1 hu
  have hrate := rateLimitLevel_eq_zero.1 hr
  unfold autoscalePublic
  simp only [not_le.2 hutil, not_le.2 hrate, if_false, hutil, hg.noOverride, true_and, and_true]
  by_cases hnew : info.newChute
  · simp [hnew]
  · have hold : info.newChute = false := by simpa using hnew
    simp only [hold, and_true, Bool.false_eq_true, if_false]
    by_cases hdown : underutilizedCap ≤ info.instanceCount ∧ Unlimited m
    · rw [if_pos hdown, ← target_scaleDown]
      exact congrArg Decision.target (if_pos hdown)
    · rw [if_neg hdown]
      exact congrArg Decision.target (if_neg hdown)

/-! ## Idle chutes -/

theorem Metrics.Le.utilizationBasis (h : m.Le m') : m.utilizationBasis ≤ m'.utilizationBasis :=
  max_le_max (h.utilization _) (h.utilization _)

theorem Metrics.Le.rateLimitBasis (h : m.Le m') : m.rateLimitBasis ≤ m'.rateLimitBasis :=
  max_le_max (by exact_mod_cast h.rateLimitRatio _) (by exact_mod_cast h.rateLimitRatio _)

/-- A chute that is not rate limited is not under the lower snapshot. -/
theorem Unlimited.of_le (h : m.Le m') (hm : Unlimited m') : Unlimited m := fun w hw =>
  le_antisymm ((h.rateLimitRatio w).trans (hm w hw).le) zero_le

/-- **Among idle snapshots the target does not fall.** -/
theorem idle_mono (hg : Governed info) (h : m.Le m') (hu : utilizationLevel m.utilizationBasis = 0)
    (hr : rateLimitLevel m.rateLimitBasis = 0) (hu' : utilizationLevel m'.utilizationBasis = 0)
    (hr' : rateLimitLevel m'.rateLimitBasis = 0) :
    (autoscalePublic info m).target ≤ (autoscalePublic info m').target := by
  have hanti := removeForUtilization_anti info.instanceCount h.utilizationBasis
  have hunlimited : Unlimited m' → Unlimited m := Unlimited.of_le h
  rw [target_idle hg hu hr, target_idle hg hu' hr']
  split_ifs with hnew hdown hdown' hdown'
  · exact le_rfl
  · omega
  · omega
  · exact absurd ⟨hdown'.1, hunlimited hdown'.2⟩ hdown
  · exact le_rfl

/-- **An idle chute has its failsafe minimum**, or what it has. -/
theorem failsafe_le_idle (hg : Governed info) (hu : utilizationLevel m.utilizationBasis = 0)
    (hr : rateLimitLevel m.rateLimitBasis = 0) :
    failsafeMin info.chute.chuteId underutilizedCap ≤ (autoscalePublic info m).target := by
  rw [target_idle hg hu hr, target_scaleNew]
  split_ifs <;> omega

/-- **Scaled up to less than an idle chute has.** -/
theorem scaleUp_lt_idle_iff {numToAdd : ℕ} (hg : Governed info) (hadd : 1 ≤ numToAdd)
    (hu : utilizationLevel m.utilizationBasis = 0) (hr : rateLimitLevel m.rateLimitBasis = 0) :
    (scaleUp info numToAdd).target < (autoscalePublic info m).target ↔
      failsafe.get? info.chute.chuteId = none ∧
        info.instanceCount + numToAdd < idleMinimum info := by
  rw [target_idle hg hu hr, target_scaleNew]
  unfold scaleUp failsafeMin idleMinimum underutilizedCap
  cases hsafe : failsafe.get? info.chute.chuteId with
  | none =>
    simp only [Option.getD_none, true_and]
    by_cases hnew : info.newChute
    · by_cases haffine : Python.contains (Python.lower info.chute.name) "affine" <;>
        simp only [hnew, haffine, if_true, true_and] <;> simp
    · simp only [hnew, Bool.false_eq_true, if_false, false_and]
      split_ifs <;> omega
  | some least =>
    have hleast := le_of_mem_failsafe hsafe
    simp only [Option.getD_some, reduceCtorEq, false_and, iff_false, not_lt]
    split_ifs <;> omega

/-! ## The decision -/

theorem autoscaleChute_of_governed (env : Env) (hg : Governed info) (m : Metrics) :
    autoscaleChute env (some info) m = autoscalePublic info m := by
  have hpublic : isPrivate env info = false := by simp [isPrivate, hg.isPublic]
  simp only [autoscaleChute, hpublic, hg.instances, hg.noRollingUpdate, hg.noOverride,
    Bool.false_eq_true, if_false]

theorem count_le_scaleUp {numToAdd : ℕ} : info.instanceCount ≤ (scaleUp info numToAdd).target := by
  unfold scaleUp
  simp only
  omega

/-- **The failsafe holds**: the target is not below the smaller of the current
count and the minimum. -/
theorem failsafe_le_target (hg : Governed info) (m : Metrics) :
    min info.instanceCount (failsafeMin info.chute.chuteId underutilizedCap) ≤
      (autoscalePublic info m).target := by
  by_cases hu : utilizationLevel m.utilizationBasis = 0
  · by_cases hr : rateLimitLevel m.rateLimitBasis = 0
    · exact (min_le_right _ _).trans (failsafe_le_idle hg hu hr)
    · rw [autoscalePublic_of_rateLimit hu hr]
      exact (min_le_left _ _).trans count_le_scaleUp
  · rw [autoscalePublic_of_utilization hu]
    exact (min_le_left _ _).trans count_le_scaleUp

theorem scaleUp_mono {numToAdd numToAdd' : ℕ} (h : numToAdd ≤ numToAdd') :
    (scaleUp info numToAdd).target ≤ (scaleUp info numToAdd').target := by
  unfold scaleUp
  simp only
  omega

/-- What a chute without a failsafe has at least is at most ten. -/
theorem idleMinimum_le : idleMinimum info ≤ 10 := by
  unfold idleMinimum underutilizedCap
  split_ifs <;> omega

theorem addForUtilization_pos : 1 ≤ addForUtilization count x := by
  unfold addForUtilization
  split_ifs <;> omega

theorem addForRateLimit_pos : 1 ≤ addForRateLimit count x := by
  unfold addForRateLimit
  split_ifs <;> omega

/-- Below the minimum, what is added is the level. -/
theorem addForUtilization_lt_iff {least : ℕ} (hleast : least ≤ 10) (h : utilizationLevel x ≠ 0) :
    count + addForUtilization count x < least ↔ count + utilizationLevel x < least := by
  have hle : utilizationLevel x ≤ 3 := utilizationLevel_le
  rw [addForUtilization_eq h]
  split_ifs <;> omega

theorem addForRateLimit_lt_iff {least : ℕ} (hleast : least ≤ 10) (h : rateLimitLevel x ≠ 0) :
    count + addForRateLimit count x < least ↔ count + rateLimitLevel x < least := by
  have hle : rateLimitLevel x ≤ 3 := rateLimitLevel_le
  rw [addForRateLimit_eq h]
  split_ifs <;> omega

theorem RateLimitAddsMore.ne_zero {least rateLimit utilization : ℕ}
    (h : RateLimitAddsMore count least rateLimit utilization) :
    rateLimit ≠ 0 ∧ utilization ≠ 0 := by
  unfold RateLimitAddsMore at h
  omega

/-- **Where the target falls.** -/
theorem target_lt_iff (hg : Governed info) (h : m.Le m') :
    (autoscalePublic info m').target < (autoscalePublic info m).target ↔ Falls info m m' := by
  have hlevel := utilizationLevel_mono h.utilizationBasis
  have hlevel' := rateLimitLevel_mono h.rateLimitBasis
  have hmin : idleMinimum info ≤ 10 := idleMinimum_le
  unfold Falls pressure
  by_cases hu : utilizationLevel m.utilizationBasis = 0
  · by_cases hr : rateLimitLevel m.rateLimitBasis = 0
    · have hnone : ∀ least u, ¬ RateLimitAddsMore info.instanceCount least 0 u :=
        fun _ _ hmore => hmore.ne_zero.1 rfl
      simp only [hnone, and_false, false_or, hu, ne_eq, not_true_eq_false, if_false, hr, true_and]
      by_cases hu' : utilizationLevel m'.utilizationBasis = 0
      · by_cases hr' : rateLimitLevel m'.rateLimitBasis = 0
        · refine iff_of_false (not_lt.2 (idle_mono hg h hu hr hu' hr')) ?_
          simp [hu', hr']
        · rw [autoscalePublic_of_rateLimit hu' hr',
            scaleUp_lt_idle_iff hg addForRateLimit_pos hu hr,
            addForRateLimit_lt_iff hmin hr']
          simp [hu', hr']
      · rw [autoscalePublic_of_utilization hu', scaleUp_lt_idle_iff hg addForUtilization_pos hu hr,
          addForUtilization_lt_iff hmin hu']
        simp [hu']
    · simp only [hu, ne_eq, not_true_eq_false, if_false, hr, false_and, and_false, or_false,
        true_and]
      rw [autoscalePublic_of_rateLimit hu hr]
      by_cases hu' : utilizationLevel m'.utilizationBasis = 0
      · rw [autoscalePublic_of_rateLimit hu' (by omega)]
        have hmono := addForRateLimit_mono info.instanceCount h.rateLimitBasis hr
        exact iff_of_false (not_lt.2 (scaleUp_mono hmono)) fun hmore => hmore.ne_zero.2 hu'
      · rw [autoscalePublic_of_utilization hu', rateLimitAddsMore_iff hr hu']
        exact Iff.rfl
  · have hu' : utilizationLevel m'.utilizationBasis ≠ 0 := by omega
    rw [autoscalePublic_of_utilization hu, autoscalePublic_of_utilization hu']
    have hmono := addForUtilization_mono info.instanceCount h.utilizationBasis hu
    refine iff_of_false (not_lt.2 (scaleUp_mono hmono)) ?_
    simp [hu]

/-- **When the decision is monotone**: the target for the higher snapshot is
at least that for the lower, and both keep the failsafe, exactly if these are
not two between which the target falls. -/
theorem monotone_iff (env : Env) (hg : Governed info) (h : m.Le m') :
    ((autoscaleChute env (some info) m).target ≤ (autoscaleChute env (some info) m').target ∧
      ∀ snapshot ∈ [m, m'],
        min info.instanceCount (failsafeMin info.chute.chuteId underutilizedCap) ≤
          (autoscaleChute env (some info) snapshot).target) ↔ ¬ Falls info m m' := by
  simp only [autoscaleChute_of_governed env hg]
  rw [← target_lt_iff hg h, not_lt]
  exact and_iff_left fun snapshot _ => failsafe_le_target hg snapshot

private def fourDays : Chute where
  chuteId := "c"
  userId := "u"
  name := "n"
  isPublic := true
  standardTemplate := none
  concurrency := none
  discount := none
  createdAt := 0

/-- A chute with one instance, four days old. -/
private def single : ChuteInfo where
  chute := fourDays
  maxInstances := 1
  scalingThreshold := 0.75
  newChute := false
  instanceCount := 1
  hasRollingUpdate := false

private def utilized (utilization : ℚ) : Metrics where
  utilization _ := utilization
  completedRequests _ := 1
  rateLimitedRequests _ := 0

private theorem governed_single : Governed single where
  isPublic := rfl
  instances := by decide
  noRollingUpdate := rfl
  noOverride := by decide

private theorem utilized_le {x y : ℚ} (h : x ≤ y) : (utilized x).Le (utilized y) where
  utilization _ := h
  rateLimitRatio _ := le_rfl

/-- **The busier chute gets fewer**: with one instance it gets five when it is
idle, and two at a utilization of .35. -/
theorem not_monotone :
    ¬ ∀ (env : Env) (info : ChuteInfo) (m m' : Metrics), Governed info → m.Le m' →
      (autoscaleChute env (some info) m).target ≤ (autoscaleChute env (some info) m').target := by
  intro h
  have hle := h ⟨"chutes", fun _ => false⟩ single (utilized 0) (utilized 0.35) governed_single
    (utilized_le (by norm_num))
  exact absurd hle (by decide +kernel)

/-- From .4 to .5 with one instance. -/
theorem monotone_iff_utilized :
    (Governed single ∧ (utilized 0.4).Le (utilized 0.5)) ∧
      (((autoscaleChute ⟨"chutes", fun _ => false⟩ (some single) (utilized 0.4)).target ≤
          (autoscaleChute ⟨"chutes", fun _ => false⟩ (some single) (utilized 0.5)).target ∧
        ∀ snapshot ∈ [utilized 0.4, utilized 0.5],
          min single.instanceCount (failsafeMin single.chute.chuteId underutilizedCap) ≤
            (autoscaleChute ⟨"chutes", fun _ => false⟩ (some single) snapshot).target) ↔
        ¬ Falls single (utilized 0.4) (utilized 0.5)) :=
  ⟨⟨governed_single, utilized_le (by norm_num)⟩,
    monotone_iff _ governed_single (utilized_le (by norm_num))⟩

end Autoscaler

end ChutesApi
