import ChutesApi.Chute.Model
import ChutesApi.Common.Dict
import Mathlib.Algebra.Order.Ring.Rat
/-!
# The autoscaler's decisions

`perform_autoscale` looks at the metrics of one chute after the other, and
decides for each how many instances it should have. `autoscaleChute` is the
body of that loop, and `toDownsize` what the loop leaves for the removal.
Ratios are exact.
-/

namespace ChutesApi

namespace Autoscaler

def underutilizedCap : ℕ := 5

def utilizationScaleUp : ℚ := 0.35

def rateLimitScaleUp : ℚ := 0.02

def minChutesForScaling : ℕ := 10

/-- `LIMIT_OVERRIDES`. -/
def limitOverrides : Dict ChuteId ℕ :=
  .ofList [("1a0d9245-582a-5cde-8f5b-2da5b9542339", 30),
    ("b5326e54-8d9e-590e-bed4-f3db35d9d4cd", 60)]

/-- `FAILSAFE`. -/
def failsafe : Dict ChuteId ℕ :=
  .ofList [("154ad01c-a431-5744-83c8-651215124360", 30),
    ("14a91d88-d6d6-5046-aaf4-eb3ad96b7247", 20),
    ("de510462-c319-543b-9c67-00bcf807d2a7", 15),
    ("561e4875-254d-588f-a36f-57c9cdef8961", 15),
    ("07cb1b3a-ec4d-594a-96c2-b547fddcadb0", 15)]

inductive Window
  | fiveMinutes
  | fifteenMinutes
  | oneHour
  deriving DecidableEq, Repr

/-- What Prometheus has of a chute. A window without a value is zero, and the
increase of a counter is not negative. -/
structure Metrics where
  utilization : Window → ℚ
  completedRequests : Window → ℚ≥0
  rateLimitedRequests : Window → ℚ≥0

namespace Metrics

def totalRequests (m : Metrics) (w : Window) : ℚ≥0 :=
  m.completedRequests w + m.rateLimitedRequests w

def rateLimitRatio (m : Metrics) (w : Window) : ℚ≥0 :=
  if 0 < m.totalRequests w then m.rateLimitedRequests w / m.totalRequests w else 0

/-- What the rate limiting of a public chute is judged by. -/
def rateLimitBasis (m : Metrics) : ℚ :=
  max (m.rateLimitRatio .oneHour) (m.rateLimitRatio .fifteenMinutes)

/-- What the utilization of a public chute is judged by. -/
def utilizationBasis (m : Metrics) : ℚ :=
  max (m.utilization .oneHour) (m.utilization .fifteenMinutes)

/-- What the utilization of a private chute is judged by. -/
def privateBasis (m : Metrics) : ℚ :=
  max (m.utilization .fiveMinutes) (m.utilization .fifteenMinutes)

end Metrics

/-- A row of `chute_info`: a chute, and how many active verified instances it
has. -/
structure ChuteInfo where
  chute : Chute
  maxInstances : ℕ
  scalingThreshold : ℚ
  newChute : Bool
  instanceCount : ℕ
  hasRollingUpdate : Bool

inductive Action
  | scaleUpCandidate
  | scaledDown
  | noAction
  | skippedRollingUpdate
  deriving DecidableEq, Repr

/-- **What is decided for a chute**: the entries of `chute_target_counts` and
`chute_actions`, what is written to `scale:{chute_id}`, and the numbers in
`scale_up_candidates` and `to_downsize`. -/
structure Decision where
  target : ℕ
  action : Option Action := none
  scale : Option ℕ := none
  numToAdd : Option ℕ := none
  numToRemove : Option ℕ := none
  deriving DecidableEq, Repr

/-- What the decisions read besides the metrics and the rows. -/
structure Env where
  chutesUserId : UserId
  bountyExists : ChuteId → Bool

/-- `private` chutes are billed by the instance. -/
def isPrivate (env : Env) (info : ChuteInfo) : Bool :=
  !info.chute.isPublic && !hasLegacyPrivateBilling info.chute &&
    info.chute.userId != env.chutesUserId

def autoscalePrivate (env : Env) (info : ChuteInfo) (m : Metrics) : Decision :=
  let count := info.instanceCount
  if count ≠ 0 then
    if info.scalingThreshold ≤ m.privateBasis ∧ count < info.maxInstances then
      { target := count + 1, action := some .scaleUpCandidate, scale := some (count + 1) }
    else if m.privateBasis < info.scalingThreshold ∧ 1 < count then
      { target := count - 1, action := some .scaledDown, scale := some (count - 1),
        numToRemove := some 1 }
    else { target := count, action := some .noAction, scale := some count }
  else if env.bountyExists info.chute.chuteId then
    { target := 1, action := some .scaleUpCandidate, scale := some 1 }
  else { target := 0, action := some .noAction, scale := some 0 }

/-- `num_to_add` by the utilization. -/
def addForUtilization (count : ℕ) (basis : ℚ) : ℕ :=
  if utilizationScaleUp * 1.5 ≤ basis then max 3 (count / 2)
  else if utilizationScaleUp * 1.25 ≤ basis then max 2 (count / 4)
  else 1

/-- `num_to_add` by the rate limiting, where `int(count * 0.15)` and its like
are divisions. -/
def addForRateLimit (count : ℕ) (basis : ℚ) : ℕ :=
  if 0.2 ≤ basis then max 3 (count * 3 / 10)
  else if 0.1 ≤ basis then max 2 (count * 3 / 20)
  else max 1 (count / 20)

/-- `num_to_remove` before the failsafe. -/
def removeForUtilization (count : ℕ) (basis : ℚ) : ℕ :=
  if count > underutilizedCap then
    if basis < 0.1 then max 1 ((count - underutilizedCap) / 5)
    else if basis < 0.2 then max 1 ((count - underutilizedCap) / 10)
    else 1
  else 1

/-- `FAILSAFE.get(chute_id, default)`. -/
def failsafeMin (chuteId : ChuteId) (default : ℕ) : ℕ := (failsafe.get? chuteId).getD default

/-- A scale up of a public chute. -/
def scaleUp (info : ChuteInfo) (numToAdd : ℕ) : Decision :=
  let target := max (failsafeMin info.chute.chuteId 0) (info.instanceCount + numToAdd)
  { target := target, action := some .scaleUpCandidate, scale := some target,
    numToAdd := some numToAdd }

/-- The branch of low utilization. -/
def scaleDown (info : ChuteInfo) (basis : ℚ) : Decision :=
  let count := info.instanceCount
  let failsafeMin := failsafeMin info.chute.chuteId underutilizedCap
  let numToRemove := removeForUtilization count basis
  -- the failsafe caps what is removed
  let numToRemove :=
    if count - numToRemove < failsafeMin then
      if count > failsafeMin then count - failsafeMin else 0
    else numToRemove
  if numToRemove > 0 then
    let target := count - numToRemove
    { target := target, action := some .scaledDown, scale := some target,
      numToRemove := some numToRemove }
  else
    let target := max failsafeMin count
    { target := target, action := some .noAction, scale := some target }

/-- The branch of chutes of up to three hours. -/
def scaleNew (info : ChuteInfo) : Decision :=
  let count := info.instanceCount
  let failsafeMin := failsafeMin info.chute.chuteId underutilizedCap
  let target :=
    if Python.contains (Python.lower info.chute.name) "affine" then failsafeMin
    else max 10 failsafeMin
  if target - count ≥ 1 then
    { target := target, action := some .scaleUpCandidate, scale := some target,
      numToAdd := some (target - count) }
  else if count > target then
    { target := target, action := some .scaledDown, scale := some target,
      numToRemove := some (count - target) }
  else { target := target, action := some .noAction, scale := some target }

/-- The cascade of a public chute that has instances. -/
def autoscalePublic (info : ChuteInfo) (m : Metrics) : Decision :=
  let count := info.instanceCount
  if utilizationScaleUp ≤ m.utilizationBasis then
    scaleUp info (addForUtilization count m.utilizationBasis)
  else if rateLimitScaleUp ≤ m.rateLimitBasis then
    scaleUp info (addForRateLimit count m.rateLimitBasis)
  else if count ≥ underutilizedCap ∧ m.utilizationBasis < utilizationScaleUp ∧
      (∀ w ∈ [Window.fiveMinutes, .fifteenMinutes, .oneHour], m.rateLimitRatio w = 0) ∧
      info.newChute = false ∧ limitOverrides.get? info.chute.chuteId = none then
    scaleDown info m.utilizationBasis
  else if info.newChute then scaleNew info
  else
    let target := max (failsafeMin info.chute.chuteId underutilizedCap) count
    { target := target, action := some .noAction, scale := some target }

/-- **What is decided for one chute** with its metrics. -/
def autoscaleChute (env : Env) (info : Option ChuteInfo) (m : Metrics) : Decision :=
  match info with
  | none => { target := underutilizedCap }
  | some info =>
    let count := info.instanceCount
    if isPrivate env info then autoscalePrivate env info m
    else if count = 0 then
      let target := max underutilizedCap (failsafeMin info.chute.chuteId underutilizedCap)
      { target := target, action := some .scaleUpCandidate, scale := some target,
        numToAdd := some target }
    else if info.hasRollingUpdate then
      { target := count, action := some .skippedRollingUpdate }
    else
      match limitOverrides.get? info.chute.chuteId with
      | some limit =>
        if count < limit then
          { target := limit, action := some .scaleUpCandidate, scale := some limit,
            numToAdd := some (limit - count) }
        else if count > limit then
          { target := limit, action := some .scaledDown, scale := some limit,
            numToRemove := some (count - limit) }
        else autoscalePublic info m
      | none => autoscalePublic info m

/-- `to_downsize`, in the order of the metrics. -/
def toDownsize (env : Env) (chuteInfo : Dict ChuteId ChuteInfo)
    (chuteMetrics : Dict ChuteId Metrics) : List (ChuteId × ℕ) :=
  if chuteMetrics.items.length < minChutesForScaling then []
  else chuteMetrics.items.filterMap fun (chuteId, m) =>
    (autoscaleChute env (chuteInfo.get? chuteId) m).numToRemove.map (chuteId, ·)

end Autoscaler

end ChutesApi
