import ChutesApi.Chute.Model
import ChutesApi.Common.Lts
import ChutesApi.Common.Sums
import ChutesApi.User.QuotaCache
import Mathlib.Algebra.Order.BigOperators.Group.List
import Mathlib.Logic.Function.Basic
import Mathlib.Tactic.Linarith
/-!
# The free quota

An invocation is marked as free if the counter of its quota is below the
quota when it is checked, and the counter is incremented when the
invocation has completed. In between, any number of others may be marked.
As long as each check that lets one through finds what is counted and what
is in flight together below the quota, and nothing completes uncounted, the
quota is exceeded by one invocation at most: `free_withinQuota`.

The rows of the quotas are constant, so that the lookups return what they
define.
-/

namespace ChutesApi

namespace FreeQuota

open Quota (RowKey InvocationQuota)

/-- A key of the counters of one user: a date, and the chute, or `none` for
`__default__`, which is no id of a chute. -/
@[ext] structure CounterKey where
  date : ℕ
  name : Option ChuteId
  deriving DecidableEq

/-- The quota behind a counter. -/
def quotaOf (env : Quota.Env) (quotas : Dict RowKey InvocationQuota) (userId : UserId) :
    Option ChuteId → ℤ
  | some chuteId => Quota.definedQuota env quotas userId chuteId
  | none => ((quotas.get? (userId, "*")).map (·.quota)).getD ((env.defaultQuotas.get? "*").getD 200)

/-- **A day of a user**, one that neither is free nor pays by invoice. -/
structure Env where
  quotaEnv : Quota.Env
  quotas : Dict RowKey InvocationQuota
  userId : UserId
  chutesUserId : Option UserId
  /-- `settings.reroll_multiplier`. -/
  rerollMultiplier : ℚ
  /-- The date of a time in seconds, as a number. -/
  date : ℕ → ℕ
  reroll_nonneg : 0 ≤ rerollMultiplier
  quota_nonneg : ∀ name, 0 ≤ quotaOf quotaEnv quotas userId name
  date_mono : Monotone date
  /-- A day lasts for less than 25 hours after any of its moments. -/
  date_short : ∀ t t', date t = date t' → t' < t + 25 * 60 * 60

namespace Env

variable (env : Env)

/-- Which counter a chute has. -/
def counterName (chute : Chute) : Option ChuteId :=
  if Quota.ownCounter env.quotaEnv env.quotas env.userId chute.chuteId then some chute.chuteId
  else none

/-- Neither public, nor billed by the old rules, nor the platform's. -/
def isPrivate (chute : Chute) : Bool :=
  !chute.isPublic && !hasLegacyPrivateBilling chute && decide (some chute.userId ≠ env.chutesUserId)

/-- `quota`: none for private chutes. -/
def quotaFor (chute : Chute) : ℤ :=
  if env.isPrivate chute then 0
  else Quota.definedQuota env.quotaEnv env.quotas env.userId chute.chuteId

def weight (reroll : Bool) : ℚ := if reroll then env.rerollMultiplier else 1

/-- The weight of one invocation. -/
def maxWeight : ℚ := max 1 env.rerollMultiplier

end Env

/-- Where an invocation is, with its weight. -/
inductive Phase
  /-- The key is looked up. -/
  | lookedUp (chute : Chute) (weight : ℚ) (key : CounterKey)
  /-- The counter is not there. -/
  | initializing (chute : Chute) (weight : ℚ) (key : CounterKey)
  /-- `request_count` is known. -/
  | read (chute : Chute) (weight : ℚ) (requestCount : ℚ)
  /-- Marked as free, and invoked. -/
  | free (chute : Chute) (weight : ℚ)
  /-- Answered, and about to be counted. -/
  | counting (chute : Chute) (weight : ℚ) (key : CounterKey)
  | paygo
  | ended
  deriving DecidableEq

/-- A counter in Redis. -/
structure Counter where
  value : ℚ
  deadline : Option ℕ
  deriving DecidableEq

/-- `completed` is what was marked as free by the check and has completed
successfully, by the day and the counter. -/
structure State where
  now : ℕ
  counters : CounterKey → Option Counter
  requests : List Phase
  completed : CounterKey → ℚ

namespace State

variable (s : State) (key : CounterKey)

/-- The counter, unless it has expired. -/
def live : Option Counter := (s.counters key).filter fun c => c.deadline.all (s.now < ·)

/-- `get`. -/
def get : Option ℚ := (s.live key).map Counter.value

/-- `incrbyfloat`, which keeps the lifetime. -/
def incrByFloat (amount : ℚ) : State :=
  let counter : Counter :=
    match s.live key with
    | some c => { c with value := c.value + amount }
    | none => ⟨amount, none⟩
  { s with counters := Function.update s.counters key (some counter) }

/-- `expire`. -/
def expire (seconds : ℕ) : State :=
  match s.live key with
  | some c =>
    { s with
      counters := Function.update s.counters key
        (some { c with deadline := some (s.now + seconds) }) }
  | none => s

def set (r : ℕ) (phase : Phase) : State := { s with requests := s.requests.set r phase }

/-- An invocation has completed. -/
def complete (amount : ℚ) : State :=
  { s with completed := Function.update s.completed key (s.completed key + amount) }

end State

/-- What an invocation does next, one await at a time, and how it goes. -/
inductive Event
  | tick (seconds : ℕ)
  /-- The invocation of a chute, and whether it is a re-roll, up to the key. -/
  | lookup (chute : Chute) (reroll : Bool)
  | get (r : ℕ)
  /-- The pipeline that initializes the counter. -/
  | init (r : ℕ)
  | decide (r : ℕ) (effectiveBalance : ℚ)
  /-- The response is there, up to the key of the counter. -/
  | complete (r : ℕ)
  /-- Whether the increment reaches Redis, and the session is committed. -/
  | count (r : ℕ) (applied committed : Bool)
  /-- The invocation fails. -/
  | leave (r : ℕ)
  deriving DecidableEq

section

variable (env : Env) (s : State)

/-- Today's key of a chute. -/
def State.keyOf (chute : Chute) : CounterKey := ⟨env.date s.now, env.counterName chute⟩

/-- **The quota check and the count.** Chutes with a discount of 1 are not
checked; a discount that is null does not compare, so that the attempt
fails. -/
def step : Event → Option State
  | .tick seconds => some { s with now := s.now + seconds }
  | .lookup chute reroll =>
    if chute.discount = some (.finite 1) then none
    else some { s with
      requests := s.requests ++ [.lookedUp chute (env.weight reroll) (s.keyOf env chute)] }
  | .get r =>
    match s.requests[r]? with
    | some (.lookedUp chute weight key) =>
      match s.get key with
      | some requestCount => some (s.set r (.read chute weight requestCount))
      | none => some (s.set r (.initializing chute weight key))
    | _ => none
  | .init r =>
    match s.requests[r]? with
    | some (.initializing chute weight key) =>
      some (((s.incrByFloat key 0).expire key (25 * 60 * 60)).set r (.read chute weight 0))
    | _ => none
  | .decide r effectiveBalance =>
    match s.requests[r]? with
    | some (.read chute weight requestCount) =>
      if env.quotaFor chute ≤ requestCount then
        some (s.set r (if effectiveBalance ≤ 0 then .ended else .paygo))
      else some (s.set r (.free chute weight))
    | _ => none
  | .complete r =>
    match s.requests[r]? with
    | some (.free chute weight) =>
      match chute.discount with
      | none => some s
      | some discount =>
        if discount.lt 1 && !env.isPrivate chute then
          some (s.set r (.counting chute weight (s.keyOf env chute)))
        else some ((s.complete (s.keyOf env chute) weight).set r .ended)
    | _ => none
  | .count r applied committed =>
    match s.requests[r]? with
    | some (.counting chute weight key) =>
      let s := if applied then s.incrByFloat key weight else s
      -- without the commit, the next attempt follows
      some (if committed then (s.complete key weight).set r .ended
        else s.set r (.free chute weight))
    | _ => none
  | .leave r =>
    match s.requests[r]? with
    | some .ended | none => none
    | some _ => some (s.set r .ended)

end

/-- Nobody has invoked anything, and nothing is counted. -/
def system (env : Env) : Lts State Event where
  init s := (∀ key, s.counters key = none) ∧ s.requests = [] ∧ ∀ key, s.completed key = 0
  step := step env

/-- **The free quota is not exceeded** by more than one invocation. -/
def WithinQuota (env : Env) (s : State) : Prop :=
  ∀ key, s.completed key ≤
    quotaOf env.quotaEnv env.quotas env.userId key.name + env.maxWeight

/-- What an invocation takes of a counter: its weight, once the count it has
read lets it through. -/
def Phase.inFlight (env : Env) (name : Option ChuteId) : Phase → ℚ
  | .initializing chute weight _ =>
    if env.counterName chute = name ∧ 0 < env.quotaFor chute then weight else 0
  | .read chute weight requestCount =>
    if env.counterName chute = name ∧ requestCount < env.quotaFor chute then weight else 0
  | .free chute weight | .counting chute weight _ =>
    if env.counterName chute = name then weight else 0
  | .lookedUp .. | .paygo | .ended => 0

/-- **The weight in flight** on a counter. -/
def State.inFlight (env : Env) (s : State) (name : Option ChuteId) : ℚ :=
  (s.requests.map (Phase.inFlight env name)).sum

/-- **The condition on a step**: a check that lets an invocation through does
so when what is counted today and what is in flight are together below the
quota, and what completes is counted, so that no chute has a discount above
1 and no increment is lost. -/
def Clean (env : Env) (s : State) : Event → Prop
  | .get r =>
    match s.requests[r]? with
    | some (.lookedUp chute _ key) =>
      (s.get key).getD 0 < env.quotaFor chute →
        (s.get (s.keyOf env chute)).getD 0 + s.inFlight env (env.counterName chute) <
          env.quotaFor chute
    | _ => True
  | .complete r =>
    match s.requests[r]? with
    | some (.free chute _) => ∀ discount ∈ chute.discount, discount.lt 1 = true
    | _ => True
  | .count _ applied committed => committed → applied
  | .tick _ | .lookup _ _ | .init _ | .decide _ _ | .leave _ => True

instance (env : Env) (s : State) (e : Event) : Decidable (Clean env s e) := by
  cases e <;> dsimp only [Clean]
  case get r => split <;> infer_instance
  case complete r => split <;> infer_instance
  all_goals infer_instance

variable {env : Env} {s s' : State} {key key' : CounterKey} {chute : Chute} {weight amount : ℚ}
variable {r seconds : ℕ} {p p' : Phase} {name : Option ChuteId} {today : ℕ}

/-! ## Quotas and counters -/

/-- **Chutes that share a counter share its quota.** -/
theorem definedQuota_eq : Quota.definedQuota env.quotaEnv env.quotas env.userId chute.chuteId =
    quotaOf env.quotaEnv env.quotas env.userId (env.counterName chute) := by
  unfold Env.counterName
  by_cases hown : Quota.ownCounter env.quotaEnv env.quotas env.userId chute.chuteId
  · rw [if_pos hown]
    rfl
  · rw [if_neg hown]
    unfold Quota.ownCounter at hown
    unfold Quota.definedQuota quotaOf
    cases hrow : Quota.rowFor env.quotas env.userId chute.chuteId with
    | none =>
      rw [hrow] at hown
      have hnone : env.quotas.get? (env.userId, "*") = none := by
        unfold Quota.rowFor at hrow
        simpa using (Option.or_eq_none_iff.1 hrow).2
      have hdefault : env.quotaEnv.defaultQuotas.get? chute.chuteId = none := by simpa using hown
      simp [hnone, Quota.defaultFor, hdefault]
    | some row =>
      rw [hrow] at hown
      obtain ⟨⟨u, c⟩, quota⟩ := row
      have hne : c ≠ chute.chuteId := by simpa using hown
      obtain ⟨hmem, rfl, hc⟩ := Quota.mem_of_rowFor hrow
      obtain rfl : c = "*" := hc.resolve_left hne
      simp [Dict.get?_eq_some.2 hmem]

/-- A private chute has no quota, which is at most the one of its counter. -/
theorem quotaFor_le :
    env.quotaFor chute ≤ quotaOf env.quotaEnv env.quotas env.userId (env.counterName chute) := by
  unfold Env.quotaFor
  split
  · exact env.quota_nonneg _
  · exact definedQuota_eq.le

theorem weight_nonneg (reroll : Bool) : 0 ≤ env.weight reroll := by
  cases reroll
  · exact zero_le_one
  · exact env.reroll_nonneg

theorem weight_le (reroll : Bool) : env.weight reroll ≤ env.maxWeight := by
  cases reroll
  · exact le_max_left _ _
  · exact le_max_right _ _

/-- **What is counted after an increment.** -/
theorem get_incrByFloat : (s.incrByFloat key amount).get key' =
    if key' = key then some ((s.get key).getD 0 + amount) else s.get key' := by
  by_cases hkey : key' = key
  · subst hkey
    rw [if_pos rfl]
    unfold State.incrByFloat State.get
    cases hlive : s.live key' with
    | none => simp [State.live]
    | some c =>
      have hin : (s.counters key').filter (fun c => c.deadline.all (s.now < ·)) = some c := hlive
      obtain ⟨-, hdeadline⟩ := Option.filter_eq_some_iff.1 hin
      simp [State.live, Option.filter, hdeadline]
  · rw [if_neg hkey]
    have hframe : (s.incrByFloat key amount).counters key' = s.counters key' :=
      Function.update_of_ne hkey ..
    unfold State.get State.live
    rw [hframe]
    rfl

/-- A lifetime that has not run out does not change what is counted. -/
theorem get_expire (hseconds : 0 < seconds) : (s.expire key seconds).get key' = s.get key' := by
  unfold State.expire
  cases hlive : s.live key with
  | none => rfl
  | some c =>
    by_cases hkey : key' = key
    · subst hkey
      simp only [State.get, hlive]
      simp [State.live, Option.filter, hseconds]
    · simp [State.get, State.live, Function.update_of_ne hkey]

/-! ## The invariant -/

/-- What is about to be counted on a key. -/
def Phase.counted (key : CounterKey) : Phase → ℚ
  | .counting _ weight key' => if key' = key then weight else 0
  | _ => 0

def State.counting (s : State) (key : CounterKey) : ℚ :=
  (s.requests.map (Phase.counted key)).sum

/-- The weight of an invocation. -/
structure Weight (env : Env) (weight : ℚ) : Prop where
  nonneg : 0 ≤ weight
  le : weight ≤ env.maxWeight

/-- **What a phase may hold** on a day: a weight, a key of today or earlier and
of the chute, and a count; and no private chute is free. -/
def Phase.Sound (env : Env) (today : ℕ) : Phase → Prop
  | .lookedUp chute weight key | .initializing chute weight key =>
    Weight env weight ∧ key.date ≤ today ∧ key.name = env.counterName chute
  | .read _ weight requestCount => Weight env weight ∧ 0 ≤ requestCount
  | .free chute weight => Weight env weight ∧ env.isPrivate chute = false
  | .counting chute weight key =>
    Weight env weight ∧ env.isPrivate chute = false ∧ key.date ≤ today ∧
      key.name = env.counterName chute
  | .paygo | .ended => True

/-- **A sound counter**: not of a day to come, and there until its day has
ended. -/
structure Counter.Sound (env : Env) (today : ℕ) (key : CounterKey) (c : Counter) : Prop where
  date : key.date ≤ today
  nonneg : 0 ≤ c.value
  deadline : ∀ deadline ∈ c.deadline, ∀ t, env.date t = key.date → t < deadline

/-- **The invariant**: what has completed today and what is in flight are within
the quota, today's counters have all that has completed, and on the other days
nothing more is admitted. -/
structure Sound (env : Env) (s : State) : Prop where
  bounded : ∀ name, s.completed ⟨env.date s.now, name⟩ + s.inFlight env name ≤
    quotaOf env.quotaEnv env.quotas env.userId name + env.maxWeight
  counted : ∀ name, s.completed ⟨env.date s.now, name⟩ ≤
    (s.get ⟨env.date s.now, name⟩).getD 0
  past : ∀ key, key.date ≠ env.date s.now → s.completed key + s.counting key ≤
    quotaOf env.quotaEnv env.quotas env.userId key.name + env.maxWeight
  future : ∀ key, env.date s.now < key.date → s.completed key = 0
  nonneg : ∀ key, 0 ≤ s.completed key
  counters : ∀ key, ∀ c ∈ s.counters key, c.Sound env (env.date s.now) key
  phases : ∀ p ∈ s.requests, p.Sound env (env.date s.now)

/-- **A sound phase counts at most what it has in flight.** -/
theorem Phase.Sound.counted_le (h : p.Sound env today) (key : CounterKey) :
    0 ≤ p.counted key ∧ p.counted key ≤ p.inFlight env key.name := by
  cases p with
  | counting chute weight key' =>
    obtain ⟨hweight, -, -, hname⟩ := h
    simp only [Phase.counted, Phase.inFlight]
    by_cases hkey : key' = key
    · rw [if_pos hkey, if_pos (hname.symm.trans (congrArg CounterKey.name hkey))]
      exact ⟨hweight.nonneg, le_rfl⟩
    · rw [if_neg hkey]
      split_ifs
      · exact ⟨le_rfl, hweight.nonneg⟩
      · exact ⟨le_rfl, le_rfl⟩
  | lookedUp chute weight key' | paygo | ended => exact ⟨le_rfl, le_rfl⟩
  | initializing chute weight key' | read chute weight requestCount | free chute weight =>
    refine ⟨le_rfl, ?_⟩
    simp only [Phase.counted, Phase.inFlight]
    split_ifs
    · exact h.1.nonneg
    · exact le_rfl

theorem Sound.counting_le (hs : Sound env s) (key : CounterKey) :
    0 ≤ s.counting key ∧ s.counting key ≤ s.inFlight env key.name := by
  have hall : ∀ p ∈ s.requests, 0 ≤ p.counted key ∧ p.counted key ≤ p.inFlight env key.name :=
    fun p hp => (hs.phases p hp).counted_le key
  refine ⟨List.sum_nonneg fun x hx => ?_, List.sum_le_sum fun p hp => (hall p hp).2⟩
  obtain ⟨p, hp, rfl⟩ := List.mem_map.1 hx
  exact (hall p hp).1

theorem Sound.inFlight_nonneg (hs : Sound env s) (name : Option ChuteId) :
    0 ≤ s.inFlight env name :=
  (hs.counting_le ⟨0, name⟩).1.trans (hs.counting_le ⟨0, name⟩).2

/-- **A sound state is within the quota.** -/
theorem Sound.withinQuota (hs : Sound env s) : WithinQuota env s := by
  intro key
  by_cases hday : key.date = env.date s.now
  · have hbounded := hs.bounded key.name
    have hflight := hs.inFlight_nonneg key.name
    have hkey : (⟨env.date s.now, key.name⟩ : CounterKey) = key := by rw [← hday]
    rw [hkey] at hbounded
    linarith
  · have hpast := hs.past key hday
    have hcounting := (hs.counting_le key).1
    linarith

/-- A counter whose lifetime has not run out. -/
theorem get_of_lt (h : ∀ c ∈ s.counters key, ∀ deadline ∈ c.deadline, s.now < deadline) :
    s.get key = (s.counters key).map Counter.value := by
  unfold State.get State.live
  cases hc : s.counters key with
  | none => rfl
  | some c =>
    have hlive : c.deadline.all (s.now < ·) = true := by
      simpa [Option.all_eq_true] using h c hc
    simp [Option.filter, hlive]

/-- **Today's counters are there**, and stay there today. -/
theorem Sound.get_tick (hs : Sound env s) (hday : key.date = env.date s.now)
    (hsame : env.date (s.now + seconds) = env.date s.now) :
    { s with now := s.now + seconds }.get key = s.get key := by
  rw [get_of_lt fun c hc deadline hd => (hs.counters key c hc).deadline deadline hd s.now hday.symm]
  exact get_of_lt fun c hc deadline hd =>
    (hs.counters key c hc).deadline deadline hd (s.now + seconds) (hsame.trans hday.symm)

theorem get_nonneg (h : ∀ key, ∀ c ∈ s.counters key, c.Sound env today key) (key : CounterKey) :
    0 ≤ (s.get key).getD 0 := by
  unfold State.get
  cases hlive : s.live key with
  | none => exact le_rfl
  | some c =>
    have hin : (s.counters key).filter (fun c => c.deadline.all (s.now < ·)) = some c := hlive
    exact (h key c (Option.filter_eq_some_iff.1 hin).1).nonneg

/-! ## What keeps the invariant -/

theorem inFlight_set (env : Env) (hp : s.requests[r]? = some p) (p' : Phase)
    (name : Option ChuteId) :
    (s.set r p').inFlight env name + p.inFlight env name =
      s.inFlight env name + p'.inFlight env name :=
  sum_map_set hp _

theorem counting_set (hp : s.requests[r]? = some p) (p' : Phase) (key : CounterKey) :
    (s.set r p').counting key + p.counted key = s.counting key + p'.counted key :=
  sum_map_set hp _

/-- **A request that moves on** within the quota, and without a count for
another day. -/
theorem Sound.set (hs : Sound env s) (hp : s.requests[r]? = some p)
    (hsound : p'.Sound env (env.date s.now))
    (hbounded : ∀ name, s.completed ⟨env.date s.now, name⟩ + s.inFlight env name +
      p'.inFlight env name ≤ quotaOf env.quotaEnv env.quotas env.userId name + env.maxWeight +
        p.inFlight env name)
    (hpast : ∀ key, key.date ≠ env.date s.now → p'.counted key ≤ p.counted key) :
    Sound env (s.set r p') where
  bounded name := by
    have hset := inFlight_set env hp p' name
    have hname := hbounded name
    show s.completed ⟨env.date s.now, name⟩ + (s.set r p').inFlight env name ≤ _
    linarith
  counted := hs.counted
  past key hday := by
    have hset := counting_set hp p' key
    have hkey := hpast key hday
    have hpast := hs.past key hday
    show s.completed key + (s.set r p').counting key ≤ _
    linarith
  future := hs.future
  nonneg := hs.nonneg
  counters := hs.counters
  phases q hq := by
    rcases List.mem_or_eq_of_mem_set hq with hq | rfl
    · exact hs.phases q hq
    · exact hsound

/-- **A request that moves on** without taking more. -/
theorem Sound.set_of_le (hs : Sound env s) (hp : s.requests[r]? = some p)
    (hsound : p'.Sound env (env.date s.now))
    (hflight : ∀ name, p'.inFlight env name ≤ p.inFlight env name)
    (hpast : ∀ key, key.date ≠ env.date s.now → p'.counted key ≤ p.counted key) :
    Sound env (s.set r p') := by
  refine hs.set hp hsound (fun name => ?_) hpast
  have hbounded := hs.bounded name
  have hname := hflight name
  linarith

/-- **A counter that is incremented.** -/
theorem Sound.incrByFloat (hs : Sound env s) (hday : key.date ≤ env.date s.now)
    (hamount : 0 ≤ amount) : Sound env (s.incrByFloat key amount) where
  bounded := hs.bounded
  counted name := by
    have hcounted := hs.counted name
    show s.completed ⟨env.date s.now, name⟩ ≤
      ((s.incrByFloat key amount).get ⟨env.date s.now, name⟩).getD 0
    rw [get_incrByFloat]
    split_ifs with hkey
    · rw [hkey] at hcounted ⊢
      rw [Option.getD_some]
      linarith
    · exact hcounted
  past := hs.past
  future := hs.future
  nonneg := hs.nonneg
  counters key' c hc := by
    by_cases hkey : key' = key
    · subst hkey
      have hc' : c = match s.live key' with
          | some c => { c with value := c.value + amount }
          | none => ⟨amount, none⟩ := by
        simpa [State.incrByFloat, Function.update_self] using hc.symm
      cases hlive : s.live key' with
      | none =>
        rw [hlive] at hc'
        rw [hc']
        exact ⟨hday, hamount, by simp⟩
      | some c₀ =>
        rw [hlive] at hc'
        have hin : (s.counters key').filter (fun c => c.deadline.all (s.now < ·)) = some c₀ := hlive
        have hsound := hs.counters key' c₀ (Option.filter_eq_some_iff.1 hin).1
        rw [hc']
        exact ⟨hday, add_nonneg hsound.nonneg hamount, hsound.deadline⟩
    · have hframe : (s.incrByFloat key amount).counters key' = s.counters key' :=
        Function.update_of_ne hkey ..
      rw [hframe] at hc
      exact hs.counters key' c hc
  phases := hs.phases

/-- **A counter that gets its lifetime** of 25 hours. -/
theorem Sound.expire (hs : Sound env s) (hday : key.date ≤ env.date s.now) :
    Sound env (s.expire key (25 * 60 * 60)) := by
  unfold State.expire
  cases hlive : s.live key with
  | none => exact hs
  | some c₀ =>
    have hin : (s.counters key).filter (fun c => c.deadline.all (s.now < ·)) = some c₀ := hlive
    have hsound := hs.counters key c₀ (Option.filter_eq_some_iff.1 hin).1
    have hget : ∀ key', (s.expire key (25 * 60 * 60)).get key' = s.get key' :=
      fun _ => get_expire (by norm_num)
    simp only [State.expire, hlive] at hget
    refine ⟨hs.bounded, fun name => ?_, hs.past, hs.future, hs.nonneg, fun key' c hc => ?_,
      hs.phases⟩
    · show s.completed _ ≤ _
      rw [hget]
      exact hs.counted name
    · by_cases hkey : key' = key
      · subst hkey
        obtain rfl : { c₀ with deadline := some (s.now + 25 * 60 * 60) } = c := by
          simpa [Function.update_self] using hc
        refine ⟨hday, hsound.nonneg, fun deadline hdeadline t ht => ?_⟩
        obtain rfl := Option.some.inj hdeadline
        rcases hday.eq_or_lt with heq | hlt
        · exact env.date_short s.now t (heq.symm.trans ht.symm)
        · have hearlier : t < s.now := by
            by_contra hle
            have hmono := env.date_mono (not_lt.1 hle)
            omega
          omega
      · have hframe : Function.update s.counters key
            (some { c₀ with deadline := some (s.now + 25 * 60 * 60) }) key' = s.counters key' :=
          Function.update_of_ne hkey ..
        exact hs.counters key' c (hframe ▸ hc)

/-- **An invocation that completes** once it is counted. -/
theorem Sound.complete (hs : Sound env s)
    (hp : s.requests[r]? = some (.counting chute weight key))
    (hcount : key.date = env.date s.now → s.completed key + weight ≤ (s.get key).getD 0) :
    Sound env ((s.complete key weight).set r .ended) := by
  obtain ⟨hweight, -, hday, hname⟩ := hs.phases _ (List.mem_of_getElem? hp)
  have hdone : ∀ key', (s.complete key weight).completed key' =
      s.completed key' + if key' = key then weight else 0 := by
    intro key'
    by_cases hkey : key' = key
    · subst hkey
      simp [State.complete]
    · simp [State.complete, hkey]
  have hrequests : ∀ q ∈ (s.requests.set r .ended), q.Sound env (env.date s.now) := by
    intro q hq
    rcases List.mem_or_eq_of_mem_set hq with hq | rfl
    · exact hs.phases q hq
    · trivial
  refine ⟨fun name => ?_, fun name => ?_, fun key' hday' => ?_, fun key' hlater => ?_,
    fun key' => ?_, hs.counters, hrequests⟩
  · have hset := inFlight_set env hp .ended name
    have hbounded := hs.bounded name
    have hended : Phase.inFlight env name .ended = 0 := rfl
    have hflight : (if (⟨env.date s.now, name⟩ : CounterKey) = key then weight else 0) ≤
        Phase.inFlight env name (.counting chute weight key) := by
      simp only [Phase.inFlight]
      split_ifs with hkey hcounter
      · exact le_rfl
      · exact absurd (by rw [← hname, ← hkey]) hcounter
      · exact hweight.nonneg
      · exact le_rfl
    show (s.complete key weight).completed ⟨env.date s.now, name⟩ +
      (s.set r .ended).inFlight env name ≤ _
    rw [hdone]
    linarith
  · have hcounted := hs.counted name
    show (s.complete key weight).completed ⟨env.date s.now, name⟩ ≤
      (s.get ⟨env.date s.now, name⟩).getD 0
    rw [hdone]
    split_ifs with hkey
    · rw [hkey]
      exact hcount (congrArg CounterKey.date hkey.symm)
    · rwa [add_zero]
  · have hset := counting_set hp .ended key'
    have hpast := hs.past key' hday'
    have hended : Phase.counted key' .ended = 0 := rfl
    have hcounted : Phase.counted key' (.counting chute weight key) =
        if key' = key then weight else 0 := by
      simp only [Phase.counted, eq_comm]
    show (s.complete key weight).completed key' + (s.set r .ended).counting key' ≤ _
    rw [hdone]
    linarith
  · have hne : key' ≠ key := fun heq => by
      have hlt : env.date s.now < key'.date := hlater
      rw [heq] at hlt
      omega
    show (s.complete key weight).completed key' = 0
    rw [hdone, if_neg hne, add_zero]
    exact hs.future key' hlater
  · show 0 ≤ (s.complete key weight).completed key'
    rw [hdone]
    have hnonneg := hs.nonneg key'
    have hwn := hweight.nonneg
    split_ifs <;> linarith

/-- A phase stays sound. -/
theorem Phase.Sound.mono {later : ℕ} (h : p.Sound env today) (hle : today ≤ later) :
    p.Sound env later := by
  cases p with
  | lookedUp | initializing => exact ⟨h.1, h.2.1.trans hle, h.2.2⟩
  | counting => exact ⟨h.1, h.2.1, h.2.2.1.trans hle, h.2.2.2⟩
  | read | free => exact h
  | paygo | ended => trivial

/-- **Time**: on a new day nothing is counted, and what is in flight is still
within the quota. -/
theorem Sound.tick (hs : Sound env s) (seconds : ℕ) :
    Sound env { s with now := s.now + seconds } := by
  have hlater : env.date s.now ≤ env.date (s.now + seconds) := env.date_mono (Nat.le_add_right _ _)
  have hcounters : ∀ key, ∀ c ∈ s.counters key, c.Sound env (env.date (s.now + seconds)) key :=
    fun key c hc =>
      have hsound := hs.counters key c hc
      ⟨hsound.date.trans hlater, hsound.nonneg, hsound.deadline⟩
  have hphases : ∀ q ∈ s.requests, q.Sound env (env.date (s.now + seconds)) :=
    fun q hq => (hs.phases q hq).mono hlater
  rcases hlater.eq_or_lt with hsame | hnew
  · refine ⟨fun name => ?_, fun name => ?_, fun key hday => ?_, fun key hday => ?_, hs.nonneg,
      hcounters, hphases⟩
    · show s.completed ⟨env.date (s.now + seconds), name⟩ + s.inFlight env name ≤ _
      rw [← hsame]
      exact hs.bounded name
    · rw [← hsame, hs.get_tick rfl hsame.symm]
      exact hs.counted name
    · exact hs.past key (hsame ▸ hday)
    · exact hs.future key (hlater.trans_lt hday)
  · have hzero : ∀ name, s.completed ⟨env.date (s.now + seconds), name⟩ = 0 :=
      fun name => hs.future _ hnew
    refine ⟨fun name => ?_, fun name => ?_, fun key hday => ?_, fun key hday => ?_, hs.nonneg,
      hcounters, hphases⟩
    · show s.completed ⟨env.date (s.now + seconds), name⟩ + s.inFlight env name ≤ _
      have hbounded := hs.bounded name
      have hdone := hs.nonneg ⟨env.date s.now, name⟩
      rw [hzero]
      linarith
    · have hget := get_nonneg (s := { s with now := s.now + seconds }) hcounters
        ⟨env.date (s.now + seconds), name⟩
      exact (hzero name).le.trans hget
    · by_cases hold : key.date = env.date s.now
      · have hbounded := hs.bounded key.name
        have hkey : (⟨env.date s.now, key.name⟩ : CounterKey) = key := by rw [← hold]
        rw [hkey] at hbounded
        exact (add_le_add_right (hs.counting_le key).2 _).trans hbounded
      · exact hs.past key hold
    · exact hs.future key (hlater.trans_lt hday)

@[simp] theorem requests_expire : (s.expire key seconds).requests = s.requests := by
  unfold State.expire
  cases s.live key <;> rfl

@[simp] theorem now_expire : (s.expire key seconds).now = s.now := by
  unfold State.expire
  cases s.live key <;> rfl

/-- **A lookup** adds a request that takes nothing yet. -/
theorem Sound.lookup (hs : Sound env s) (chute : Chute) (reroll : Bool) :
    Sound env { s with
      requests := s.requests ++ [.lookedUp chute (env.weight reroll) (s.keyOf env chute)] } := by
  set p : Phase := .lookedUp chute (env.weight reroll) (s.keyOf env chute) with hp
  have hflight : ∀ name, ((s.requests ++ [p]).map (Phase.inFlight env name)).sum =
      s.inFlight env name := fun name => by
    simp [State.inFlight, hp, Phase.inFlight]
  have hcounting : ∀ key, ((s.requests ++ [p]).map (Phase.counted key)).sum = s.counting key :=
    fun key => by simp [State.counting, hp, Phase.counted]
  refine ⟨fun name => ?_, hs.counted, fun key hday => ?_, hs.future, hs.nonneg, hs.counters,
    fun q hq => ?_⟩
  · have hbounded := hs.bounded name
    rwa [← hflight] at hbounded
  · have hpast := hs.past key hday
    rwa [← hcounting] at hpast
  · rcases List.mem_append.1 hq with hq | hq
    · exact hs.phases q hq
    · obtain rfl := List.mem_singleton.1 hq
      exact ⟨⟨weight_nonneg reroll, weight_le reroll⟩, le_rfl, rfl⟩

/-- **The count that is read** lets the invocation through within the quota. -/
theorem Sound.get (hs : Sound env s) (hclean : Clean env s (.get r))
    (hp : s.requests[r]? = some (.lookedUp chute weight key)) {p' : Phase}
    (hsound : p'.Sound env (env.date s.now)) (hpast : ∀ key, p'.counted key = 0)
    (hflight : ∀ name, p'.inFlight env name =
      if env.counterName chute = name ∧ (s.get key).getD 0 < env.quotaFor chute then weight
      else 0) :
    Sound env (s.set r p') := by
  have hweight := (hs.phases _ (List.mem_of_getElem? hp)).1
  have hnone : ∀ name, Phase.inFlight env name (.lookedUp chute weight key) = 0 := fun _ => rfl
  refine hs.set hp hsound (fun name => ?_) fun key' _ => (hpast key').le
  rw [hflight, hnone]
  split_ifs with hthrough
  · obtain ⟨rfl, hbelow⟩ := hthrough
    simp only [Clean, hp] at hclean
    have hchecked := hclean hbelow
    have hcounted := hs.counted (env.counterName chute)
    have hquota : (env.quotaFor chute : ℚ) ≤
        quotaOf env.quotaEnv env.quotas env.userId (env.counterName chute) := by
      exact_mod_cast quotaFor_le
    have hle := hweight.le
    simp only [State.keyOf] at hchecked
    linarith
  · have hbounded := hs.bounded name
    linarith

/-- **A clean step keeps the invariant.** -/
theorem Sound.step {e : Event} (hs : Sound env s) (hclean : Clean env s e)
    (h : step env s e = some s') : Sound env s' := by
  cases e with
  | tick seconds =>
    obtain rfl := Option.some.inj h
    exact hs.tick seconds
  | lookup chute reroll =>
    simp only [FreeQuota.step] at h
    split at h
    · cases h
    · obtain rfl := Option.some.inj h
      exact hs.lookup chute reroll
  | get r =>
    simp only [FreeQuota.step] at h
    split at h
    · next chute weight key hp =>
      have hlooked := hs.phases _ (List.mem_of_getElem? hp)
      have hnonneg := get_nonneg hs.counters key
      split at h
      · next requestCount hget =>
        obtain rfl := Option.some.inj h
        rw [hget, Option.getD_some] at hnonneg
        refine hs.get hclean hp ⟨hlooked.1, hnonneg⟩ (fun _ => rfl) fun name => ?_
        rw [hget]
        rfl
      · next hget =>
        obtain rfl := Option.some.inj h
        refine hs.get hclean hp hlooked (fun _ => rfl) fun name => ?_
        rw [hget]
        simp [Phase.inFlight]
    · cases h
  | init r =>
    simp only [FreeQuota.step] at h
    split at h
    · next chute weight key hp =>
      have hstart := hs.phases _ (List.mem_of_getElem? hp)
      obtain rfl := Option.some.inj h
      have hkept : Sound env (s.incrByFloat key 0) := hs.incrByFloat hstart.2.1 le_rfl
      have hthere := hkept.expire hstart.2.1
      have hp' : ((s.incrByFloat key 0).expire key (25 * 60 * 60)).requests[r]? =
          some (.initializing chute weight key) := by
        rw [requests_expire]
        exact hp
      refine hthere.set_of_le hp' ⟨hstart.1, le_rfl⟩ (fun name => ?_) fun _ _ => le_rfl
      simp [Phase.inFlight]
    · cases h
  | decide r effectiveBalance =>
    simp only [FreeQuota.step] at h
    split at h
    · next chute weight requestCount hp =>
      have hread := hs.phases _ (List.mem_of_getElem? hp)
      have hfree : ∀ name, 0 ≤ Phase.inFlight env name (.read chute weight requestCount) :=
        fun name => by
          simp only [Phase.inFlight]
          split_ifs
          · exact hread.1.nonneg
          · exact le_rfl
      split at h
      · next hexceeded =>
        obtain rfl := Option.some.inj h
        split_ifs
        · exact hs.set_of_le hp trivial hfree fun _ _ => le_rfl
        · exact hs.set_of_le hp trivial hfree fun _ _ => le_rfl
      · next hbelow =>
        obtain rfl := Option.some.inj h
        have hpublic : env.isPrivate chute = false := by
          by_contra hprivate
          have hzero : env.quotaFor chute = 0 := by
            unfold Env.quotaFor
            rw [if_pos (by simpa using hprivate)]
          rw [hzero, Int.cast_zero] at hbelow
          exact hbelow hread.2
        refine hs.set_of_le hp ⟨hread.1, hpublic⟩ (fun name => ?_) fun _ _ => le_rfl
        simp only [Phase.inFlight, not_le.1 hbelow, and_true]
        exact le_rfl
    · cases h
  | complete r =>
    simp only [FreeQuota.step] at h
    split at h
    · next chute weight hp =>
      have hfree := hs.phases _ (List.mem_of_getElem? hp)
      split at h
      · obtain rfl := Option.some.inj h
        exact hs
      · next discount hdiscount =>
        have hcounted : (discount.lt 1 && !env.isPrivate chute) = true := by
          simp only [Clean, hp] at hclean
          rw [hclean discount hdiscount, hfree.2]
          rfl
        rw [if_pos hcounted] at h
        obtain rfl := Option.some.inj h
        refine hs.set_of_le hp ⟨hfree.1, hfree.2, le_rfl, rfl⟩ (fun name => le_rfl)
          fun key hday => ?_
        have hother : s.keyOf env chute ≠ key := fun heq => hday (heq ▸ rfl)
        simp only [Phase.counted, if_neg hother]
        exact le_rfl
    · cases h
  | count r applied committed =>
    simp only [FreeQuota.step] at h
    split at h
    · next chute weight key hp =>
      have hcounting := hs.phases _ (List.mem_of_getElem? hp)
      obtain rfl := Option.some.inj h
      have hback : ∀ {t : State}, Sound env t → t.requests[r]? = some (.counting chute weight key) →
          Sound env (t.set r (.free chute weight)) := fun ht hpt => by
        refine ht.set_of_le hpt ⟨hcounting.1, hcounting.2.1⟩ (fun name => le_rfl) fun key' _ => ?_
        simp only [Phase.counted]
        split_ifs
        · exact hcounting.1.nonneg
        · exact le_rfl
      cases applied with
      | false =>
        -- what is not counted is not committed
        have hnot : committed = false := by simpa [Clean] using hclean
        subst hnot
        exact hback hs hp
      | true =>
        have hincr : Sound env (s.incrByFloat key weight) :=
          hs.incrByFloat hcounting.2.2.1 hcounting.1.nonneg
        cases committed with
        | false => exact hback hincr hp
        | true =>
          refine hincr.complete hp fun hday => ?_
          have hdone := hs.counted key.name
          have hkey : (⟨env.date s.now, key.name⟩ : CounterKey) = key := by
            rw [show env.date s.now = key.date from hday.symm]
          rw [hkey] at hdone
          rw [get_incrByFloat, if_pos rfl, Option.getD_some]
          show s.completed key + weight ≤ _
          linarith
    · cases h
  | leave r =>
    simp only [FreeQuota.step] at h
    split at h
    · cases h
    · cases h
    · next p _ hp =>
      obtain rfl := Option.some.inj h
      have hsound := hs.phases p (List.mem_of_getElem? hp)
      refine hs.set_of_le hp trivial (fun name => ?_) fun key _ => (hsound.counted_le key).1
      exact (hsound.counted_le ⟨0, name⟩).1.trans (hsound.counted_le ⟨0, name⟩).2

theorem sound_init (h : (system env).init s) : Sound env s := by
  obtain ⟨hcounters, hrequests, hcompleted⟩ := h
  have hmax : 0 ≤ env.maxWeight := zero_le_one.trans (le_max_left _ _)
  have hquota : ∀ name, (0 : ℚ) ≤ quotaOf env.quotaEnv env.quotas env.userId name :=
    fun name => by exact_mod_cast env.quota_nonneg name
  have hflight : ∀ name, s.inFlight env name = 0 := fun name => by simp [State.inFlight, hrequests]
  have hcounting : ∀ key, s.counting key = 0 := fun key => by simp [State.counting, hrequests]
  refine ⟨fun name => ?_, fun name => ?_, fun key _ => ?_, fun key _ => hcompleted key,
    fun key => (hcompleted key).ge, fun key c hc => ?_, fun p hp => ?_⟩
  · rw [hcompleted, hflight]
    linarith [hquota name]
  · rw [hcompleted]
    exact (by simp [State.get, State.live, hcounters] : (0 : ℚ) = _).le
  · rw [hcompleted, hcounting]
    linarith [hquota key.name]
  · rw [hcounters] at hc
    cases hc
  · rw [hrequests] at hp
    cases hp

/-- **The free quota is not exceeded** by more than one invocation in any run
whose steps are clean. -/
theorem free_withinQuota {events : List Event} (h : (system env).Reach (Clean env) events s) :
    WithinQuota env s := by
  have hsound : Sound env s :=
    h.invariant (fun _ => sound_init) fun _ _ _ hs hclean hstep => hs.step hclean hstep
  exact hsound.withinQuota

/-! ## Concurrent checks -/

private def oneDefault : Quota.Env where
  defaultQuotas := Dict.ofList [("*", 1)]
  defaultDiscounts := .empty
  users := ⟨[], List.Pairwise.nil⟩
  strftime _ := ""

private theorem oneDefault_nonneg :
    ∀ name, 0 ≤ quotaOf oneDefault .empty "u" name
  | none => by decide
  | some chuteId => by
    have hone : ∀ n ∈ oneDefault.defaultQuotas.get? chuteId, n = 1 := fun n hn => by
      have hmem : (chuteId, n) ∈ [(("*" : ChuteId), (1 : ℤ))] := Dict.get?_eq_some.1 hn
      simpa using (Prod.mk.inj (List.mem_singleton.1 hmem)).2
    show 0 ≤ (oneDefault.defaultQuotas.get? chuteId).getD _
    cases hget : oneDefault.defaultQuotas.get? chuteId with
    | none => decide
    | some n =>
      rw [hone n hget]
      decide

/-- One invocation is free each day. -/
private def oneFree : Env where
  quotaEnv := oneDefault
  quotas := .empty
  userId := "u"
  chutesUserId := none
  rerollMultiplier := 1 / 10
  date t := t / (24 * 60 * 60)
  reroll_nonneg := by norm_num
  quota_nonneg := oneDefault_nonneg
  date_mono _ _ h := Nat.div_le_div_right h
  date_short t t' h := by omega

private def publicChute : Chute where
  chuteId := "c"
  userId := "v"
  name := "n"
  isPublic := true
  standardTemplate := none
  concurrency := none
  discount := some (.finite 0)
  createdAt := 0

/-- **Three at once**: each is checked before any has completed. -/
private def threeAtOnce : List Event :=
  [.lookup publicChute false, .lookup publicChute false, .lookup publicChute false,
    .get 0, .get 1, .get 2, .init 0, .init 1, .init 2, .decide 0 0, .decide 1 0, .decide 2 0,
    .complete 0, .complete 1, .complete 2, .count 0 true true, .count 1 true true,
    .count 2 true true]

private def start : State := ⟨0, fun _ => none, [], fun _ => 0⟩

private theorem init_start : (system oneFree).init start := ⟨fun _ => rfl, rfl, fun _ => rfl⟩

/-- Three invocations are free, where one is within the quota. -/
theorem not_withinQuota : ¬ ∀ env events s, (system env).Run events s → WithinQuota env s := by
  intro h
  have hthree : ((system oneFree).exec start threeAtOnce).map (fun s => s.completed ⟨0, none⟩) =
      some 3 := by
    decide +kernel
  obtain ⟨s, hrun, hcompleted⟩ := Option.map_eq_some_iff.1 hthree
  have hmeets : (system oneFree).Meets (fun _ _ => True) start threeAtOnce :=
    Lts.meets_of_forall (fun _ _ _ => trivial) start
  have hwithin := h oneFree threeAtOnce s (Lts.reach_of_exec init_start hmeets hrun) ⟨0, none⟩
  rw [hcompleted] at hwithin
  exact absurd hwithin (by decide +kernel)

/-- One after the other, of which the first is free. -/
private def oneByOne : List Event :=
  [.lookup publicChute false, .get 0, .init 0, .decide 0 0, .complete 0, .count 0 true true,
    .lookup publicChute false, .get 1, .decide 1 5]

/-- Each check finds what was before it counted. -/
private theorem meets_oneByOne : (system oneFree).Meets (Clean oneFree) start oneByOne := by
  decide +kernel

theorem free_withinQuota_oneByOne :
    ∃ s, (system oneFree).Reach (Clean oneFree) oneByOne s ∧ WithinQuota oneFree s := by
  have hruns : ((system oneFree).exec start oneByOne).isSome := by decide +kernel
  obtain ⟨s, hrun⟩ := Option.isSome_iff_exists.1 hruns
  have hreach := Lts.reach_of_exec init_start meets_oneByOne hrun
  exact ⟨s, hreach, free_withinQuota hreach⟩

end FreeQuota

end ChutesApi
