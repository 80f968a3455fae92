import ChutesApi.Invoke.Model.Attempt
import ChutesApi.Python.Exc
/-!
# Adaptive averages

`AdaptiveEMA` keeps an exponential moving average of a key in Redis, with a
coefficient that follows how often the key is updated. Its script runs in
Redis, where it reads and writes the fields of a hash and returns a table.
Redis turns the table into its reply: a number loses what is behind its
decimal point, and a `nil` ends the reply. The doubles of Lua are idealised as
rationals, in the script and in the texts that the hash keeps: nothing is
rounded.

`PerfTracker` updates two of them for a streamed invocation, and only reads
them for another.
-/

namespace ChutesApi

namespace Metrics

open Python

/-! ## The script -/

/-- The parameters of an average. `AdaptiveEMA` is only made with its
defaults, which are in these bounds. -/
structure Config where
  targetWindow : ℚ := 600
  minAlpha : ℚ := 1 / 10000
  maxAlpha : ℚ := 1 / 10
  minCount : ℕ := 25
  window_pos : 0 < targetWindow := by norm_num
  alpha_pos : 0 < minAlpha := by norm_num
  alpha_le : minAlpha ≤ maxAlpha := by norm_num
  alpha_lt : maxAlpha < 1 := by norm_num

/-- The fields of the hash. -/
structure Fields where
  ema : Option ℚ := none
  count : Option ℕ := none
  lastTime : Option ℚ := none
  recentRate : Option ℚ := none
  lastAlpha : Option ℚ := none
  deriving DecidableEq

/-- A new value, and when it comes. -/
structure Update where
  value : ℚ
  time : ℚ
  deriving DecidableEq

variable (cfg : Config)

/-- `new_rate`, of a key that has an average. -/
def newRate (data : Fields) (currentTime : ℚ) : ℚ :=
  match data.lastTime with
  | some lastTime =>
    if 0 < currentTime - lastTime then
      let instantRate := 1 / (currentTime - lastTime)
      match data.recentRate with
      | some recentRate => 0.1 * instantRate + 0.9 * recentRate
      | none => instantRate
    else data.recentRate.getD 1
  | none => 1

/-- `alpha`, of a rate. The quotient by zero is infinite. -/
def alphaOf (rate : ℚ) : ℚ :=
  let targetSamples := rate * cfg.targetWindow
  if targetSamples = 0 then cfg.maxAlpha
  else if 1 / targetSamples < cfg.minAlpha then cfg.minAlpha
  else if cfg.maxAlpha < 1 / targetSamples then cfg.maxAlpha
  else 1 / targetSamples

/-- What the script sets. A key with an average and no count is an error of
the script. -/
def next (data : Fields) (u : Update) : Option Fields :=
  match data.ema with
  | none => some ⟨some u.value, some 1, some u.time, some 1, some cfg.maxAlpha⟩
  | some currentEma => data.count.map fun currentCount =>
    let rate := newRate data u.time
    let alpha := alphaOf cfg rate
    ⟨some (alpha * u.value + (1 - alpha) * currentEma), some (currentCount + 1), some u.time,
      some rate, some alpha⟩

/-- The coefficient is between its bounds, whatever the rate. -/
theorem alphaOf_mem (rate : ℚ) :
    cfg.minAlpha ≤ alphaOf cfg rate ∧ alphaOf cfg rate ≤ cfg.maxAlpha := by
  have hle := cfg.alpha_le
  unfold alphaOf
  dsimp only
  split_ifs with h0 hmin hmax
  · exact ⟨hle, le_rfl⟩
  · exact ⟨le_rfl, hle⟩
  · exact ⟨hle, le_rfl⟩
  · exact ⟨not_lt.1 hmin, not_lt.1 hmax⟩

variable {cfg} in
/-- The script sets every field, the coefficient between its bounds. -/
theorem next_eq_some {data data' : Fields} {u : Update} (h : next cfg data u = some data') :
    ∃ e n r a, data' = ⟨some e, some n, some u.time, some r, some a⟩ ∧
      cfg.minAlpha ≤ a ∧ a ≤ cfg.maxAlpha := by
  unfold next at h
  cases hema : data.ema with
  | none =>
    rw [hema, Option.some.injEq] at h
    exact ⟨_, _, _, _, h.symm, cfg.alpha_le, le_rfl⟩
  | some e =>
    rw [hema, Option.map_eq_some_iff] at h
    obtain ⟨n, -, rfl⟩ := h
    exact ⟨_, _, _, _, rfl, alphaOf_mem cfg _⟩

/-- A value of a table; `none` is `nil`. -/
abbrev LuaTable := List (Option ℚ)

/-- The table the script returns. -/
def table (data : Fields) : LuaTable :=
  [if cfg.minCount ≤ data.count.getD 0 then data.ema else none, data.lastAlpha, data.recentRate]

/-! ## The reply -/

/-- `(long long) q`. -/
def truncate (q : ℚ) : ℤ := q.num.tdiv q.den

/-- What Redis replies with: the numbers before the first `nil`, as
integers. -/
def reply : LuaTable → List ℤ
  | some q :: values => truncate q :: reply values
  | _ => []

/-- What `update` makes of a reply. -/
def readReply : List ℤ → Except Exc (Option ℚ × ℚ × ℚ)
  | [ema, alpha, rate] => .ok (some ema, alpha, rate)
  | _ => .error (.raised .other)

/-- **`AdaptiveEMA.update`**: what it leaves, and what it returns. -/
def update (data : Fields) (u : Update) : Fields × Except Exc (Option ℚ × ℚ × ℚ) :=
  match next cfg data u with
  | none => (data, .error (.raised .other))
  | some data => (data, readReply (reply (table cfg data)))

/-- What `get_info` returns of a key that exists. -/
structure Info where
  ema : Option ℚ
  count : ℕ
  recentRate : ℚ
  lastAlpha : Option ℚ
  ready : Bool
  deriving DecidableEq

/-- **`AdaptiveEMA.get_info`.** -/
def getInfo (data : Fields) : Option Info :=
  if data = {} then none
  else some ⟨data.ema, data.count.getD 0, data.recentRate.getD 0, data.lastAlpha,
    data.count.any (cfg.minCount ≤ ·)⟩

/-! ## The tracker of performance -/

/-- The averages of a chute: prompt tokens and output tokens per second. -/
structure Trackers where
  ptps : Fields
  otps : Fields
  deriving DecidableEq

/-- The tokens that were processed, and the time to the first one. -/
def tokensOf : Invoke.Metrics → ℚ × ℚ × Option ℚ
  | .llm m => (m.it, m.ot, m.ttft)
  | .diffusion _ => (0, 0, none)

/-- `metrics.get("steps")`. -/
def stepsOf : Invoke.Metrics → ℚ
  | .llm _ => 0
  | .diffusion m => m.steps

/-- The average that an update returns, if it does not raise and returns
one. -/
def returned (result : Except Exc (Option ℚ × ℚ × ℚ)) : Option ℚ :=
  match result with
  | .ok (ema, _) => ema
  | .error _ => none

/-- The averages of a streamed invocation, which it updates: of `now` are the
times of the two updates. -/
def streamedAverages (trackers : Trackers) (now : ℚ × ℚ) (duration it ot ttft : ℚ) :
    Trackers × Option (ℚ × ℚ) :=
  let (ptps, prompt) := update cfg trackers.ptps ⟨it / ttft, now.1⟩
  let (otps, output) :=
    if ot ≠ 0 ∧ duration - ttft ≠ 0 then
      update cfg trackers.otps ⟨ot / (duration - ttft), now.2⟩
    else (trackers.otps, .error (.raised .other))
  (⟨ptps, otps⟩,
    match returned prompt, returned output with
    | some pema, some oema => if pema ≠ 0 ∧ oema ≠ 0 then some (pema, oema) else none
    | _, _ => none)

/-- The averages of another invocation. -/
def storedAverages (trackers : Trackers) : Option (ℚ × ℚ) :=
  match getInfo cfg trackers.ptps, getInfo cfg trackers.otps with
  | some prompt, some output =>
    if prompt.ready ∧ output.ready then
      match prompt.ema, output.ema with
      | some pema, some oema => some (pema, oema)
      | _, _ => none
    else none
  | _, _ => none

/-- **`PerfTracker.update_invocation_metrics`**, with what `update_average`
returns of the seconds per step and per token. -/
def updateInvocationMetrics (average : String → ℚ → ℚ) (trackers : Trackers) (now : ℚ × ℚ)
    (duration : ℚ) (metrics : Invoke.Metrics) (isPublic : Bool) : Trackers × Invoke.Perf :=
  if duration ≤ 0 then (trackers, {})
  else
    let (it, ot, ttft) := tokensOf metrics
    let perf : Invoke.Perf := {
      p := if isPublic then none else some true
      masps :=
        if 0 < stepsOf metrics then some (round (average "sps" (duration / stepsOf metrics)) 8)
        else none }
    if 0 < it + ot then
      let (trackers, averages) :=
        match ttft with
        | none | some 0 => (trackers, storedAverages cfg trackers)
        | some ttft => streamedAverages cfg trackers now duration it ot ttft
      (trackers, { perf with
        maspt := some (round (average "spt" (duration / (it + ot))) 8)
        ptps := averages.map Prod.fst
        otps := averages.map Prod.snd
        nc := averages.map fun (ptps, otps) =>
          (if 0 < ptps then it / ptps else 0) + if 0 < otps then ot / otps else 0 })
    else (trackers, perf)

end Metrics

end ChutesApi
