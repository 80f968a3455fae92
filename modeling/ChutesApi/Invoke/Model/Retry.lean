import ChutesApi.Invoke.Model.Pricing
import ChutesApi.Payment.Model.Usage
/-!
# Invocations

`invoke` makes up to five attempts. An attempt inserts its row, sends on
what the instance answers, and then, in one session, marks the row as
complete, prices the request, ships the usage to Redis, counts it against
the quota and commits. Whatever raises in between, the session is rolled
back, the row gets the error, and the next attempt follows.

Which instance is routed to, how it answers, which of the calls raise and
at which of them the caller is gone are the inputs of an attempt.
-/

namespace ChutesApi

namespace Invoke

/-- What becomes of a pipeline. What it raises is caught, unless the caller
is gone by then. -/
structure Execution where
  executes : Bool := true
  cancelled : Bool := false
  deriving DecidableEq

/-- What an attempt meets outside `invoke`: of each call what it returns,
or raises. A generator that is closed where it has yielded something is as
good as cancelled at the call that follows. -/
structure Attempt where
  /-- `get_target`: an instance, or why there is none. -/
  target : Except (Option String) Target
  /-- The insertion of the row. -/
  track : Option Failure := none
  post : Except Failure Response
  /-- `claim_bounty`. -/
  bounty : Option ℕ := none
  /-- The update of the row, which returns the compute units. -/
  update : Except Failure (Option ℚ)
  quotes : Quotes
  /-- `chutes_user_id()`, before the charge, for the quota and for the
  shutdown. -/
  chargeOwner : Except Failure (Option UserId)
  quotaOwner : Except Failure (Option UserId)
  shutdownOwner : Except Failure (Option UserId)
  /-- The pipelines of the usage and of the quota. -/
  pipeline : Execution := {}
  quota : Execution := {}
  timestamp : ℕ
  /-- The commit, after which the session has nothing left to do. -/
  commit : Option Failure := none
  /-- The update of the row with an error. -/
  recordError : Option Failure := none
  /-- The consecutive failures of the instance. -/
  failures : Except Failure ℕ := .ok 0
  /-- The commit of that update, with the deletion of the instance or
  alone. -/
  dropInstance : Option Failure := none
  commitError : Option Failure := none

/-- The settings. -/
structure Settings where
  rerollMultiplier : ℚ := 1 / 10
  consecutiveFailureLimit : ℕ := 7

/-- What is committed of an invocation row: its metrics and bounty, or its
error. -/
inductive InvocationRow
  | started
  | completed (metrics : Option Metrics) (bounty : ℕ)
  | failed (errorMessage : String)
  deriving DecidableEq

/-- What is sent to the caller, a result with the number of its attempt. -/
inductive Event
  | trace
  | result (attempt : ℕ) (data : String)
  | error (error : String)
  deriving DecidableEq

/-- What an invocation carries through its attempts, and what it leaves in
the database, in Redis and with the caller. -/
structure State where
  metrics : Option Metrics
  avoid : List String := []
  infraOverload : Bool := false
  events : List Event := [.trace]
  /-- A row for each attempt. -/
  rows : List InvocationRow := []
  /-- The usage shipped, each with the number of its attempt. -/
  charges : List (ℕ × Usage.Invocation) := []
  /-- What is counted against the quota. -/
  quotaUsed : ℚ := 0

/-- How the loop goes on. -/
inductive Flow
  | retry
  | returned
  | raised
  deriving DecidableEq

variable (settings : Settings) (codec : Codec) (req : Request)

/-! ## The accounting -/

/-- Neither public nor billed by the old rules. -/
def Request.isPrivate (req : Request) : Bool :=
  !req.chute.isPublic && !hasLegacyPrivateBilling req.chute

/-- **What is shipped**: the balance used, and to whom it is added. -/
def usage (e : Attempt) (metrics : Option Metrics) : Except Failure Usage.Invocation := do
  let computeUnits ← e.update
  let used ← balanceUsed settings.rerollMultiplier req metrics computeUnits e.quotes
  let credits ← if req.isPrivate then
      e.chargeOwner.map fun owner => decide (some req.chute.userId ≠ owner)
    else pure false
  let tokens :=
    if req.chute.standardTemplate = some .vllm ∧ metrics.isSome then some (tokensOf metrics)
    else none
  let invocation := ⟨req.userId, req.chute.chuteId, used, tokens, e.timestamp, none⟩
  return if !credits then invocation
    else if req.userId = req.chute.userId then { invocation with balanceUsed := 0 }
    else { invocation with addBalanceTo := some req.chute.userId }

/-- The quota is counted: of a free invocation of a chute with a discount
below 1, unless it is private. A discount that is null does not compare. -/
def countsQuota (e : Attempt) : Except Failure Bool :=
  if req.freeInvocation then
    match req.chute.discount with
    | none => .error (.other "'<' not supported between instances of 'NoneType' and 'float'")
    | some discount =>
      if !discount.lt 1 then .ok false
      else if !req.isPrivate then .ok true
      else e.quotaOwner.map fun owner => decide (some req.chute.userId = owner)
  else .ok false

/-- The rest of the session, after the usage is shipped: what the quota
is charged, and what is raised. -/
def afterCharge (e : Attempt) : ℚ × Option Failure :=
  if e.pipeline.cancelled then (0, some .cancelled)
  else match countsQuota req e with
  | .error f => (0, some f)
  | .ok counts =>
    let used : ℚ :=
      if counts ∧ e.quota.executes then if req.reroll then settings.rerollMultiplier else 1 else 0
    if counts ∧ e.quota.cancelled then (used, some .cancelled)
    else match if req.isPrivate then e.shutdownOwner else .ok none with
    | .error f => (used, some f)
    | .ok _ => (used, e.commit)

/-! ## Errors -/

/-- `error_message`. -/
def Failure.errorMessage : Failure → String
  | .instanceRateLimit => "RATE_LIMIT"
  | .badRequest _ => "BAD_REQUEST"
  | .keyExchangeRequired => "KEY_EXCHANGE_REQUIRED"
  | .emptyLlmResponse => "EMPTY_STREAM"
  | .other message => message
  | .cancelled => ""

/-- What the handling of an error raises. -/
def cleanUp (e : Attempt) (f : Failure) : Option Failure :=
  e.recordError <|>
    match f with
    | .keyExchangeRequired => e.dropInstance
    | .instanceRateLimit => e.commitError
    | .badRequest _ => e.commitError
    | _ =>
      match e.failures with
      | .error f => some f
      | .ok n =>
        if n ≠ 0 ∧ settings.consecutiveFailureLimit ≤ n then e.dropInstance else e.commitError

/-- **The `except` branch**, if the caller is still there. -/
def fail (s : State) (e : Attempt) (target : Target) (f : Failure) : State × Flow :=
  if f = .cancelled then ({ s with rows := s.rows ++ [.started] }, .raised)
  else
    let s : State := { s with
      avoid := s.avoid ++ [target.instanceId]
      infraOverload := s.infraOverload || f == Failure.instanceRateLimit }
    match cleanUp settings e f with
    | some _ => ({ s with rows := s.rows ++ [.started] }, .raised)
    | none =>
      let s : State := { s with rows := s.rows ++ [.failed f.errorMessage] }
      match f with
      | .badRequest _ => ({ s with events := s.events ++ [.error "bad_request"] }, .returned)
      | _ => ({ s with events := s.events ++ [.trace] }, .retry)

/-- A failed attempt charges nothing further and its row is not completed. -/
theorem fail_spec (s : State) (e : Attempt) (target : Target) (f : Failure) :
    (fail settings s e target f).1.charges = s.charges ∧
      ∃ row, (fail settings s e target f).1.rows = s.rows ++ [row] ∧
        ∀ metrics bounty, row ≠ .completed metrics bounty := by
  unfold fail
  split_ifs
  · exact ⟨rfl, .started, rfl, by simp⟩
  · cases cleanUp settings e f with
    | some g => exact ⟨rfl, .started, rfl, by simp⟩
    | none => cases f <;> exact ⟨rfl, .failed _, rfl, by simp⟩

/-- It sends no result, and an error only where it ends the invocation. -/
theorem fail_events (s : State) (e : Attempt) (target : Target) (f : Failure) :
    (fail settings s e target f).1.metrics = s.metrics ∧
      ((fail settings s e target f).2 = .retry →
        (fail settings s e target f).1.events = s.events ++ [.trace]) ∧
      ((fail settings s e target f).1.events = s.events ∨
        (fail settings s e target f).1.events = s.events ++ [.trace] ∨
        ∃ error, (fail settings s e target f).1.events = s.events ++ [.error error]) := by
  unfold fail
  split_ifs
  · exact ⟨rfl, by simp, .inl rfl⟩
  · cases cleanUp settings e f with
    | some g => exact ⟨rfl, by simp, .inl rfl⟩
    | none =>
      cases f with
      | badRequest detail => exact ⟨rfl, by simp, .inr (.inr ⟨_, rfl⟩)⟩
      | _ => exact ⟨rfl, fun _ => rfl, .inr (.inl rfl)⟩

/-! ## The loop -/

/-- What the caller gets where no instance is routed to. -/
def noTarget (s : State) : Option String → Event
  | some "infra_overload" => .error "infra_overload"
  | errorMessage =>
    if s.infraOverload then .error "infra_overload"
    else .error (errorMessage.getD
      "Unhandled exception trying to load backend node to route request")

/-- The stream of an attempt has ended. -/
def State.stream (s : State) (one : Sent) : State :=
  { s with
    metrics := one.metrics
    events := s.events ++ .trace :: one.sent.map (.result s.rows.length) }

/-- The pipeline has executed, or not. -/
def State.ship (s : State) (executes : Bool) (invocation : Usage.Invocation) : State :=
  if executes then { s with charges := s.charges ++ [(s.rows.length, invocation)] } else s

section

variable (s : State) (one : Sent) (executes : Bool) (invocation : Usage.Invocation)

@[simp] theorem State.stream_metrics : (s.stream one).metrics = one.metrics := rfl

@[simp] theorem State.stream_rows : (s.stream one).rows = s.rows := rfl

@[simp] theorem State.stream_charges : (s.stream one).charges = s.charges := rfl

@[simp] theorem State.ship_metrics : (s.ship executes invocation).metrics = s.metrics := by
  unfold State.ship
  split <;> rfl

@[simp] theorem State.ship_events : (s.ship executes invocation).events = s.events := by
  unfold State.ship
  split <;> rfl

@[simp] theorem State.ship_rows : (s.ship executes invocation).rows = s.rows := by
  unfold State.ship
  split <;> rfl

@[simp] theorem State.ship_charges : (s.ship executes invocation).charges =
    s.charges ++ if executes then [(s.rows.length, invocation)] else [] := by
  unfold State.ship
  split <;> simp

end

/-- **An attempt.** -/
def attempt (s : State) (e : Attempt) : State × Flow :=
  match e.target with
  | .error errorMessage => ({ s with events := s.events ++ [noTarget s errorMessage] }, .returned)
  | .ok target =>
    match e.track with
    | some _ => (s, .raised)
    | none =>
      let one := invokeOne req codec target e.post s.metrics
      let s := s.stream one
      match one.raised with
      | some f => fail settings s e target f
      | none =>
        match usage settings req e one.metrics with
        | .error f => fail settings s e target f
        | .ok invocation =>
          let s := s.ship e.pipeline.executes invocation
          match afterCharge settings req e with
          | (used, some f) => fail settings { s with quotaUsed := s.quotaUsed + used } e target f
          | (used, none) =>
            ({ s with
              quotaUsed := s.quotaUsed + used
              rows := s.rows ++ [.completed s.metrics (e.bounty.getD 0)]
              events := s.events ++ [.trace] }, .returned)

/-! How an attempt ends, by what is returned to it. -/

section Ends

variable {settings codec req} {s : State} {e : Attempt} {target : Target}

theorem attempt_of_noTarget {errorMessage : Option String} (h : e.target = .error errorMessage) :
    attempt settings codec req s e =
      ({ s with events := s.events ++ [noTarget s errorMessage] }, .returned) := by
  simp only [attempt, h]

theorem attempt_of_untracked (htarget : e.target = .ok target) {f : Failure}
    (htrack : e.track = some f) : attempt settings codec req s e = (s, .raised) := by
  simp only [attempt, htarget, htrack]

variable (htarget : e.target = .ok target) (htrack : e.track = none)
include htarget htrack

theorem attempt_of_raised {f : Failure}
    (hone : (invokeOne req codec target e.post s.metrics).raised = some f) :
    attempt settings codec req s e =
      fail settings (s.stream (invokeOne req codec target e.post s.metrics)) e target f := by
  simp only [attempt, htarget, htrack, hone]

theorem attempt_of_unpriced (hone : (invokeOne req codec target e.post s.metrics).raised = none)
    {f : Failure}
    (husage : usage settings req e (invokeOne req codec target e.post s.metrics).metrics =
      .error f) :
    attempt settings codec req s e =
      fail settings (s.stream (invokeOne req codec target e.post s.metrics)) e target f := by
  simp only [attempt, htarget, htrack, hone, husage]

/-- The usage is shipped. -/
theorem attempt_of_usage (hone : (invokeOne req codec target e.post s.metrics).raised = none)
    {invocation : Usage.Invocation}
    (husage : usage settings req e (invokeOne req codec target e.post s.metrics).metrics =
      .ok invocation) :
    attempt settings codec req s e =
      let t := (s.stream (invokeOne req codec target e.post s.metrics)).ship e.pipeline.executes
        invocation
      let t := { t with quotaUsed := t.quotaUsed + (afterCharge settings req e).1 }
      match (afterCharge settings req e).2 with
      | some f => fail settings t e target f
      | none =>
        ({ t with
          rows := t.rows ++ [.completed t.metrics (e.bounty.getD 0)]
          events := t.events ++ [.trace] }, .returned) := by
  simp only [attempt, htarget, htrack, hone, husage]
  rcases afterCharge settings req e with ⟨used, _ | f⟩ <;> rfl

end Ends

/-- No attempt is left. -/
def exhausted (s : State) : State :=
  { s with
    events := s.events ++ [.error (if s.infraOverload then "infra_overload"
      else "exhausted all available targets to no avail")] }

/-- The loop over what the attempts meet. -/
def attempts (s : State) : List Attempt → State
  | [] => exhausted s
  | e :: es =>
    match attempt settings codec req s e with
    | (s, .retry) => attempts s es
    | (s, _) => s

/-- The state before the first attempt. -/
def Request.start (req : Request) : State := { metrics := req.metrics }

/-- **`invoke`.** -/
def invoke (env : Fin 5 → Attempt) : State := attempts settings codec req req.start (List.ofFn env)

end Invoke

end ChutesApi
