import ChutesApi.Chute.Model
import ChutesApi.Common.Handler
import ChutesApi.Python.Str
import Mathlib.Logic.Function.Basic
/-!
# The verification and the activation of an instance

`verify_launch_config_instance` and `activate_launch_config_instance`, with
their statements, commits and events in the order of the source. What a
handler asks of others, such as whether a proof is valid or a port open, is
an argument. The columns about billing and the job's are left out, and an
event that Redis refuses counts as published.
-/

namespace ChutesApi

open Python

namespace Activate

structure PortMap where
  internalPort : ℕ
  externalPort : ℕ
  proto : String
  deriving DecidableEq, Repr

/-- A row of `launch_configs`. Times are in seconds. -/
structure LaunchConfig where
  jobId : Option String := none
  retrievedAt : Option ℚ := none
  verifiedAt : Option ℚ := none
  failedAt : Option ℚ := none
  verificationError : Option String := none
  deriving DecidableEq

/-- A row of `instances`. -/
structure Instance where
  instanceId : String
  configId : Option String
  chuteId : ChuteId
  minerHotkey : String
  active : Bool := false
  verified : Bool := false
  /-- The job that refers to it. -/
  job : Option String := none
  portMappings : List PortMap := []
  deriving DecidableEq

structure Db where
  configs : String → Option LaunchConfig
  instances : List Instance
  chutes : ChuteId → Option Chute
  /-- `deletion_reason` of `instance_audit`. -/
  deletionReason : String → Option String

namespace Db

variable (db : Db)

/-- The relationship `launch_config.instance`. -/
def instanceOf (configId : String) : Option Instance :=
  db.instances.find? fun i => i.configId = some configId

def updateConfig (configId : String) (f : LaunchConfig → LaunchConfig) : Db :=
  { db with configs := Function.update db.configs configId ((db.configs configId).map f) }

def updateInstance (instanceId : String) (f : Instance → Instance) : Db :=
  { db with instances := db.instances.map fun i => if i.instanceId = instanceId then f i else i }

def deleteInstance (instanceId : String) : Db :=
  { db with instances := db.instances.filter fun i => i.instanceId ≠ instanceId }

/-- `UPDATE instance_audit SET deletion_reason = …`. -/
def setDeletionReason (instanceId reason : String) : Db :=
  { db with deletionReason := Function.update db.deletionReason instanceId (some reason) }

/-- The active and verified instances of a chute. -/
def activeCount (chuteId : ChuteId) : ℕ :=
  db.instances.countP fun i => i.chuteId = chuteId && i.active && i.verified

end Db

/-- The events that the handlers publish. -/
inductive Event
  | deleted (instanceId : String)
  | activated (instanceId : String)
  | verified (instanceId : String)
  deriving DecidableEq

open Handler

/-- `load_launch_config_from_jwt`, with `allow_retrieved`; the token is what
it says of the config, if it is valid. Returns the config as loaded. -/
def loadLaunchConfig (configId : String) (token : Option String) (now : ℚ) :
    Handler Db Event LaunchConfig := do
  let some sub := token | raise (.http 401 "Missing or invalid launch config JWT")
  if configId ≠ sub then
    raise (.http 401 s!"Launch config config_id={Python.repr configId} does not match token!")
  else
    let db ← read
    match db.configs configId with
    | none =>
      raise (.http 401
        s!"Launch config config_id={Python.repr configId} not found in database.")
    | some config =>
      execute (·.updateConfig configId fun config =>
        { config with retrievedAt := config.retrievedAt.or (some now) })
      return config

/-! ## Activation -/

/-- What `activate_launch_config_instance` is told: the time, the target in
Redis, whether there is a bounty, and the user whose chutes are exempt. -/
structure ActivateArgs where
  now : ℚ
  targetCount : ℤ
  bountyExists : Bool
  chutesUserId : UserId

/-- A private chute without legacy billing. -/
def ActivateArgs.isPrivate (args : ActivateArgs) (chute : Chute) : Bool :=
  !chute.isPublic && !hasLegacyPrivateBilling chute && chute.userId != args.chutesUserId

/-- `can_scale`. -/
def ActivateArgs.canScale (args : ActivateArgs) (activeCount : ℕ) : Bool :=
  (activeCount == 0 && args.bountyExists) || activeCount < args.targetCount

def activateLaunchConfigInstance (args : ActivateArgs) (configId : String)
    (token : Option String) : Handler Db Event Unit := do
  let config ← loadLaunchConfig configId token args.now
  if config.verifiedAt = none then raise (.http 403 "Launch config has not been verified.")
  else
    let db ← read
    match db.instanceOf configId with
    | none =>
      raise (.http 404
        s!"Instance has disappeared for launch_config_id={Python.repr configId}")
    | some i =>
      match db.chutes i.chuteId with
      | none => raise (.raised .attributeError)
      | some chute =>
        if args.isPrivate chute ∧ args.canScale (db.activeCount chute.chuteId) = false then
          let reason := s!"Private chute chute.chute_id={Python.repr chute.chuteId} " ++
            s!"chute.name={Python.repr chute.name} already has >= " ++
            s!"target_count={args.targetCount} active instances"
          execute (·.deleteInstance i.instanceId)
          publish (.deleted i.instanceId)
          execute (·.setDeletionReason i.instanceId reason)
          raise (.http 423 reason)
        else if i.active then return
        else
          execute (·.updateInstance i.instanceId fun i => { i with active := true })
          commit
          publish (.activated i.instanceId)

/-! ## Verification -/

/-- What `verify_launch_config_instance` is told. An exception that it
catches is given by its text. -/
structure VerifyArgs where
  now : ℚ
  /-- The estimate for the instance's GPU; `none` where the lookup raises. -/
  estimate : Instance → Option ℚ
  /-- The body is JSON. -/
  isJson : Bool
  /-- The decryption of the response, and the check of the proof. -/
  response : Except String Unit
  proof : Except String Unit
  /-- The challenge of the file system, which may raise, and the values it
  finds to differ. -/
  filesystem : Except Exc (Option String)
  portOpen : PortMap → Bool
  /-- How a float, a time and a port map are printed. -/
  showFloat : ℚ → String
  showTime : ℚ → String
  showPortMap : PortMap → String

/-- The first port that is not open, of those that are tested. -/
def VerifyArgs.closedPort (args : VerifyArgs) (i : Instance) : Option PortMap :=
  i.portMappings.find? fun p =>
    p.internalPort ≠ 8000 && p.internalPort ≠ 8001 && !args.portOpen p

/-- The config fails, and its instance goes: the four checks of the
handler end in this way. -/
def failInstance {α : Type} (configId : String) (i : Instance) (now : ℚ) (reason : String) :
    Handler Db Event α := do
  execute (·.updateConfig configId fun config =>
    { config with failedAt := some now, verificationError := some reason })
  execute (·.deleteInstance i.instanceId)
  execute (·.setDeletionReason i.instanceId reason)
  commit
  publish (.deleted i.instanceId)
  raise (.http 403 reason)

/-- A check whose failure is given by its reason. -/
def failOn (configId : String) (i : Instance) (now : ℚ) : Option String → Handler Db Event Unit
  | some reason => failInstance configId i now reason
  | none => pure ()

/-- The names in the texts of the reasons. -/
def subject (configId : String) (i : Instance) : String :=
  s!"config_id={Python.repr configId} and instance.instance_id={Python.repr i.instanceId} " ++
    s!"instance.miner_hotkey={Python.repr i.minerHotkey}"

namespace VerifyArgs

variable (args : VerifyArgs) (configId : String) (i : Instance)

/-- Why the decryption took too long. -/
def timeError (start estimate : ℚ) : Option String :=
  let delta := args.now - start
  let maxDuration := estimate * (215 / 100)
  if maxDuration ≤ delta then
    some (s!"PoVW encrypted response for {subject configId i} took {args.showFloat delta} " ++
      s!"seconds, exceeding maximum estimate of {args.showFloat maxDuration}")
  else none

def responseError : Option String :=
  match args.response with
  | .ok () => none
  | .error exc => some s!"PoVW encrypted response for {subject configId i} was invalid: {exc}"

def proofError : Option String :=
  match args.proof with
  | .ok () => none
  | .error exc => some s!"PoVW proof failed for {subject configId i}: {exc}"

end VerifyArgs

/-- Why the file system is not as expected, of the values that differ. -/
def filesystemError (configId : String) (i : Instance) (mismatch : Option String) :
    Option String :=
  mismatch.map fun values => s!"Filesystem challenge failed for {subject configId i}, {values}"

def verifyLaunchConfigInstance (args : VerifyArgs) (configId : String) (token : Option String) :
    Handler Db Event Unit := do
  let config ← loadLaunchConfig configId token args.now
  if config.verifiedAt ≠ none then
    raise (.http 400 s!"Launch config has already been verified: {configId}")
  else
    match config.failedAt, config.retrievedAt with
    | some failedAt, _ =>
      let error := (config.verificationError.map Python.repr).getD "None"
      raise (.http 403
        (s!"Launch config failed verification: launch_config.failed_at={args.showTime failedAt} " ++
          s!"launch_config.verification_error={error}"))
    -- The column has just been set to an expression, which is not a time.
    | none, none => raise (.raised .other)
    | none, some start =>
      let db ← read
      match db.instanceOf configId with
      | none =>
        execute (·.updateConfig configId fun config =>
          { config with
            failedAt := some args.now
            verificationError := some "Instance was deleted" })
        commit
        raise (.http 404 "Instance disappeared (did you update gepetto reconcile?)")
      | some i =>
        match args.estimate i with
        | none => raise (.raised .other)
        | some estimate =>
          failOn configId i args.now (args.timeError configId i start estimate)
          if args.isJson = false then raise (.raised .valueError)
          else
            failOn configId i args.now (args.responseError configId i)
            failOn configId i args.now (args.proofError configId i)
            match args.filesystem with
            | .error e => raise e
            | .ok mismatch =>
              failOn configId i args.now (filesystemError configId i mismatch)
              execute (·.updateConfig configId fun config =>
                { config with verifiedAt := some args.now })
              match i.job, args.closedPort i with
              | some _, some p =>
                let reason := s!"Failed port verification on port_map={args.showPortMap p} for " ++
                  s!"instance.instance_id={Python.repr i.instanceId} " ++
                  s!"instance.miner_hotkey={Python.repr i.minerHotkey}"
                execute (·.setDeletionReason i.instanceId reason)
                publish (.deleted i.instanceId)
                raise (.http 403 s!"Failed port verification on port_map={args.showPortMap p}")
              | _, _ =>
                execute (·.updateInstance i.instanceId fun i => { i with verified := true })
                commit
                publish (.verified i.instanceId)

end Activate

end ChutesApi
