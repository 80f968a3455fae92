import ChutesApi.Common.Lts
import ChutesApi.Common.Row
import ChutesApi.Job.Model
import Mathlib.Logic.Function.Basic
/-!
# The race for a job

Any number of miners race for one job. `get_launch_config` adds a miner to
the job's history and creates a config of its own; `claim_launch_config`
assigns the job to the config's miner by a conditional update, attaches the
instance and commits, all in one transaction, and fails the config where
the update matches no row.

A transaction runs statement by statement, with the locks of the rows it
has updated. After each update of a config the trigger
`tr_reset_jobs_on_fail` runs in the transaction of the update; it looks at
the config only, and not at whose the job is.
-/

namespace ChutesApi

namespace Launch

abbrev TxnId := ℕ

abbrev ConfigId := String

/-- A launch config of the job: its miner, and the columns that change. -/
structure Config where
  miner : Miner
  row : Row TxnId LaunchConfig

/-- Where a claim is. -/
inductive Phase
  /-- The config is loaded, and its `retrieved_at` still to be flushed. -/
  | loaded
  /-- The checks before the conditional update. -/
  | verifying
  /-- The conditional update has matched no row. -/
  | lost
  | assigned
  /-- The job has its instance; the nodes are validated. -/
  | attached (instanceId : String)
  /-- They were not valid: rolled back, with the error session to come. -/
  | invalidNodes
  /-- Committed, with the fresh session to come. -/
  | committed
  deriving DecidableEq

/-- The transaction is open and has flushed. -/
def Phase.locks : Phase → Bool
  | .verifying | .lost | .assigned | .attached _ => true
  | .loaded | .invalidNodes | .committed => false

/-- A request. -/
inductive Txn
  /-- `get_launch_config`, after its checks. -/
  | get (miner : Miner)
  /-- `claim_launch_config`, with the config's miner. -/
  | claim (configId : ConfigId) (miner : Miner) (phase : Phase)
  deriving DecidableEq

/-- A claim that has committed. -/
structure Claim where
  configId : ConfigId
  miner : Miner
  instanceId : String
  deriving DecidableEq

structure State where
  job : Row TxnId Job
  configs : ConfigId → Option Config
  txns : TxnId → Option Txn
  /-- The claims that have committed and have not ended since, by the end
  or the release of the job or by the failure of their config. -/
  held : List Claim

/-! ## Statements -/

/-- The committed row of the config is one at which the trigger resets. -/
def State.failed (s : State) (c : ConfigId) : Bool :=
  (s.configs c).any fun config => config.row.committed.Resets

/-- **`fn_reset_job_assignment`**, on the new row of a config of the job. -/
def State.resetJobAssignment (s : State) (t : TxnId) (new : LaunchConfig) :
    Option (Row TxnId Job) :=
  if new.Resets then s.job.update t Job.reset else some s.job

/-- An update of a config, and the trigger after it. -/
def State.updateConfig (s : State) (t : TxnId) (c : ConfigId) (f : LaunchConfig → LaunchConfig) :
    Option State := do
  let config ← s.configs c
  let row ← config.row.update t f
  let job ← s.resetJobAssignment t (row.seen t)
  return { s with configs := Function.update s.configs c (some { config with row }), job }

/-- A request goes on, or ends. -/
def State.enter (s : State) (t : TxnId) (txn : Option Txn) : State :=
  { s with txns := Function.update s.txns t txn }

/-- `COMMIT`. The claims of the configs that have failed end. -/
def State.commit (s : State) (t : TxnId) : State :=
  let s : State := { s with
    job := s.job.commit t
    configs := fun c => (s.configs c).map fun config => { config with row := config.row.commit t } }
  { s with held := s.held.filter fun claim => !s.failed claim.configId }

def State.rollback (s : State) (t : TxnId) : State :=
  { s with
    job := s.job.rollback t
    configs := fun c =>
      (s.configs c).map fun config => { config with row := config.row.rollback t } }

/-- An update of a config is all that the session still does. -/
def State.finishWith (s : State) (t : TxnId) (c : ConfigId) (f : LaunchConfig → LaunchConfig) :
    Option State :=
  (s.updateConfig t c f).map fun s => (s.commit t).enter t none

/-- A transaction of one statement on the job, which ends all claims. -/
def State.endClaims (s : State) (t : TxnId) (f : Job → Job) : Option State :=
  (s.job.update t f).map fun job => { s with job := job.commit t, held := [] }

/-! ## The steps -/

/-- A step of the request `t`. A value that the step gets from elsewhere is
its argument: the new ids, the text of an error, the seed. -/
inductive Action
  /-- The load of the job, and the checks on its history. -/
  | getLaunchConfig (t : TxnId) (miner : Miner)
  /-- The update of the history, the insertion, the commit. -/
  | createLaunchConfig (t : TxnId) (c : ConfigId)
  /-- `load_launch_config_from_jwt`. -/
  | loadLaunchConfig (t : TxnId) (c : ConfigId)
  /-- The first query after it flushes `retrieved_at`. -/
  | flush (t : TxnId)
  /-- The envdump, the command or the file system is not as expected. -/
  | failVerification (t : TxnId) (error : String)
  /-- The conditional update. -/
  | assign (t : TxnId)
  | failLost (t : TxnId)
  | attach (t : TxnId) (instanceId : String)
  /-- `_validate_nodes` raises. -/
  | rollbackNodes (t : TxnId)
  | failNodes (t : TxnId)
  | commit (t : TxnId) (seed : ℤ)
  /-- `retrieved_at`, in the fresh session. -/
  | retrieve (t : TxnId)
  /-- Anything else raises. -/
  | abort (t : TxnId)
  /-- `complete_job`, `release_job`, and `verify_launch_config_instance`
  where it fails the config. -/
  | completeJob (t : TxnId)
  | releaseJob (t : TxnId) (hotkey : String)
  | failInstance (t : TxnId) (c : ConfigId) (error : String)

def step (s : State) : Action → Option State
  | .getLaunchConfig t miner =>
    if s.txns t = none ∧ s.job.committed.minerHistory.length < 15 ∧
        miner.hotkey ∉ s.job.committed.minerHistory then
      some (s.enter t (some (.get miner)))
    else none
  | .createLaunchConfig t c =>
    match s.txns t, s.configs c with
    | some (.get miner), none =>
      (s.job.update t (·.track miner.hotkey)).map fun job =>
        { s.enter t none with
          job := job.commit t
          configs := Function.update s.configs c (some ⟨miner, .idle {}⟩) }
    | _, _ => none
  | .loadLaunchConfig t c =>
    match s.txns t, s.configs c with
    | none, some config =>
      if config.row.committed.retrieved = false then
        some (s.enter t (some (.claim c config.miner .loaded)))
      else none
    | _, _ => none
  | .flush t =>
    match s.txns t with
    | some (.claim c miner .loaded) =>
      (s.updateConfig t c fun config => { config with retrieved := true }).map
        (·.enter t (some (.claim c miner .verifying)))
    | _ => none
  | .failVerification t error =>
    match s.txns t with
    | some (.claim c _ .verifying) => s.finishWith t c (·.fail error)
    | _ => none
  | .assign t =>
    match s.txns t with
    | some (.claim c miner .verifying) =>
      if (s.job.seen t).minerHotkey = none then
        (s.job.update t (·.assign miner)).map fun job =>
          { s.enter t (some (.claim c miner .assigned)) with job }
      else some (s.enter t (some (.claim c miner .lost)))
    | _ => none
  | .failLost t =>
    match s.txns t with
    | some (.claim c _ .lost) =>
      s.finishWith t c (·.fail "Job was already claimed by another miner")
    | _ => none
  | .attach t instanceId =>
    match s.txns t with
    | some (.claim c miner .assigned) =>
      (s.job.update t (·.attach instanceId)).map fun job =>
        { s.enter t (some (.claim c miner (.attached instanceId))) with job }
    | _ => none
  | .rollbackNodes t =>
    match s.txns t with
    | some (.claim c miner (.attached _)) =>
      some ((s.rollback t).enter t (some (.claim c miner .invalidNodes)))
    | _ => none
  | .failNodes t =>
    match s.txns t with
    | some (.claim c _ .invalidNodes) =>
      s.finishWith t c (·.fail "invalid GPU/nodes configuration provided")
    | _ => none
  | .commit t seed =>
    match s.txns t with
    | some (.claim c miner (.attached instanceId)) =>
      -- a seed that is the old one leaves nothing to flush
      let flushed := (s.configs c).bind fun config =>
        if (config.row.seen t).seed = seed then some s
        else s.updateConfig t c fun config => { config with seed }
      flushed.map fun s =>
        let s : State := { s with held := s.held ++ [⟨c, miner, instanceId⟩] }
        (s.commit t).enter t (some (.claim c miner .committed))
    | _ => none
  | .retrieve t =>
    match s.txns t with
    | some (.claim c _ .committed) =>
      s.finishWith t c fun config => { config with retrieved := true }
    | _ => none
  | .abort t => if s.txns t = none then none else some ((s.rollback t).enter t none)
  | .completeJob t =>
    if s.txns t = none ∧ s.job.committed.finished = false then s.endClaims t Job.complete else none
  | .releaseJob t hotkey =>
    if s.txns t = none ∧ s.job.committed.minerHotkey = some hotkey ∧
        s.job.committed.finished = false then
      s.endClaims t Job.release
    else none
  | .failInstance t c error =>
    match s.txns t, s.configs c with
    | none, some config =>
      if config.row.committed.retrieved ∧ config.row.committed.failed = false then
        s.finishWith t c (·.fail error)
      else none
    | _, _ => none

/-- The job as `create_job` inserts it. -/
def State.start (jobId : String) : State where
  job := .idle { jobId }
  configs _ := none
  txns _ := none
  held := []

/-- The race. -/
def system : Lts State Action where
  init s := ∃ jobId, s = .start jobId
  step := step

end Launch

end ChutesApi
