import Mathlib.Data.Int.Notation
import Mathlib.Data.Nat.Notation
/-!
# Jobs and launch configs

The columns of `jobs` and of `launch_configs` that the assignment of a job
reads or writes, and what each statement makes of a row.
-/

namespace ChutesApi

/-- A registered miner: its node on the subnet. -/
structure Miner where
  hotkey : String
  uid : ℕ
  coldkey : String
  deriving DecidableEq, Repr

/-- A row of `jobs`. -/
structure Job where
  jobId : String
  minerUid : Option ℕ := none
  minerHotkey : Option String := none
  minerColdkey : Option String := none
  instanceId : Option String := none
  /-- `finished_at` is not null. -/
  finished : Bool := false
  /-- The hotkeys that have attempted the job. -/
  minerHistory : List String := []
  deriving DecidableEq, Repr

namespace Job

/-- `release_job`. -/
def release (job : Job) : Job :=
  { job with minerUid := none, minerHotkey := none, minerColdkey := none, instanceId := none }

/-- `complete_job`, which deletes the instance. -/
def complete (job : Job) : Job := { job with instanceId := none, finished := true }

/-- The update of `fn_reset_job_assignment`, which leaves `miner_uid`. -/
def reset (job : Job) : Job :=
  { job with minerHotkey := none, minerColdkey := none, instanceId := none }

/-- The values of the conditional update of `claim_launch_config`. -/
def assign (job : Job) (miner : Miner) : Job :=
  { job with
    minerUid := some miner.uid
    minerHotkey := some miner.hotkey
    minerColdkey := some miner.coldkey }

def attach (job : Job) (instanceId : String) : Job := { job with instanceId := some instanceId }

/-- `miner_history || jsonb_build_array(hotkey)`. -/
def track (job : Job) (hotkey : String) : Job :=
  { job with minerHistory := job.minerHistory ++ [hotkey] }

/-- **The job is a miner's**, with an instance. -/
structure AssignedTo (job : Job) (miner : Miner) (instanceId : String) : Prop where
  minerUid : job.minerUid = some miner.uid
  minerHotkey : job.minerHotkey = some miner.hotkey
  minerColdkey : job.minerColdkey = some miner.coldkey
  instanceId : job.instanceId = some instanceId

instance (job : Job) (miner : Miner) (instanceId : String) :
    Decidable (job.AssignedTo miner instanceId) :=
  decidable_of_iff (job.minerUid = some miner.uid ∧ job.minerHotkey = some miner.hotkey ∧
    job.minerColdkey = some miner.coldkey ∧ job.instanceId = some instanceId)
    ⟨fun ⟨h1, h2, h3, h4⟩ => ⟨h1, h2, h3, h4⟩, fun ⟨h1, h2, h3, h4⟩ => ⟨h1, h2, h3, h4⟩⟩

theorem assign_attach_assignedTo (job : Job) (miner : Miner) (instanceId : String) :
    ((job.assign miner).attach instanceId).AssignedTo miner instanceId := ⟨rfl, rfl, rfl, rfl⟩

/-- A new attempt at the job leaves its assignment. -/
@[simp] theorem track_assignedTo {job : Job} {hotkey : String} {miner : Miner}
    {instanceId : String} :
    (job.track hotkey).AssignedTo miner instanceId ↔ job.AssignedTo miner instanceId :=
  ⟨fun ⟨h1, h2, h3, h4⟩ => ⟨h1, h2, h3, h4⟩, fun ⟨h1, h2, h3, h4⟩ => ⟨h1, h2, h3, h4⟩⟩

@[simp] theorem track_finished (job : Job) (hotkey : String) :
    (job.track hotkey).finished = job.finished := rfl

@[simp] theorem track_minerHotkey (job : Job) (hotkey : String) :
    (job.track hotkey).minerHotkey = job.minerHotkey := rfl

@[simp] theorem reset_finished (job : Job) : job.reset.finished = job.finished := rfl

@[simp] theorem reset_minerHotkey (job : Job) : job.reset.minerHotkey = none := rfl

@[simp] theorem assign_finished (job : Job) (miner : Miner) :
    (job.assign miner).finished = job.finished := rfl

@[simp] theorem attach_finished (job : Job) (instanceId : String) :
    (job.attach instanceId).finished = job.finished := rfl

end Job

/-- A row of `launch_configs`, but for the columns that never change. -/
structure LaunchConfig where
  /-- `retrieved_at` and `failed_at` are not null. -/
  retrieved : Bool := false
  failed : Bool := false
  verificationError : Option String := none
  seed : ℤ := 0
  deriving DecidableEq, Repr

/-- The condition of `fn_reset_job_assignment` on the new row, of a config
that has a job. -/
def LaunchConfig.Resets (config : LaunchConfig) : Prop :=
  config.failed ∨ config.verificationError.isSome

instance (config : LaunchConfig) : Decidable config.Resets := by
  unfold LaunchConfig.Resets
  infer_instance

/-- `failed_at = now(), verification_error = …`. -/
def LaunchConfig.fail (config : LaunchConfig) (error : String) : LaunchConfig :=
  { config with failed := true, verificationError := some error }

end ChutesApi
