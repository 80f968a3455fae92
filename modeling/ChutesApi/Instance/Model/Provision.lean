import ChutesApi.Common.Lts
import ChutesApi.Common.Row
import Mathlib.Data.Nat.Notation
import Mathlib.Logic.Function.Basic
/-!
# The requests of a launch config

A miner claims its launch config, verifies the instance and activates it,
and may send each of the three requests as often as it likes, and at once.
A request loads the config, checks what it has loaded, works, and writes.
The row of the config and the one instance that the unique constraint
allows it are locked by those who have written to them; between its load
and its first write a request holds no lock.

Where a request writes once and commits, the write and the commit are one
step.
-/

namespace ChutesApi

namespace Provision

/-- The columns of a row of `launch_configs`; each is true if it is not
null. -/
structure Config where
  retrievedAt : Bool := false
  verifiedAt : Bool := false
  failedAt : Bool := false
  deriving DecidableEq

/-- A row of `instances`. -/
structure Instance where
  instanceId : String
  active : Bool := false
  verified : Bool := false
  deriving DecidableEq

/-- Where a request is. -/
inductive Txn
  /-- `claim_launch_config` has loaded the config, which was not
  retrieved. -/
  | claimed
  /-- `retrieved_at` is flushed, and the checks are made. -/
  | checking
  /-- The instance is inserted, and its nodes are validated. -/
  | inserted
  /-- They were not valid: rolled back, with the error session to come. -/
  | invalidNodes
  /-- Committed, with the fresh session to come. -/
  | committed
  /-- `verify_launch_config_instance` has loaded the config, which was
  neither verified nor failed. -/
  | verifying
  /-- It has looked for the instance. -/
  | found (instanceId : Option String)
  /-- `activate_launch_config_instance` has loaded the config, which was
  verified, and the instance. -/
  | activating (instanceId : String) (active : Bool)
  deriving DecidableEq

/-- What has happened to instances, with the config as it was committed
before. -/
inductive Event
  | created (config : Config)
  | activated (config : Config)
  deriving DecidableEq

def Event.isCreated : Event → Bool
  | .created _ => true
  | .activated _ => false

/-- What a request has loaded: the config, of which that many instances had
been deleted. -/
structure Loaded where
  config : Config := {}
  deleted : ℕ := 0

structure State where
  config : Row ℕ Config
  /-- The instance of the config, if there is one. -/
  slot : Row ℕ (Option Instance)
  txns : ℕ → Option Txn
  /-- What each request has loaded last. -/
  loaded : ℕ → Loaded
  log : List Event
  /-- How many instances of the config have been deleted. -/
  deleted : ℕ

namespace State

variable (s : State) (t : ℕ)

def enter (txn : Option Txn) : State := { s with txns := Function.update s.txns t txn }

/-- A request loads the config, and goes on. -/
def load (txn : Txn) : State :=
  { s.enter t (some txn) with
    loaded := Function.update s.loaded t ⟨s.config.committed, s.deleted⟩ }

def rollback : State := { s with config := s.config.rollback t, slot := s.slot.rollback t }

/-- An update of the config that is committed at once. -/
def writeConfig (f : Config → Config) : Option State :=
  (s.config.update t f).map fun config => { s with config := config.commit t }

/-- The same, of the instance. -/
def writeSlot (f : Option Instance → Option Instance) : Option State :=
  (s.slot.update t f).map fun slot => { s with slot := slot.commit t }

/-- A deletion of the instance, if it is the one that is meant. -/
def deleteSlot (meant : Instance → Bool) : Option State :=
  (s.writeSlot t (Option.filter fun i => !meant i)).map fun s' =>
    { s' with deleted := s.deleted + (s.slot.committed.filter meant).toList.length }

end State

/-- `WHERE instance_id = …`. -/
def Instance.on (instanceId : String) (f : Instance → Instance) (i : Instance) : Instance :=
  if i.instanceId = instanceId then f i else i

/-- A step of the request `t`. -/
inductive Action
  | loadClaim (t : ℕ)
  /-- The first query after it flushes `retrieved_at`. -/
  | flush (t : ℕ)
  /-- The envdump, the command, the environment or the file system is not as
  expected, or the job is taken. -/
  | failClaim (t : ℕ)
  /-- The insertion of the instance, which may violate the constraint. -/
  | insert (t : ℕ) (instanceId : String)
  /-- `_validate_nodes` raises. -/
  | rollbackNodes (t : ℕ)
  | failNodes (t : ℕ)
  | commitClaim (t : ℕ)
  /-- `retrieved_at`, in the fresh session. -/
  | retrieve (t : ℕ)
  | loadVerify (t : ℕ)
  | findInstance (t : ℕ)
  /-- One of the four checks fails, or there is no instance. -/
  | failVerify (t : ℕ)
  | succeed (t : ℕ)
  | loadActivate (t : ℕ)
  | commitActivate (t : ℕ)
  /-- Anything else raises. -/
  | abort (t : ℕ)
  /-- The instance is deleted by others. -/
  | deleteInstance (t : ℕ)

/-- With a job, the insertion is flushed before the nodes are validated, and
a violation is not caught. -/
def step (hasJob : Bool) (s : State) : Action → Option State
  | .loadClaim t =>
    if s.txns t = none ∧ s.config.committed.retrievedAt = false then
      some (s.load t .claimed)
    else none
  | .flush t =>
    if s.txns t = some .claimed then
      (s.config.update t fun config => { config with retrievedAt := true }).map fun config =>
        { s.enter t (some .checking) with config }
    else none
  | .failClaim t =>
    if s.txns t = some .checking then
      (s.writeConfig t fun config => { config with failedAt := true }).map (·.enter t none)
    else none
  | .insert t instanceId =>
    if s.txns t = some .checking then
      (s.slot.update t fun _ => some { instanceId }).map fun slot =>
        if s.slot.committed = none then { s.enter t (some .inserted) with slot }
        else (s.rollback t).enter t (if hasJob then none else some .invalidNodes)
    else none
  | .rollbackNodes t =>
    if s.txns t = some .inserted then some ((s.rollback t).enter t (some .invalidNodes)) else none
  | .failNodes t =>
    if s.txns t = some .invalidNodes then
      (s.writeConfig t fun config => { config with failedAt := true }).map (·.enter t none)
    else none
  | .commitClaim t =>
    if s.txns t = some .inserted then
      some { s.enter t (some .committed) with
        config := s.config.commit t
        slot := s.slot.commit t
        log := s.log ++ [.created s.config.committed] }
    else none
  | .retrieve t =>
    if s.txns t = some .committed then
      (s.writeConfig t fun config => { config with retrievedAt := true }).map (·.enter t none)
    else none
  | .loadVerify t =>
    -- A config that is not retrieved is taken for one that has just been,
    -- which raises.
    if s.txns t = none ∧ s.config.committed.retrievedAt ∧
        s.config.committed.verifiedAt = false ∧ s.config.committed.failedAt = false then
      some (s.load t .verifying)
    else none
  | .findInstance t =>
    if s.txns t = some .verifying then
      some (s.enter t (some (.found (s.slot.committed.map (·.instanceId)))))
    else none
  | .failVerify t =>
    match s.txns t with
    | some (.found none) =>
      (s.writeConfig t fun config => { config with failedAt := true }).map (·.enter t none)
    | some (.found (some instanceId)) => do
      let s ← s.writeConfig t fun config => { config with failedAt := true }
      let s ← s.deleteSlot t fun i => i.instanceId = instanceId
      return s.enter t none
    | _ => none
  | .succeed t =>
    match s.txns t with
    | some (.found (some instanceId)) => do
      let s ← s.writeConfig t fun config => { config with verifiedAt := true }
      let s ← s.writeSlot t (Option.map (Instance.on instanceId ({ · with verified := true })))
      return s.enter t none
    | _ => none
  | .loadActivate t =>
    match s.slot.committed with
    | some i =>
      if s.txns t = none ∧ s.config.committed.verifiedAt then
        some (s.load t (.activating i.instanceId i.active))
      else none
    | none => none
  | .commitActivate t =>
    match s.txns t with
    | some (.activating instanceId false) =>
      if s.slot.committed.any (·.instanceId = instanceId) then
        (s.writeSlot t (Option.map (Instance.on instanceId ({ · with active := true })))).map
          fun s' => { s'.enter t none with log := s'.log ++ [.activated s.config.committed] }
      else some (s.enter t none)
    | some (.activating _ true) => some (s.enter t none)
    | _ => none
  | .abort t => if s.txns t = none then none else some ((s.rollback t).enter t none)
  | .deleteInstance t => if s.txns t = none then s.deleteSlot t fun _ => true else none

/-- A new config, with no requests. -/
def start : State where
  config := .idle {}
  slot := .idle none
  txns _ := none
  loaded _ := {}
  log := []
  deleted := 0

def system (hasJob : Bool) : Lts State Action where
  init s := s = start
  step := step hasJob

/-- **The lifecycle of a config**: it has one instance at most, which is not
created when the config has failed; it is not both verified and failed; and
an instance is activated if the config is verified and has not failed. -/
structure Lawful (s : State) : Prop where
  once : s.log.countP Event.isCreated ≤ 1
  created : ∀ config, .created config ∈ s.log → config.failedAt = false
  exclusive : ¬ (s.config.committed.verifiedAt ∧ s.config.committed.failedAt)
  activated : ∀ config, .activated config ∈ s.log → config.verifiedAt ∧ config.failedAt = false

/-- The commit of an activation does activate its instance. -/
def State.Activates (s : State) (t : ℕ) : Prop :=
  ∃ i ∈ s.slot.committed, s.txns t = some (.activating i.instanceId false)

instance (s : State) (t : ℕ) : Decidable (s.Activates t) := by
  unfold State.Activates
  infer_instance

/-- **Nobody overtakes a request** between its load and its commit: the
config has not failed since a claim, a verification or an activation has
loaded it, and has not been verified since one that fails it has. For a
claim the config had not failed before either, which its handler does not
look at, and no instance has been deleted since. -/
def Unovertaken (s : State) : Action → Prop
  | .commitClaim t => (s.loaded t).config.failedAt = false ∧
      s.config.committed.failedAt = (s.loaded t).config.failedAt ∧
      s.deleted = (s.loaded t).deleted
  | .succeed t => s.config.committed.failedAt = (s.loaded t).config.failedAt
  | .failClaim t | .failNodes t | .failVerify t =>
    s.config.committed.verifiedAt = (s.loaded t).config.verifiedAt
  | .commitActivate t =>
    s.Activates t → s.config.committed.failedAt = (s.loaded t).config.failedAt
  | _ => True

instance (s : State) (a : Action) : Decidable (Unovertaken s a) := by
  cases a <;> unfold Unovertaken <;> infer_instance

end Provision

end ChutesApi
