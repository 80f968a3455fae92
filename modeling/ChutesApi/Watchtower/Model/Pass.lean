import ChutesApi.Watchtower.Model.Weights
import Mathlib.Data.List.Nodup
/-!
# A pass of the watchtower over a chute

`check_chute` loads the instances of a chute and puts them through the
environment dump, the ping, the command and the weights, each on those that
are left. Hard failures are purged, soft ones counted and purged at the
second, and those in neither list are updated.

The weights are checked on instances that are loaded anew, which Python does
not find among the first ones. An exception that is not caught ends the
pass where it is.
-/

namespace ChutesApi

namespace Watchtower

open Python

/-- A row of the instances. -/
structure Row where
  instanceId : String
  minerHotkey : String
  deriving DecidableEq

/-- The object a load makes of it. -/
def Row.object (row : Row) (load : ℕ) : Instance := ⟨row.instanceId, row.minerHotkey, load⟩

/-- A dump that was saved: what reading it and each part of its check come
to. -/
structure Dump where
  content : Except Exc Unit
  isKubernetesEnv : Except Exc Bool
  checkSglang : Except Exc Bool
  verifyExpectedCommand : Except Exc Unit

/-- What is read of a chute. -/
structure WatchedChute extends LlmChute where
  standardTemplate : Option String
  rollingUpdate : Bool

/-- What a pass meets. -/
structure Round where
  chute : Option WatchedChute
  /-- The rows, in the order they are shuffled to. -/
  rows : List Row
  distinct : (rows.map Row.instanceId).Nodup
  /-- In the order of the second load. -/
  reloaded : List Row
  perm : reloaded.Perm rows
  /-- `semcomp`, of the chute's version with 0.2.53. -/
  semcomp : Except Exc ℤ
  envdumpUnlock : Bool
  getDump : Instance → Except Exc (Option Dump)
  checkPing : Instance → Except Exc Bool
  checkLiveCode : Instance → Except Exc Bool
  /-- What the check of the weights meets, but for the chute and its
  instances. -/
  weights : Env
  /-- What the counts of soft failures are before. -/
  failCounts : String → ℕ

/-- What a pass does. -/
structure Ledger where
  failCounts : String → ℕ
  purged : List String := []
  softFails : List String := []
  verified : List String := []

/-- Code that changes the ledger and may raise. -/
abbrev Watch := EStateM Exc Ledger

/-- A step that only may raise. -/
def attempt {α : Type} : Except Exc α → Watch α
  | .ok a => pure a
  | .error e => throw e

/-- `purge_and_notify`. -/
def purgeAndNotify (inst : Instance) : Watch Unit :=
  modify fun l => { l with purged := l.purged ++ [inst.instanceId] }

/-- `increment_soft_fail`. -/
def incrementSoftFail (inst : Instance) : Watch Unit := do
  let failCount := (← get).failCounts inst.instanceId + 1
  modify fun l => { l with
    failCounts := Function.update l.failCounts inst.instanceId failCount
    softFails := l.softFails ++ [inst.instanceId] }
  if 2 ≤ failCount then
    purgeAndNotify inst

/-! ## The checks -/

/-- `failed_envdump`, of a dump. -/
def Dump.failed (d : Dump) : Except Exc Bool := do
  d.content
  let kubernetes ← d.isKubernetesEnv
  let sglang ← d.checkSglang
  -- what the command check raises is caught
  let command := match d.verifyExpectedCommand with
    | .ok _ => true
    | .error _ => false
  return !kubernetes || !sglang || !command

/-- The loop over the dumps: `bad_env`. An instance without one is passed
over. -/
def checkDumps : List (Instance × Option Dump) → Watch (List String)
  | [] => return []
  | (_, none) :: dumps => checkDumps dumps
  | (inst, some d) :: dumps => do
    if ← attempt d.failed then
      purgeAndNotify inst
      return inst.instanceId :: (← checkDumps dumps)
    else
      checkDumps dumps

/-- `check_pings`. -/
def checkPings (checkPing : Instance → Except Exc Bool) (instances : List Instance) :
    List Instance :=
  instances.filter fun inst =>
    match checkPing inst with
    | .ok pong => !pong
    | .error _ => true

/-- `check_commands`: what fails hard, and what fails softly. -/
def checkCommands (chutesVersion : Option String) (checkLiveCode : Instance → Except Exc Bool)
    (instances : List Instance) : Except Exc (List Instance × List Instance) :=
  if instances = [] then .ok ([], [])
  else do
    if !(← ChutesVersion.useEncryptedSlurp chutesVersion) then return ([], [])
    return (instances.filter fun inst =>
        match checkLiveCode inst with
        | .ok valid => !valid
        | .error _ => false,
      instances.filter fun inst =>
        match checkLiveCode inst with
        | .ok _ => false
        | .error _ => true)

/-- The loop over the hard failures: a list has no id. -/
def purgeEntry : Entry → Watch Unit
  | .one inst => purgeAndNotify inst
  | .many _ => throw (.raised .attributeError)

namespace Round

variable (p : Round)

/-- `load_chute_instances`, at the start. -/
def instances : List Instance := p.rows.map (·.object 0)

/-- The check of the dumps, where it is enabled. -/
def badEnv : Watch (List String) := do
  if 0 ≤ (← attempt p.semcomp) ∧ p.envdumpUnlock then
    let dumps ← attempt (p.instances.mapM fun inst => return (inst, ← p.getDump inst))
    checkDumps dumps
  else
    return []

/-- What the check of the weights meets, when these rows are gone. -/
def weightsEnv (chute : WatchedChute) (purged : List String) : Env :=
  { p.weights with
    chute := chute.toLlmChute
    instances := (p.reloaded.filter (·.instanceId ∉ purged)).map (·.object 1) }

/-- The check of the weights. -/
def checkWeights (chute : WatchedChute) (instances : List Instance) : Watch Lists := do
  let env := p.weightsEnv chute (← get).purged
  match ← attempt (checkLlmWeights env instances) with
  | some lists => return lists
  | none => throw (.raised .typeError)

/-- The rows that are updated: those that are still there. -/
def update (instances : List Instance) : Watch Unit :=
  modify fun l => { l with
    verified := l.verified ++ (instances.map Instance.instanceId).filter (· ∉ l.purged) }

/-- What follows the checks. -/
def conclude (instances : List Instance) (lists : Lists) : Watch Unit := do
  lists.hardFailed.forM purgeEntry
  lists.softFailed.forM incrementSoftFail
  update (instances.filter fun inst =>
    inst ∉ lists.softFailed && .one inst ∉ lists.hardFailed)

/-- The weights, for a template that has them, on those in neither list; and
what follows. -/
def finish (chute : WatchedChute) (instances : List Instance) (lists : Lists) : Watch Unit :=
  if chute.standardTemplate = some "vllm" then do
    let instances := instances.filter fun inst =>
      inst ∉ lists.softFailed && .one inst ∉ lists.hardFailed
    let weights ← p.checkWeights chute instances
    conclude instances ⟨lists.hardFailed ++ weights.hardFailed,
      lists.softFailed ++ weights.softFailed⟩
  else conclude instances lists

/-- **`check_chute`.** -/
def checkChute : Watch Unit := do
  match p.chute with
  | none => return
  | some chute =>
    if chute.rollingUpdate then return
    let badEnv ← p.badEnv
    let instances := p.instances.filter (·.instanceId ∉ badEnv)
    let softFailed := checkPings p.checkPing instances
    let instances := instances.filter (· ∉ softFailed)
    let (hard, soft) ← attempt (checkCommands chute.chutesVersion p.checkLiveCode instances)
    p.finish chute instances ⟨hard.map .one, softFailed ++ soft⟩

/-- The ledger a pass starts with. -/
def start : Ledger := { failCounts := p.failCounts }

/-- What a pass has done, also where it raised. -/
def outcome : Ledger :=
  match p.checkChute p.start with
  | .ok _ l => l
  | .error _ l => l

end Round

end Watchtower

end ChutesApi
