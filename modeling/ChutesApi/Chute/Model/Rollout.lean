import ChutesApi.Common.Dict
import ChutesApi.Common.Lts
import Mathlib.Logic.Function.Basic
/-!
# A rolling update

The life of one chute over its versions: deployments, which leave a row in
`rolling_updates` and a task for the worker; upgrades of the chutes library,
which leave the same, for the version that they have loaded; the tasks, which tell the miners
one instance after the other and then delete what is still of an old version;
the watchtower, which removes rows that are too old and, where there is none,
the instances of other versions; and launches, which take the version of the
chute as they have loaded it. Each statement reads what is committed. Times
are in seconds. The chute itself is not deleted, and every deployment is a
rolling one.
-/

namespace ChutesApi

namespace Rollout

/-- A row of `instances`. -/
structure Instance where
  version : String
  minerHotkey : String
  deriving DecidableEq

/-- A row of `rolling_updates`. -/
structure RollingUpdate where
  oldVersion : String
  newVersion : String
  startedAt : ℕ
  deriving DecidableEq

/-- The event that a miner is sent, with the task that has sent it, the time,
and the chute's version then. -/
structure Notice where
  instanceId : String
  minerHotkey : String
  oldVersion : String
  newVersion : String
  reason : String
  task : ℕ
  sentAt : ℕ
  current : String
  deriving DecidableEq

/-- A deletion by a task or by the watchtower, with the chute's version then. -/
structure Removal where
  instanceId : String
  version : String
  current : String
  deriving DecidableEq

/-- How far a task is. -/
inductive Phase
  /-- The instances it has still to come to, and when its sleep ends. -/
  | notifying (pending : List String) (wakeAt : ℕ)
  /-- It has found its update still in place, at the end. -/
  | checked
  /-- It has loaded the instances; `doomed` are those of other versions. -/
  | loaded (known doomed : List String)
  | done
  deriving DecidableEq

/-- A run of `handle_rolling_update`: its arguments, the instances that it has
loaded, and how far it is. -/
structure Task where
  version : String
  reason : String
  instances : List String
  phase : Phase
  deriving DecidableEq

/-- 45 minutes. -/
def maxDuration : ℕ := 60 * 45

/-- `int(max_duration / len(chute.instances))`, at least a second and at most
five minutes. -/
def Task.sleepPerInstance (task : Task) : ℕ :=
  let share := maxDuration / task.instances.length
  min 300 (if share = 0 then 1 else share)

structure State where
  now : ℕ
  version : String
  instances : Dict String Instance
  update : Option RollingUpdate
  /-- The tasks that wait for a worker: the version and the reason. -/
  queued : List (String × String)
  tasks : Dict ℕ Task
  /-- The upgrades under way, with the version that each has loaded. -/
  upgrading : List String
  /-- The launches under way, with the version that each has loaded. -/
  claims : Dict ℕ String
  /-- The ids there ever were. -/
  ids : List String
  /-- What the watchtower is about to purge. -/
  doomed : List String
  notices : List Notice
  removals : List Removal

inductive Action
  | tick (d : ℕ)
  | deploy (version : String)
  | loadUpgrade
  | upgrade (version : String) (created : Bool)
  | claim (c : ℕ)
  | insert (c : ℕ) (instanceId minerHotkey : String)
  | leave (instanceId : String)
  | start (t : ℕ) (version reason : String)
  | notify (t : ℕ)
  | check (t : ℕ)
  | load (t : ℕ)
  | commit (t : ℕ)
  | expire
  | look
  | purge (instanceId : String)

namespace State

variable (s : State)

/-- The instances of other versions. -/
def outdated (version : String) : List String :=
  (s.instances.items.filter fun e => e.2.version ≠ version).map Prod.fst

/-- `if not rolling_update or rolling_update.new_version != version`. -/
def isDefunct (version : String) : Bool := s.update.all fun u => u.newVersion ≠ version

def setPhase (t : ℕ) (task : Task) (phase : Phase) : State :=
  { s with tasks := s.tasks.set t { task with phase := phase } }

/-- `DELETE FROM instances`, for a rolling update. -/
def remove (instanceId : String) : State :=
  match s.instances.get? instanceId with
  | none => s
  | some i =>
    { s with
      instances := s.instances.pop instanceId
      removals := ⟨instanceId, i.version, s.version⟩ :: s.removals }

/-- **`_deploy_chute`** of a chute that is there. -/
def deploy (version : String) : State :=
  { s with
    update := if s.instances.keys = [] then none else some ⟨s.version, version, s.now⟩
    version := version
    queued := s.queued ++ [(version, "code change")] }

/-- `update_chutes_lib`, which has loaded the chutes of the image before.
Whether there is a row depends on the other ones as well. -/
def upgrade (version : String) (created : Bool) : Option State :=
  if version ∈ s.upgrading then
    some { s with
      upgrading := s.upgrading.erase version
      update := if created then some ⟨version, version, s.now⟩ else none
      queued := s.queued ++ [(version, "image updated due to chutes lib upgrade")] }
  else none

/-- `handle_rolling_update`, to its loop. -/
def start (t : ℕ) (version reason : String) : Option State :=
  if (version, reason) ∈ s.queued ∧ t ∉ s.tasks.keys then
    let s' := { s with queued := s.queued.erase (version, reason) }
    if s.instances.keys = [] then some s'
    else
      let phase := .notifying s.instances.keys s.now
      some { s' with tasks := s.tasks.set t ⟨version, reason, s.instances.keys, phase⟩ }
  else none

/-- The body of the loop. -/
def notify (t : ℕ) : Option State :=
  match s.tasks.get? t with
  | some task => match task.phase with
    | .notifying (instanceId :: pending) wakeAt =>
      if s.now < wakeAt then none
      else match s.instances.get? instanceId, s.update with
        | none, _ => some (s.setPhase t task (.notifying pending wakeAt))
        | some i, update =>
          if s.isDefunct task.version then some (s.setPhase t task .done)
          else update.map fun u =>
            { s.setPhase t task (.notifying pending (s.now + task.sleepPerInstance)) with
              notices := ⟨instanceId, i.minerHotkey, u.oldVersion, u.newVersion, task.reason, t,
                s.now, s.version⟩ :: s.notices }
    | _ => none
  | none => none

/-- The update, once more, after the loop. -/
def check (t : ℕ) : Option State :=
  match s.tasks.get? t with
  | some task => match task.phase with
    | .notifying [] wakeAt =>
      if s.now < wakeAt then none
      else some (s.setPhase t task (if s.isDefunct task.version then .done else .checked))
    | _ => none
  | none => none

/-- The chute with its instances. -/
def load (t : ℕ) : Option State :=
  match s.tasks.get? t with
  | some task =>
    if task.phase = .checked then
      some (s.setPhase t task (.loaded s.instances.keys (s.outdated task.version)))
    else none
  | none => none

/-- The commit. The row of `rolling_updates` is deleted by its key, the chute. -/
def commit (t : ℕ) : Option State :=
  match s.tasks.get? t with
  | some task => match task.phase with
    | .loaded _ doomed =>
      some { (doomed.foldl remove s).setPhase t task .done with update := none }
    | _ => none
  | none => none

def step : Action → Option State
  | .tick d => some { s with now := s.now + d }
  | .deploy version => some (s.deploy version)
  | .loadUpgrade => some { s with upgrading := s.version :: s.upgrading }
  | .upgrade version created => s.upgrade version created
  | .claim c =>
    if c ∈ s.claims.keys then none else some { s with claims := s.claims.set c s.version }
  | .insert c instanceId minerHotkey =>
    match s.claims.get? c with
    | none => none
    | some version =>
      if instanceId ∈ s.ids then none
      else some
        { s with
          claims := s.claims.pop c
          ids := instanceId :: s.ids
          instances := s.instances.set instanceId ⟨version, minerHotkey⟩ }
  | .leave instanceId => some { s with instances := s.instances.pop instanceId }
  | .start t version reason => s.start t version reason
  | .notify t => s.notify t
  | .check t => s.check t
  | .load t => s.load t
  | .commit t => s.commit t
  -- `rolling_update_cleanup`: a row that is an hour old, and then the instances.
  | .expire => some { s with update := s.update.filter fun u => s.now < u.startedAt + 3600 }
  | .look => some { s with
      doomed := if s.update = none then
        (s.outdated s.version).filter fun id => (s.instances.get? id).any fun i => i.version ≠ ""
      else [] }
  | .purge instanceId =>
    if instanceId ∈ s.doomed then
      some { s.remove instanceId with doomed := s.doomed.erase instanceId }
    else none

end State

/-- A chute without instances. -/
def initial (version : String) : State where
  now := 0
  version := version
  instances := .empty
  update := none
  queued := []
  tasks := .empty
  upgrading := []
  claims := .empty
  ids := []
  doomed := []
  notices := []
  removals := []

def system : Lts State Action where
  init s := ∃ version, s = initial version
  step := State.step

end Rollout

end ChutesApi
