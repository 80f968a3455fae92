import ChutesApi.Job.Model
import ChutesApi.User.Model
import Mathlib.Algebra.Order.Floor.Ring
import Mathlib.Data.Rat.Floor
import Mathlib.Logic.Function.Basic
/-!
# Instances, and how they are deleted

An instance is charged to the user it is billed to when its row is deleted,
by a trigger that runs before the row goes and that looks at the jobs which
still refer to it. A deletion in raw SQL leaves the reference to the foreign
key, which is nulled after the row is gone; a deletion by the ORM's session
nulls it first.
-/

namespace ChutesApi

/-- A row of `instances`. Times are in seconds. -/
structure Instance where
  chuteId : ChuteId
  billedTo : Option UserId
  activatedAt : Option ℚ
  stopBillingAt : Option ℚ
  hourlyRate : ℚ
  deriving DecidableEq

/-- An assignment to a `DECIMAL(precision, scale)`, which rounds halves away
from zero, and raises on a number that is too large. -/
def decimal (precision scale : ℕ) (q : ℚ) : Option ℚ :=
  let scaled := q * 10 ^ scale
  let units : ℤ := if 0 ≤ scaled then ⌊scaled + 1 / 2⌋ else -⌊-scaled + 1 / 2⌋
  if units.natAbs < 10 ^ precision then some (units / 10 ^ scale) else none

example : decimal 10 2 (5 / 1000) = some (1 / 100) ∧ decimal 10 2 (-5 / 1000) = some (-1 / 100) ∧
    decimal 10 6 10000 = none := by
  decide +kernel

/-- `v_total_cost`. -/
def Instance.cost (i : Instance) (now activatedAt : ℚ) : Option ℚ := do
  let hours ← decimal 10 6 ((min (i.stopBillingAt.getD now) now - activatedAt) / 3600)
  decimal 10 2 (hours * i.hourlyRate)

/-- What a deletion reads and writes. -/
structure Db where
  instances : String → Option Instance
  jobs : List Job
  isPublic : ChuteId → Bool
  permissionsBitmask : UserId → ℕ
  balance : UserId → ℚ
  /-- Amount and count, by the user, the hour and the chute. -/
  usageData : UserId × ℤ × ChuteId → Option (ℚ × ℕ)

namespace Db

variable (db : Db) (now : ℚ) (id : String)

/-- `EXISTS(SELECT 1 FROM jobs j WHERE j.instance_id = …)`. -/
def hasJob : Bool := db.jobs.any fun job => job.instanceId == some id

/-- Free users are not billed. -/
def isFree (userId : UserId) : Bool :=
  db.permissionsBitmask userId &&& Permissioning.freeAccount.bitmask ==
    Permissioning.freeAccount.bitmask

/-- The balance and `usage_data`, where an instance is billed. -/
def bill (userId : UserId) (chuteId : ChuteId) (cost : ℚ) : Db :=
  let key := (userId, ⌊now / 3600⌋, chuteId)
  { db with
    balance := Function.update db.balance userId (db.balance userId - cost)
    usageData := Function.update db.usageData key
      (match db.usageData key with
        | none => some (cost, 1)
        | some (amount, count) => some (amount + cost, count)) }

/-- **`update_balance_on_instance_delete`**, before the row is deleted. -/
def updateBalanceOnInstanceDelete (old : Instance) : Option Db :=
  match old.billedTo with
  | none => some db
  | some userId =>
    if db.isFree userId then some db
    else if !db.hasJob id && db.isPublic old.chuteId then some db
    else match old.activatedAt with
      | none => some db
      | some activatedAt => (old.cost now activatedAt).map (db.bill now userId old.chuteId)

/-- The reference is set to null: by the foreign key, or by the session. -/
def unbind : Db :=
  { db with
    jobs := db.jobs.map fun job =>
      if job.instanceId = some id then { job with instanceId := none } else job }

/-- `DELETE FROM instances`. -/
def rawDelete : Option Db :=
  match db.instances id with
  | none => some db
  | some old =>
    (db.updateBalanceOnInstanceDelete now id old).map fun db =>
      { db.unbind id with instances := Function.update db.instances id none }

/-- `session.delete`. -/
def sessionDelete : Option Db := (db.unbind id).rawDelete now id

/-- The job that refers to the instance is finished, if it is not. -/
def finishJobOf : Db :=
  { db with
    jobs := db.jobs.map fun job =>
      if job.instanceId = some id ∧ job.finished = false then { job with finished := true }
      else job }

/-! ## The paths -/

/-- `purge`: the instance is deleted, and then its job looked up. -/
def purge : Option Db := (db.rawDelete now id).map (·.finishJobOf id)

/-- `delete_instance`: the other way round. -/
def deleteInstance : Option Db := (db.finishJobOf id).sessionDelete now id

/-- `complete_job`, of the job of the instance. -/
def completeJob : Option Db := (db.finishJobOf id).sessionDelete now id

/-- `terminate_jobs_for_zero_balance_users`, of the job of the instance. -/
def terminateJob : Option Db := (db.finishJobOf id).sessionDelete now id

/-- `shutdown_stale_instances`, of one of them. -/
def shutdownStale : Option Db := db.sessionDelete now id

/-- `terminate_zero_balance_user_instances`, of one of them. -/
def terminateInstance : Option Db := db.sessionDelete now id

end Db

/-- How an instance is deleted. -/
inductive Deletion
  | purge
  | deleteInstance
  | completeJob
  | terminateJob
  | shutdownStale
  | terminateInstance
  deriving DecidableEq

namespace Deletion

def run (db : Db) (now : ℚ) (id : String) : Deletion → Option Db
  | .purge => db.purge now id
  | .deleteInstance => db.deleteInstance now id
  | .completeJob => db.completeJob now id
  | .terminateJob => db.terminateJob now id
  | .shutdownStale => db.shutdownStale now id
  | .terminateInstance => db.terminateInstance now id

/-- The deletion comes to the instance: by its unfinished job, by its time
or by the user it is billed to. -/
def Applies (db : Db) (now : ℚ) (id : String) : Deletion → Prop
  | .purge | .deleteInstance => (db.instances id).isSome
  | .completeJob | .terminateJob =>
    (db.instances id).isSome ∧ ∃ job ∈ db.jobs, job.instanceId = some id ∧ job.finished = false
  | .shutdownStale => ∃ i ∈ db.instances id, ∃ stopBillingAt ∈ i.stopBillingAt, stopBillingAt ≤ now
  | .terminateInstance => ∃ i ∈ db.instances id, ∃ userId ∈ i.billedTo, db.isFree userId = false

/-- Whether the job of the instance is finished by the deletion. -/
def finishesJob : Deletion → Bool
  | .deleteInstance | .completeJob | .terminateJob => true
  | .purge | .shutdownStale | .terminateInstance => false

end Deletion

end ChutesApi
