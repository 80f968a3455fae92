import ChutesApi.Common.Dict
import ChutesApi.Common.Lts
import ChutesApi.Instance.Model
/-!
# The audit of the instances

`instance_audit` has a row for every instance there ever was. Triggers write
it, from what is inserted into `instances`, updated there and deleted; what
the miners are credited for private instances is read from it, by
`PRIVATE_INSTANCES_QUERY`, while the users are billed from `instances`. Every
statement has the time of its transaction, which need not be that of the
commit. The miner's uid and the region, which are copied and not read, are
left out.
-/

namespace ChutesApi

namespace Audit

/-- The columns of `instances` beside those a deletion reads. -/
structure Columns where
  minerHotkey : String
  computeMultiplier : ℚ
  active : Bool := false
  lastVerifiedAt : Option ℚ := none
  deriving DecidableEq

/-- A row of `instances`. -/
structure Row extends Instance, Columns
  deriving DecidableEq

/-- A row of `instance_audit`. -/
structure Entry where
  chuteId : ChuteId
  version : String
  createdAt : ℚ
  minerHotkey : String
  verifiedAt : Option ℚ := none
  activatedAt : Option ℚ := none
  deletedAt : Option ℚ := none
  deletionReason : Option String := none
  billedTo : Option UserId
  stopBillingAt : Option ℚ
  computeMultiplier : ℚ
  hourlyRate : ℚ
  deriving DecidableEq

/-! ## The triggers -/

/-- `fn_instance_audit_insert`; the version is the chute's. -/
def Entry.insert (now : ℚ) (version : String) (new : Row) : Entry where
  chuteId := new.chuteId
  version := version
  createdAt := now
  minerHotkey := new.minerHotkey
  billedTo := new.billedTo
  stopBillingAt := new.stopBillingAt
  computeMultiplier := new.computeMultiplier
  hourlyRate := new.hourlyRate

/-- `fn_instance_audit_update`. -/
def Entry.update (old new : Row) (e : Entry) : Entry :=
  { e with
    verifiedAt := if new.lastVerifiedAt.isSome ∧ old.lastVerifiedAt = none then
      e.verifiedAt.or new.lastVerifiedAt else e.verifiedAt
    activatedAt := if new.activatedAt.isSome ∧ old.activatedAt = none then
      e.activatedAt.or new.activatedAt else e.activatedAt
    billedTo := if new.billedTo ≠ old.billedTo ∧ new.billedTo.isSome then
      new.billedTo else e.billedTo
    hourlyRate := if new.hourlyRate ≠ old.hourlyRate then new.hourlyRate else e.hourlyRate
    stopBillingAt := if new.stopBillingAt ≠ old.stopBillingAt then
      new.stopBillingAt else e.stopBillingAt }

/-- `fn_instance_audit_delete`, and then what `update_balance_on_instance_delete`
writes into the audit: the names of the triggers are in that order. -/
def Entry.delete (now : ℚ) (old : Instance) (e : Entry) : Entry :=
  { e with
    deletedAt := e.deletedAt.or (some now)
    stopBillingAt := match old.billedTo, e.stopBillingAt with
      | some _, some stop => some (if now < stop then now else stop)
      | _, stop => stop }

/-! ## What the miners are credited -/

/-- A row of `billed_instances`: `billing_start` and `billing_end`. -/
def Entry.billedInstance (now interval : ℚ) (e : Entry) : Option (ℚ × ℚ) :=
  match e.billedTo, e.activatedAt with
  | some _, some activatedAt =>
    if e.stopBillingAt = none ∨ ∃ stop ∈ e.stopBillingAt, now - interval ≤ stop then
      some (max activatedAt (now - interval),
        min (min (e.stopBillingAt.getD now) (e.deletedAt.getD now)) now)
    else none
  | _, _ => none

/-- A row of `PRIVATE_INSTANCES_QUERY`. -/
structure Credit where
  totalInstances : ℕ
  computeSeconds : ℚ
  computeUnits : ℚ
  deriving DecidableEq

/-- The aggregates over a miner's spans, each with its multiplier; a miner
without any has no row. -/
def aggregate (spans : List (ℚ × ℚ)) : Option Credit :=
  if spans = [] then none
  else some ⟨spans.length, (spans.map Prod.fst).sum, (spans.map fun p => p.1 * p.2).sum⟩

/-- **`PRIVATE_INSTANCES_QUERY`**, the row of a miner. -/
def privateInstances (audit : Dict String Entry) (now interval : ℚ) (minerHotkey : String) :
    Option Credit :=
  aggregate (audit.values.filterMap fun e =>
    ((e.billedInstance now interval).filter fun span =>
        e.minerHotkey = minerHotkey ∧ span.1 < span.2).map fun span =>
      (span.2 - span.1, e.computeMultiplier))

/-! ## The system -/

/-- What `claim_launch_config` puts into the row of a new instance. -/
structure ClaimArgs where
  chuteId : ChuteId
  version : String
  minerHotkey : String
  /-- The user, where the instance is a job's or private. -/
  billedTo : Option UserId
  hourlyRate : ℚ
  computeMultiplier : ℚ
  deriving DecidableEq

def ClaimArgs.row (args : ClaimArgs) : Row where
  chuteId := args.chuteId
  billedTo := args.billedTo
  activatedAt := none
  stopBillingAt := none
  hourlyRate := args.hourlyRate
  minerHotkey := args.minerHotkey
  computeMultiplier := args.computeMultiplier

structure State where
  db : Db
  columns : String → Option Columns
  audit : Dict String Entry
  /-- The instances that handlers of `activate` have found inactive, and are
  about to activate. -/
  activating : List String
  /-- What the triggers of a deletion saw: `OLD`, and the time. No code reads
  it. -/
  ended : String → Option (Row × ℚ)

namespace State

variable (s : State) (id : String)

def row : Option Row :=
  match s.db.instances id, s.columns id with
  | some i, some c => some ⟨i, c⟩
  | _, _ => none

/-- The row's audit, if there is one, rewritten. -/
def writeAudit (f : Entry → Entry) : Dict String Entry :=
  match s.audit.get? id with
  | some e => s.audit.set id (f e)
  | none => s.audit

/-- `UPDATE instances SET … WHERE instance_id = …`, with its trigger. -/
def update (f : Row → Row) : State :=
  match s.row id with
  | none => s
  | some old =>
    { s with
      db := { s.db with instances := Function.update s.db.instances id (some (f old).toInstance) }
      columns := Function.update s.columns id (some (f old).toColumns)
      audit := s.writeAudit id (Entry.update old (f old)) }

/-- `INSERT INTO instances`; both tables have the id for their key. -/
def claim (args : ClaimArgs) (now : ℚ) : Option State :=
  if (s.row id).isSome ∨ (s.audit.get? id).isSome then none
  else some
    { s with
      db := { s.db with instances := Function.update s.db.instances id (some args.row.toInstance) }
      columns := Function.update s.columns id (some args.row.toColumns)
      audit := s.audit.set id (.insert now args.version args.row) }

/-- `activate_launch_config_instance` has loaded the row, which is locked by
no one. -/
def load : Option State :=
  match s.row id with
  | none => none
  | some row => if row.active then none else some { s with activating := id :: s.activating }

/-- The handler's commit. Where the instance is a job's or private, billing is
to stop some time later; a row that is gone raises. -/
def activate (now : ℚ) (shutdownAfter : Option ℕ) : Option State :=
  if id ∈ s.activating then
    let t := { s with activating := s.activating.erase id }
    if (s.row id).isSome then
      some (t.update id fun row =>
        { row with
          active := true
          activatedAt := some now
          stopBillingAt := match shutdownAfter with
            | some seconds => some (now + seconds)
            | none => row.stopBillingAt })
    else some t
  else none

/-- `update_shutdown_timestamp`. -/
def extend (now : ℚ) (shutdownAfter : ℕ) : State :=
  s.update id fun row => { row with stopBillingAt := some (now + shutdownAfter) }

/-- `last_verified_at = now()`, by `verify_launch_config_instance` and by the
watchtower. -/
def verify (now : ℚ) : State := s.update id fun row => { row with lastVerifiedAt := some now }

/-- `UPDATE instance_audit SET deletion_reason = …`. -/
def setReason (reason : String) : State :=
  { s with audit := s.writeAudit id fun e => { e with deletionReason := some reason } }

/-- A deletion, with both its triggers. -/
def delete (d : Deletion) (now : ℚ) : Option State :=
  match s.row id with
  | none => none
  | some old =>
    (d.run s.db now id).map fun db =>
      { s with
        db := db
        columns := Function.update s.columns id none
        audit := s.writeAudit id (.delete now old.toInstance)
        ended := Function.update s.ended id (some (old, now)) }

end State

inductive Action
  | claim (id : String) (args : ClaimArgs) (now : ℚ)
  | load (id : String)
  | activate (id : String) (now : ℚ) (shutdownAfter : Option ℕ)
  | extend (id : String) (now : ℚ) (shutdownAfter : ℕ)
  | verify (id : String) (now : ℚ)
  | setReason (id reason : String)
  | delete (id : String) (d : Deletion) (now : ℚ)
  /-- Whatever else happens to jobs, chutes, users and what they are charged. -/
  | others (jobs : List Job) (isPublic : ChuteId → Bool) (permissionsBitmask : UserId → ℕ)
      (balance : UserId → ℚ) (usageData : UserId × ℤ × ChuteId → Option (ℚ × ℕ))

def State.step (s : State) : Action → Option State
  | .claim id args now => s.claim id args now
  | .load id => s.load id
  | .activate id now shutdownAfter => s.activate id now shutdownAfter
  | .extend id now shutdownAfter => some (s.extend id now shutdownAfter)
  | .verify id now => some (s.verify id now)
  | .setReason id reason => some (s.setReason id reason)
  | .delete id d now => s.delete id d now
  | .others jobs isPublic permissionsBitmask balance usageData =>
    some { s with db := ⟨s.db.instances, jobs, isPublic, permissionsBitmask, balance, usageData⟩ }

/-- No instance yet; the users, chutes and jobs are any. -/
structure Initial (s : State) : Prop where
  instances : ∀ id, s.db.instances id = none
  columns : ∀ id, s.columns id = none
  audit : s.audit = Dict.empty
  activating : s.activating = []
  ended : ∀ id, s.ended id = none

def system : Lts State Action where
  init := Initial
  step := State.step

end Audit

end ChutesApi
