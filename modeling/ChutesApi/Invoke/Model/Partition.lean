import ChutesApi.Common.Dict
import ChutesApi.Common.IsoWeek
import ChutesApi.Common.Lts
import ChutesApi.Python.Exc
import Mathlib.Algebra.Order.Floor.Ring
import Mathlib.Data.Rat.Floor
/-!
# The table of the invocations

`invocations` is a view of a table that is partitioned by the week. Its
trigger makes the partition of a new row, where there is none, and returns
the name of the week, which `invoke` keeps: what it has to say of the
invocation later is written into the partition of that name, in whichever
week that is. Times are microseconds from the first of January of the year 1.
-/

namespace ChutesApi

open Python

namespace WeekPartition

/-- What `TRACK_INVOCATION` is given. -/
structure Tracked where
  parentInvocationId : String
  invocationId : String
  chuteId : String
  chuteUserId : String
  functionName : String
  userId : String
  imageId : String
  imageUserId : String
  instanceId : String
  minerUid : ℕ
  minerHotkey : String
  computeMultiplier : ℚ
  deriving DecidableEq

/-- A row of `invocations`. -/
structure InvocationRow extends Tracked where
  startedAt : ℕ
  completedAt : Option ℕ := none
  errorMessage : Option String := none
  bounty : ℕ := 0
  metrics : Option String := none
  deriving DecidableEq

namespace InvocationRow

variable (row : InvocationRow)

/-- What `UPDATE_INVOCATION` sets. -/
def complete (now bounty : ℕ) (metrics : String) : InvocationRow :=
  { row with completedAt := some now, bounty := bounty, metrics := some metrics }

/-- What `UPDATE_INVOCATION_ERROR` sets. -/
def fail (now : ℕ) (errorMessage : String) : InvocationRow :=
  { row with completedAt := some now, errorMessage := some errorMessage }

/-- `CEIL(EXTRACT(EPOCH FROM (completed_at - started_at))) * compute_multiplier`,
of a row completed at `now`. -/
def totalComputeUnits (now : ℕ) : ℚ :=
  ⌈((now : ℚ) - row.startedAt) / 1000000⌉ * row.computeMultiplier

end InvocationRow

/-! ## Weeks -/

def hourLength : ℕ := 60 * 60 * 1000000

def dayLength : ℕ := 24 * hourLength

def weekLength : ℕ := 7 * dayLength

/-- The week of a time; `date_trunc('week', …)` is its first moment. -/
def weekOf (time : ℕ) : ℕ := time / weekLength

def partitionName (suffix : String) : String := "partitioned_invocations_" ++ suffix

/-- A partition, for the values from `lower` and below `upper`. -/
structure Table where
  lower : ℕ
  upper : ℕ
  rows : List InvocationRow

/-! ## The statements -/

/-- `CREATE TABLE IF NOT EXISTS … PARTITION OF partitioned_invocations FOR VALUES
FROM … TO …`, which raises where it would overlap another partition. -/
def createPartition (tables : Dict String Table) (name : String) (lower upper : ℕ) :
    Option (Dict String Table) :=
  if name ∈ tables.keys then some tables
  else if ∃ table ∈ tables.values, lower < table.upper ∧ table.lower < upper then none
  else some (tables.set name ⟨lower, upper, []⟩)

/-- `INSERT INTO partitioned_invocations`: the row goes to the partition that is
for its time, and the statement raises where there is none. -/
def insertRow (tables : Dict String Table) (new : InvocationRow) : Option (Dict String Table) :=
  (tables.items.find? fun e => e.2.lower ≤ new.startedAt ∧ new.startedAt < e.2.upper).map fun e =>
    tables.set e.1 { e.2 with rows := e.2.rows ++ [new] }

/-- **`insert_invocation`**, and the suffix that `TRACK_INVOCATION` returns. -/
def insertInvocation (tables : Dict String Table) (new : InvocationRow) :
    Option (Dict String Table × String) := do
  let week := weekOf new.startedAt
  let tables ← createPartition tables (partitionName (IsoWeek.name week)) (weekLength * week)
    (weekLength * week + weekLength)
  let tables ← insertRow tables new
  return (tables, IsoWeek.name week)

/-- `UPDATE partitioned_invocations_… SET … WHERE invocation_id = … RETURNING …`,
with the rows that it has found; it raises where there is no such table. -/
def updateRows (tables : Dict String Table) (suffix invocationId : String)
    (f : InvocationRow → InvocationRow) :
    Option (Dict String Table × List InvocationRow) :=
  (tables.get? (partitionName suffix)).map fun table =>
    (tables.set (partitionName suffix)
      { table with rows := table.rows.map fun row =>
          if row.invocationId = invocationId then f row else row },
      table.rows.filter fun row => row.invocationId = invocationId)

/-! ## The system -/

/-- What `invoke` knows of an attempt: `partition_suffix` and, once it has
completed, `compute_units`. -/
structure Attempt where
  partitionSuffix : String
  computeUnits : Option ℚ := none

structure State where
  tables : Dict String Table
  attempts : Dict String Attempt

/-- The statements, each with the time of its transaction. -/
inductive Action
  | track (args : Tracked) (now : ℕ)
  | complete (invocationId : String) (bounty : ℕ) (metrics : String) (now : ℕ)
  | fail (invocationId errorMessage : String) (now : ℕ)

namespace State

variable (s : State)

/-- The rows of the view. -/
def view : List InvocationRow := s.tables.values.flatMap Table.rows

/-- The id of an attempt is a new one. -/
def track (args : Tracked) (now : ℕ) : Option State :=
  if args.invocationId ∈ s.attempts.keys then none
  else (insertInvocation s.tables { args with startedAt := now }).map fun inserted =>
    ⟨inserted.1, s.attempts.set args.invocationId ⟨inserted.2, none⟩⟩

/-- `result.scalar_one_or_none()` raises where two rows were updated. -/
def complete (invocationId : String) (bounty : ℕ) (metrics : String) (now : ℕ) : Option State := do
  let attempt ← s.attempts.get? invocationId
  let updated ← updateRows s.tables attempt.partitionSuffix invocationId
    (·.complete now bounty metrics)
  let computeUnits ← (scalarOneOrNone (updated.2.map (·.totalComputeUnits now))).toOption
  return ⟨updated.1, s.attempts.set invocationId { attempt with computeUnits := computeUnits }⟩

def fail (invocationId errorMessage : String) (now : ℕ) : Option State := do
  let attempt ← s.attempts.get? invocationId
  let updated ← updateRows s.tables attempt.partitionSuffix invocationId (·.fail now errorMessage)
  return ⟨updated.1, s.attempts⟩

def step : Action → Option State
  | .track args now => s.track args now
  | .complete invocationId bounty metrics now => s.complete invocationId bounty metrics now
  | .fail invocationId errorMessage now => s.fail invocationId errorMessage now

/-- No partition yet. -/
def initial : State := ⟨.empty, .empty⟩

end State

def system : Lts State Action where
  init s := s = .initial
  step := State.step

end WeekPartition

/-! ## One table

What the partitions are for: a table of the invocations by their ids. -/

namespace InvocationTable

open WeekPartition

/-- A row, and the compute units of its attempt. -/
structure Entry where
  row : InvocationRow
  computeUnits : Option ℚ := none

abbrev State := Dict String Entry

def step (t : State) : Action → Option State
  | .track args now =>
    if args.invocationId ∈ t.keys then none
    else some (t.set args.invocationId ⟨{ args with startedAt := now }, none⟩)
  | .complete invocationId bounty metrics now =>
    (t.get? invocationId).map fun e =>
      t.set invocationId ⟨e.row.complete now bounty metrics, some (e.row.totalComputeUnits now)⟩
  | .fail invocationId errorMessage now =>
    (t.get? invocationId).map fun e =>
      t.set invocationId { e with row := e.row.fail now errorMessage }

def system : Lts State Action where
  init t := t = .empty
  step := step

end InvocationTable

end ChutesApi
