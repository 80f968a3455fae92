import ChutesApi.Invoke.Model.Partition
/-!
# The hourly export

The audit exporter runs now and then, and exports the hour that has ended
last: the invocations that started in it, and those that completed in it and
started at most a day before. What becomes of the file, and what else is in
the report, is left out. Transactions take no time here: what a statement
writes has the time of its commit, which is that of the clock. The rows of a
report have all that the view has of them, where the query leaves out
`user_id`.
-/

namespace ChutesApi

namespace Export

open WeekPartition

/-- A file of invocations. -/
structure Report where
  startTime : ℕ
  endTime : ℕ
  rows : List InvocationRow

/-- The condition of `INVOCATION_QUERY`; a day is added where it takes one
away. -/
def isReported (startTime endTime : ℕ) (row : InvocationRow) : Bool :=
  (startTime ≤ row.startedAt && row.startedAt < endTime) ||
    (startTime ≤ row.startedAt + dayLength &&
      row.completedAt.any fun completedAt => startTime ≤ completedAt && completedAt < endTime)

/-- `main`, with the rows of the view. -/
def main (now : ℕ) (view : List InvocationRow) : Report :=
  let endTime := hourLength * (now / hourLength)
  let startTime := endTime - hourLength
  { startTime := startTime
    endTime := endTime
    rows := (view.filter (isReported startTime endTime)).mergeSort fun row row' =>
      row.startedAt ≤ row'.startedAt }

structure State where
  clock : ℕ
  store : WeekPartition.State
  reports : List Report

inductive Action
  | tick (d : ℕ)
  | track (args : Tracked)
  | complete (invocationId : String) (bounty : ℕ) (metrics : String)
  | fail (invocationId errorMessage : String)
  /-- The exporter runs. -/
  | report

def State.step (s : State) : Action → Option State
  | .tick d => some { s with clock := s.clock + d }
  | .track args => (s.store.track args s.clock).map fun store => { s with store := store }
  | .complete invocationId bounty metrics =>
    (s.store.complete invocationId bounty metrics s.clock).map fun store =>
      { s with store := store }
  | .fail invocationId errorMessage =>
    (s.store.fail invocationId errorMessage s.clock).map fun store => { s with store := store }
  | .report => some { s with reports := main s.clock s.store.view :: s.reports }

def system : Lts State Action where
  init s := s.store = .initial ∧ s.reports = []
  step := State.step

end Export

end ChutesApi
