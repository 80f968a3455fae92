import ChutesApi.Common.Dict
import ChutesApi.Python.Exc
import Mathlib.Algebra.BigOperators.Group.List.Basic
import Mathlib.Algebra.Order.Field.Basic
import Mathlib.Data.NNRat.Floor
/-!
# The scores of the miners

`get_scoring_data` of `metasync`, from the rows of its four queries. What it
counts and sums is exact; the shares it computes are in any ordered field
with a power, so that they are real numbers in the results and can be
evaluated elsewhere. What is only logged is left out, but not the lookups
and divisions made for it, which can raise.
-/

namespace ChutesApi

namespace Metasync

open Python

/-! ## The rows -/

/-- A row of `NORMALIZED_COMPUTE_QUERY`. -/
structure ComputeRow where
  hotkey : String
  invocationCount : ℕ
  bountyCount : ℕ
  computeUnits : ℚ≥0
  deriving DecidableEq

/-- A row of `UNIQUE_CHUTE_AVERAGE_QUERY`. -/
structure UniqueRow where
  minerHotkey : String
  averageActiveChutes : ℕ
  deriving DecidableEq

/-- A row of `PRIVATE_INSTANCES_QUERY`. -/
structure PrivateRow where
  minerHotkey : String
  totalInstances : ℕ
  seconds : ℚ≥0
  computeUnits : ℚ≥0
  deriving DecidableEq

/-- **What the queries return.** The hotkey is the primary key of
`metagraph_nodes`, and the other rows are grouped by hotkey. -/
structure ScoringRows where
  /-- Coldkey and hotkey of the nodes with an id that is not negative. -/
  nodes : List (String × String)
  compute : List ComputeRow
  unique : List UniqueRow
  privateInstances : List PrivateRow
  nodup_nodes : (nodes.map Prod.snd).Nodup
  nodup_compute : (compute.map ComputeRow.hotkey).Nodup
  nodup_unique : (unique.map UniqueRow.minerHotkey).Nodup
  nodup_private : (privateInstances.map PrivateRow.minerHotkey).Nodup

/-! ## The raw values -/

/-- A row of `raw_compute_values`, by the names of `FEATURE_WEIGHTS`. -/
structure RawValues where
  computeUnits : ℚ≥0
  invocationCount : ℕ
  uniqueChuteCount : ℕ
  bountyCount : ℕ
  deriving DecidableEq

/-- The raw values of the miners, and the highest count of unique chutes. -/
structure Raw where
  values : Dict String RawValues
  highestUnique : ℕ
  deriving DecidableEq

def Raw.addCompute (values : Dict String RawValues) (row : ComputeRow) : Dict String RawValues :=
  if row.hotkey = "" then values
  else values.set row.hotkey
    { computeUnits := row.computeUnits, invocationCount := row.invocationCount,
      uniqueChuteCount := 0, bountyCount := row.bountyCount }

def Raw.addUnique (raw : Raw) (row : UniqueRow) : Raw :=
  if row.minerHotkey = "" then raw
  else match raw.values.get? row.minerHotkey with
    | none => raw
    | some values =>
      { values := raw.values.set row.minerHotkey
          { values with uniqueChuteCount := row.averageActiveChutes }
        highestUnique := if raw.highestUnique < row.averageActiveChutes then
          row.averageActiveChutes else raw.highestUnique }

/-- For now one invocation for each second. -/
def Raw.addPrivate (values : Dict String RawValues) (row : PrivateRow) : Dict String RawValues :=
  match values.get? row.minerHotkey with
  | none => values
  | some old => values.set row.minerHotkey
      { old with
        bountyCount := old.bountyCount + row.totalInstances
        computeUnits := old.computeUnits + row.computeUnits
        invocationCount := old.invocationCount + ⌊row.seconds⌋₊ }

/-- The three loops over the rows. -/
def ScoringRows.raw (rows : ScoringRows) : Raw :=
  let computed := rows.compute.foldl Raw.addCompute .empty
  let counted := rows.unique.foldl Raw.addUnique ⟨computed, 0⟩
  { counted with values := rows.privateInstances.foldl Raw.addPrivate counted.values }

/-! ## The shares -/

/-- A loop that divides by one number in each of its rounds. -/
def divides {α K : Type} [Zero K] [DecidableEq K] (loop : List α) (divisor : K) :
    Except ScriptError Unit :=
  if divisor = 0 ∧ loop ≠ [] then .error .zeroDivisionError else .ok ()

/-- `d[k]`. -/
def lookup {κ ν : Type} [DecidableEq κ] (d : Dict κ ν) (k : κ) : Except ScriptError ν :=
  match d.get? k with
  | some v => .ok v
  | none => .error .keyError

/-- The metrics of a miner, by the names of `FEATURE_WEIGHTS`. -/
structure Metrics (K : Type) where
  computeUnits : K
  invocationCount : K
  uniqueChuteCount : K
  bountyCount : K

section

variable {K : Type} [Field K] [LinearOrder K]

/-- The weighted sum of the metrics. -/
def Metrics.score (metrics : Metrics K) : K :=
  metrics.computeUnits * (52 / 100) + metrics.invocationCount * (20 / 100) +
    metrics.uniqueChuteCount * (20 / 100) + metrics.bountyCount * (8 / 100)

/-- `sum(…) or 1.0`. -/
def totalOf (values : List K) : K := if values.sum = 0 then 1 else values.sum

/-- The median of the counts that are not zero. -/
def medianUniqueScore (values : List RawValues) : K :=
  let uniqueScores := ((values.map RawValues.uniqueChuteCount).filter (· ≠ 0)).mergeSort (· ≤ ·)
  let n := uniqueScores.length
  if 0 < n then
    if n % 2 = 0 then
      ((uniqueScores.getD (n / 2 - 1) 0 : K) + (uniqueScores.getD (n / 2) 0 : K)) / 2
    else (uniqueScores.getD (n / 2) 0 : K)
  else 0

variable (pow : K → ℚ → K)

/-- The share of the highest count, to a power that is lower from the median
on. -/
def uniqueShare (highestUnique : ℕ) (median : K) (count : ℕ) : K :=
  if median ≤ count then pow ((count : K) / (highestUnique : K)) (13 / 10)
  else pow ((count : K) / (highestUnique : K)) (22 / 10)

/-- The first normalisation of a row, and the powers of the unique counts. -/
def normalizedRow (raw : Raw) (row : RawValues) : Metrics K :=
  let rows := raw.values.values
  { computeUnits := (row.computeUnits : K) / totalOf (rows.map fun r => (r.computeUnits : K))
    invocationCount :=
      (row.invocationCount : K) / totalOf (rows.map fun r => (r.invocationCount : K))
    uniqueChuteCount := uniqueShare pow raw.highestUnique (medianUniqueScore rows)
      row.uniqueChuteCount
    bountyCount := (row.bountyCount : K) / totalOf (rows.map fun r => (r.bountyCount : K)) }

/-- `normalized_values`, with the unique counts normalised again. -/
def normalizedValues (raw : Raw) : Except ScriptError (Dict String (Metrics K)) := do
  divides raw.values.items (raw.highestUnique : K)
  let normalized := raw.values.map fun _ row => normalizedRow pow raw row
  let uniqueSum := (normalized.values.map Metrics.uniqueChuteCount).sum
  let oldUniqueSum := (raw.values.values.map RawValues.uniqueChuteCount).sum
  divides normalized.items uniqueSum
  divides normalized.items (oldUniqueSum : K)
  return normalized.map fun _ metrics =>
    { metrics with uniqueChuteCount := metrics.uniqueChuteCount / uniqueSum }

/-! ## The scores -/

/-- `sorted(scores.keys(), key=lambda h: scores[h], reverse=True)`. -/
def sortedHotkeys (scores : Dict String K) : List String :=
  scores.keys.mergeSort fun a b => (scores.get? b).getD 0 ≤ (scores.get? a).getD 0

/-- One round of the loop over the sorted hotkeys: only the first hotkey of a
coldkey keeps its score. -/
def penalize (hotColdMap : Dict String String) (coldkeyCounts : Dict String ℕ)
    (preFinalScores : Dict String K) (acc : Dict String K × List String) (hotkey : String) :
    Except ScriptError (Dict String K × List String) := do
  let coldkey ← lookup hotColdMap hotkey
  if coldkey ∈ acc.2 then
    let _ ← lookup coldkeyCounts coldkey
    return (acc.1.set hotkey 0, coldkey :: acc.2)
  else
    let score ← lookup preFinalScores hotkey
    return (acc.1.set hotkey score, coldkey :: acc.2)

/-- The scores before the elimination, and the final ones. -/
structure Scoring (K : Type) where
  preFinalScores : Dict String K
  finalScores : Dict String K

/-- **`get_scoring_data`.** -/
def getScoringData (rows : ScoringRows) : Except ScriptError (Scoring K) := do
  let hotColdMap := Dict.ofList (rows.nodes.map fun (coldkey, hotkey) => (hotkey, coldkey))
  let coldkeyCounts := Dict.ofList (hotColdMap.values.map fun coldkey =>
    (coldkey, hotColdMap.values.countP (· = coldkey)))
  let normalized ← normalizedValues pow rows.raw
  let preFinalScores := normalized.map fun _ metrics => metrics.score
  let (penalizedScores, _) ← (sortedHotkeys preFinalScores).foldlM
    (penalize hotColdMap coldkeyCounts preFinalScores) (.empty, [])
  let total := penalizedScores.values.sum
  let scored := penalizedScores.filter fun e => 0 < e.2
  divides scored.items total
  let finalScores := scored.map fun _ score => score / total
  (sortedHotkeys finalScores).forM fun hotkey => do
    let _ ← lookup coldkeyCounts (← lookup hotColdMap hotkey)
  return ⟨preFinalScores, finalScores⟩

end

end Metasync

end ChutesApi
