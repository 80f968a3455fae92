import ChutesApi.Common.Dict
import ChutesApi.Common.Lts
import ChutesApi.Python.Exc
import Mathlib.Data.Int.Notation
/-!
# The metagraph, synced and weighted

One script copies the metagraphs of two subnets into the table
`metagraph_nodes`, keyed by hotkey; another turns the scores of the miners
into the two lists that are set as weights on the chain.
-/

namespace ChutesApi

namespace Metasync

open Python

variable {ι χ R : Type}

/-- A node of a subnet, without `last_updated`. `info` stands for the
fields that are stored and hashed but that nothing here reads. -/
structure Node (ι : Type) where
  hotkey : String
  coldkey : String
  nodeId : ℤ
  netuid : ℤ
  info : ι
  deriving DecidableEq

/-- **What `get_nodes_for_netuid` returns**: nodes that name the subnet they
were asked for. -/
structure Fetched (ι : Type) (netuid : ℤ) where
  nodes : List (Node ι)
  netuids : ∀ node ∈ nodes, node.netuid = netuid

/-- **A metagraph**: one node for each hotkey, and the ids `0, …, n - 1`
each given once, listed in any order. -/
structure Metagraph (ι : Type) (netuid : ℤ) extends Fetched ι netuid where
  hotkeys : (nodes.map Node.hotkey).Nodup
  ids : (nodes.map Node.nodeId).Perm ((List.range nodes.length).map Nat.cast)

/-! ## `set_weights_on_metagraph.py` -/

/-- `settings.netuid`. -/
def netuid : ℤ := 64

/-- `l[i] = a`, where a negative index counts from the end. -/
def setItem (l : List R) (i : ℤ) (a : R) : Except ScriptError (List R) :=
  let j := if i < 0 then i + l.length else i
  if 0 ≤ j ∧ j < l.length then .ok (l.set j.toNat a) else .error .indexError

/-- The loop of `_get_weights_to_set`: the scores of the hotkeys that are on
the metagraph, with their node ids. -/
def getWeightsToSet (hotkeysToNodeIds : Dict String ℤ) (finalScores : Dict String R) :
    List ℤ × List R :=
  (finalScores.items.filterMap fun e =>
    (hotkeysToNodeIds.get? e.1).map fun nodeId => (nodeId, e.2)).unzip

/-- **`_get_and_set_weights`**, up to the call of `set_node_weights`: the
`node_ids` and `node_weights` it passes, if it gets there. -/
def getAndSetWeights [Zero R] (validatorSs58 : String) (validatorNodeId : Option ℤ)
    (allNodes : List (Node ι)) (finalScores : Dict String R) :
    Except ScriptError (Option (List ℤ × List R)) := do
  if validatorNodeId.isNone then
    throw (.valueError ("Validator node id not found on the metagraph" ++
      s!", are you sure hotkey {validatorSs58} is registered on subnet {netuid}?"))
  let hotkeysToNodeIds := Dict.ofList (allNodes.map fun node => (node.hotkey, node.nodeId))
  let (nodeIds, nodeWeights) := getWeightsToSet hotkeysToNodeIds finalScores
  if nodeIds.length = 0 then
    return none
  let allNodeIds := allNodes.map Node.nodeId
  let allNodeWeights ← (nodeIds.zip nodeWeights).foldlM
    (fun weights node => setItem weights node.1 node.2) (allNodes.map fun _ => 0)
  return some (allNodeIds, allNodeWeights)

/-! ## `sync_metagraph.py` -/

/-- The other subnet that is synced. -/
def affineNetuid : ℤ := 120

/-- A row of `metagraph_nodes`. -/
structure MetagraphNode (ι χ : Type) extends Node ι where
  checksum : χ
  deriving DecidableEq

/-- `metagraph_nodes`, by its primary key. -/
abbrev Table (ι χ : Type) := Dict String (MetagraphNode ι χ)

/-- `DELETE FROM metagraph_nodes WHERE netuid = :netuid AND hotkey NOT IN (…)
AND node_id >= 0`. -/
def deleteMissing (netuid : ℤ) (nodes : List (Node ι)) (table : Table ι χ) : Table ι χ :=
  table.filter fun e =>
    !decide (e.2.netuid = netuid ∧ e.1 ∉ nodes.map Node.hotkey ∧ 0 ≤ e.2.nodeId)

/-- `INSERT … ON CONFLICT (hotkey) DO UPDATE … WHERE checksum != …`, with
whether a row was written. -/
def upsert [DecidableEq χ] (row : MetagraphNode ι χ) (table : Table ι χ) : Table ι χ × Bool :=
  match table.get? row.hotkey with
  | none => (table.set row.hotkey row, true)
  | some old =>
    if old.checksum ≠ row.checksum then (table.set row.hotkey row, true) else (table, false)

/-- One round of the loop over the nodes: the table, and the rows published
as `metagraph_change`. -/
def syncNode [DecidableEq χ] (checksum : Node ι → χ)
    (acc : Table ι χ × List (MetagraphNode ι χ)) (node : Node ι) :
    Table ι χ × List (MetagraphNode ι χ) :=
  let row : MetagraphNode ι χ := ⟨node, checksum node⟩
  let (table, written) := upsert row acc.1
  (table, if written then acc.2 ++ [row] else acc.2)

/-- **`sync_and_save_metagraph`**, as one transaction: the table it commits
and what it has published. -/
def syncAndSaveMetagraph [DecidableEq χ] (checksum : Node ι → χ) (netuid : ℤ)
    (fetched : Except ScriptError (List (Node ι))) (table : Table ι χ) :
    Except ScriptError (Table ι χ × List (MetagraphNode ι χ)) := do
  let nodes ← fetched
  if nodes.isEmpty then
    throw (.exception "Failed to load metagraph nodes!")
  return nodes.foldl (syncNode checksum) (deleteMissing netuid nodes table, [])

/-- What the two loads of a pass give; a load that is late raises. -/
structure Pass (ι : Type) where
  own : Except ScriptError (Fetched ι netuid)
  affine : Except ScriptError (Fetched ι affineNetuid)

/-- **`main`**: the table it leaves, and what it raised. The first sync stays
committed when the second one raises. -/
def main [DecidableEq χ] (checksum : Node ι → χ) (pass : Pass ι) (table : Table ι χ) :
    Table ι χ × Option ScriptError :=
  match syncAndSaveMetagraph checksum netuid (pass.own.map Fetched.nodes) table with
  | .error e => (table, some e)
  | .ok (table, _) =>
    match syncAndSaveMetagraph checksum affineNetuid (pass.affine.map Fetched.nodes) table with
    | .error e => (table, some e)
    | .ok (table, _) => (table, none)

end Metasync

end ChutesApi
