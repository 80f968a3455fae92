import ChutesApi.Metasync.Model
import Mathlib.Algebra.GroupWithZero.Nat
import Mathlib.Data.List.Perm.Basic
import Mathlib.Data.List.Range
import Mathlib.Data.Int.Order.Basic
/-!
# Which miner each weight reaches

The weights are placed by node id in a list that is read in the order in
which the nodes are listed. `delivers_iff` says when the two orders give
every miner its own score.
-/

namespace ChutesApi

namespace Metasync

open Python

variable {ι R : Type}

/-! ## The nodes of a metagraph -/

namespace Metagraph

variable {netuid : ℤ} {node node' : Node ι} (m : Metagraph ι netuid)

theorem nodup_ids : (m.nodes.map Node.nodeId).Nodup :=
  m.ids.nodup_iff.2 (List.nodup_range.map fun _ _ h => Int.ofNat.inj h)

/-- An id belongs to one node. -/
theorem eq_of_nodeId (h : node ∈ m.nodes) (h' : node' ∈ m.nodes)
    (hid : node.nodeId = node'.nodeId) : node = node' :=
  List.inj_on_of_nodup_map m.nodup_ids h h' hid

/-- The ids are the positions of the list. -/
theorem exists_nodeId (h : node ∈ m.nodes) : ∃ i : ℕ, node.nodeId = i ∧ i < m.nodes.length := by
  have hmem := m.ids.mem_iff.1 (List.mem_map_of_mem h)
  obtain ⟨i, hi, hid⟩ := List.mem_map.1 hmem
  exact ⟨i, hid.symm, List.mem_range.1 hi⟩

/-- Every position is the id of a node. -/
theorem exists_node {i : ℕ} (h : i < m.nodes.length) : ∃ node ∈ m.nodes, node.nodeId = i := by
  have hmem : (i : ℤ) ∈ m.nodes.map Node.nodeId :=
    m.ids.mem_iff.2 (List.mem_map_of_mem (List.mem_range.2 h))
  simpa using hmem

/-- The dictionary from hotkeys to node ids. -/
theorem get?_hotkeys {hotkey : String} {id : ℤ} :
    (Dict.ofList (m.nodes.map fun node => (node.hotkey, node.nodeId))).get? hotkey = some id ↔
      ∃ node ∈ m.nodes, node.hotkey = hotkey ∧ node.nodeId = id := by
  rw [Dict.get?_ofList (by simpa [List.map_map, Function.comp_def] using m.hotkeys)]
  simp

end Metagraph

/-! ## Placing the weights -/

theorem setItem_natCast {l : List R} {i : ℕ} (h : i < l.length) (a : R) :
    setItem l i a = .ok (l.set i a) := by
  have hi : ¬(i : ℤ) < 0 := by omega
  have hlt : 0 ≤ (i : ℤ) ∧ (i : ℤ) < l.length := by omega
  simp only [setItem, if_neg hi, if_pos hlt, Int.toNat_natCast]

/-- **The loop over the scored nodes** puts each weight at its id and leaves
the other places as they were. -/
theorem exists_foldlM_setItem {ps : List (ℤ × R)} {l : List R}
    (hids : ∀ p ∈ ps, ∃ i : ℕ, p.1 = i ∧ i < l.length) (hnd : (ps.map Prod.fst).Nodup) :
    ∃ l', ps.foldlM (fun weights node => setItem weights node.1 node.2) l = .ok l' ∧
      (∀ (i : ℕ) a, ((i : ℤ), a) ∈ ps → l'[i]? = some a) ∧
      ∀ i : ℕ, (i : ℤ) ∉ ps.map Prod.fst → l'[i]? = l[i]? := by
  induction ps generalizing l with
  | nil => exact ⟨l, rfl, by simp, by simp⟩
  | cons p ps ih =>
    obtain ⟨i, hi, hlt⟩ := hids p (by simp)
    rw [List.map_cons, List.nodup_cons] at hnd
    obtain ⟨l', hl', hat, hout⟩ := ih (l := l.set i p.2)
      (fun q hq => by simpa using hids q (List.mem_cons_of_mem p hq)) hnd.2
    refine ⟨l', ?_, fun j a hj => ?_, fun j hj => ?_⟩
    · rw [List.foldlM_cons, hi, setItem_natCast hlt]
      exact hl'
    · rcases List.mem_cons.1 hj with rfl | hj
      · -- No later weight goes to the same place.
        obtain rfl : j = i := Int.ofNat.inj hi
        rw [hout j hnd.1, List.getElem?_set_self hlt]
      · exact hat j a hj
    · rw [List.map_cons, List.mem_cons, not_or] at hj
      rw [hout j hj.2, List.getElem?_set_ne fun h => hj.1 (by rw [hi, h])]

/-! ## What is passed to the chain -/

variable [Zero R] {finalScores : Dict String R}

/-- A miner's score, zero where it has none. -/
def scoreOf (finalScores : Dict String R) (hotkey : String) : R := (finalScores.get? hotkey).getD 0

/-- **The weights reach the right miner**: the pairs formed position by
position give every miner's node id that miner's score, and no other
weight. -/
def Delivers (nodes : List (Node ι)) (finalScores : Dict String R)
    (call : Option (List ℤ × List R)) : Prop :=
  ∀ c ∈ call, ∀ node ∈ nodes, ∀ weight,
    (node.nodeId, weight) ∈ c.1.zip c.2 ↔ weight = scoreOf finalScores node.hotkey

/-- The node listed at a place has the score of the node whose id is that
place. -/
def ListedInPlace (nodes : List (Node ι)) (finalScores : Dict String R) : Prop :=
  ∀ (i : ℕ) listed owner, nodes[i]? = some listed → owner ∈ nodes → owner.nodeId = i →
    scoreOf finalScores listed.hotkey = scoreOf finalScores owner.hotkey

section

variable {hotkeysToNodeIds : Dict String ℤ}

omit [Zero R] in
/-- What `_get_weights_to_set` collects, as pairs. -/
theorem mem_getWeightsToSet {p : ℤ × R} :
    p ∈ (getWeightsToSet hotkeysToNodeIds finalScores).1.zip
        (getWeightsToSet hotkeysToNodeIds finalScores).2 ↔
      ∃ hotkey, finalScores.get? hotkey = some p.2 ∧ hotkeysToNodeIds.get? hotkey = some p.1 := by
  rw [getWeightsToSet, List.zip_unzip, List.mem_filterMap]
  constructor
  · rintro ⟨⟨hotkey, score⟩, he, h⟩
    obtain ⟨id, hid, rfl⟩ := Option.map_eq_some_iff.1 h
    exact ⟨hotkey, Dict.get?_eq_some.2 he, hid⟩
  · rintro ⟨hotkey, hs, hid⟩
    exact ⟨(hotkey, p.2), Dict.get?_eq_some.1 hs, by simp [hid]⟩

omit [Zero R] in
theorem map_fst_getWeightsToSet :
    ((getWeightsToSet hotkeysToNodeIds finalScores).1.zip
        (getWeightsToSet hotkeysToNodeIds finalScores).2).map Prod.fst =
      finalScores.keys.filterMap hotkeysToNodeIds.get? := by
  rw [getWeightsToSet, List.zip_unzip, Dict.keys, List.filterMap_map, List.map_filterMap]
  simp [Function.comp_def]

end

variable (m : Metagraph ι netuid)

/-- `hotkeys_to_node_ids`. -/
def hotkeysToNodeIds : Dict String ℤ :=
  Dict.ofList (m.nodes.map fun node => (node.hotkey, node.nodeId))

/-- The scored nodes of the metagraph, as the loop that places the weights
goes through them. -/
def weighed (finalScores : Dict String R) : List (ℤ × R) :=
  (getWeightsToSet (hotkeysToNodeIds m) finalScores).1.zip
    (getWeightsToSet (hotkeysToNodeIds m) finalScores).2

omit [Zero R] in
theorem mem_weighed {id : ℤ} {weight : R} : (id, weight) ∈ weighed m finalScores ↔
    ∃ node ∈ m.nodes, finalScores.get? node.hotkey = some weight ∧ node.nodeId = id := by
  rw [weighed, mem_getWeightsToSet]
  constructor
  · rintro ⟨hotkey, hs, hget⟩
    obtain ⟨node, hnode, rfl, hid⟩ := m.get?_hotkeys.1 hget
    exact ⟨node, hnode, hs, hid⟩
  · rintro ⟨node, hnode, hs, hid⟩
    exact ⟨node.hotkey, hs, m.get?_hotkeys.2 ⟨node, hnode, rfl, hid⟩⟩

omit [Zero R] in
/-- Two hotkeys of a metagraph never share an id, so no weight is placed
twice. -/
theorem nodup_weighed (finalScores : Dict String R) :
    ((weighed m finalScores).map Prod.fst).Nodup := by
  rw [weighed, map_fst_getWeightsToSet]
  refine finalScores.nodup_keys.filterMap fun a b id ha hb => ?_
  rw [Option.mem_def, hotkeysToNodeIds, m.get?_hotkeys] at ha hb
  obtain ⟨node, hnode, rfl, hid⟩ := ha
  obtain ⟨node', hnode', rfl, hid'⟩ := hb
  rw [m.eq_of_nodeId hnode hnode' (hid.trans hid'.symm)]

/-- **The placed weights**: each score stands at the place of its miner's
node id. -/
theorem exists_weights (finalScores : Dict String R) :
    ∃ weights, (weighed m finalScores).foldlM
        (fun weights node => setItem weights node.1 node.2) (m.nodes.map fun _ => (0 : R)) =
          .ok weights ∧
      ∀ node ∈ m.nodes, ∀ i : ℕ, node.nodeId = i →
        weights[i]? = some (scoreOf finalScores node.hotkey) := by
  have hrange : ∀ p ∈ weighed m finalScores,
      ∃ i : ℕ, p.1 = i ∧ i < (m.nodes.map fun _ => (0 : R)).length := by
    intro p hp
    obtain ⟨node, hnode, -, hid⟩ := (mem_weighed m).1 hp
    rw [List.length_map, ← hid]
    exact m.exists_nodeId hnode
  obtain ⟨weights, hw, hat, hout⟩ :=
    exists_foldlM_setItem hrange (nodup_weighed m finalScores)
  refine ⟨weights, hw, fun node hnode i hi => ?_⟩
  rcases hs : finalScores.get? node.hotkey with _ | score
  · -- A miner without a score keeps the zero the list starts with.
    have hnot : (i : ℤ) ∉ (weighed m finalScores).map Prod.fst := by
      intro hin
      obtain ⟨⟨id, weight⟩, hp, rfl⟩ := List.mem_map.1 hin
      obtain ⟨node', hnode', hs', hid'⟩ := (mem_weighed m).1 hp
      rw [m.eq_of_nodeId hnode' hnode (hid'.trans hi.symm), hs] at hs'
      cases hs'
    obtain ⟨j, hj, hlt⟩ := m.exists_nodeId hnode
    obtain rfl : i = j := Int.ofNat.inj (hi.symm.trans hj)
    rw [scoreOf, hs, hout i hnot]
    simp [hlt]
  · rw [scoreOf, hs]
    exact hat i score ((mem_weighed m).2 ⟨node, hnode, hs, hi⟩)

/-- Without a scored node there is no score to deliver. -/
theorem scoreOf_of_weighed_nil (h : weighed m finalScores = []) {node : Node ι}
    (hnode : node ∈ m.nodes) : scoreOf finalScores node.hotkey = 0 := by
  rcases hs : finalScores.get? node.hotkey with _ | score
  · rw [scoreOf, hs, Option.getD_none]
  · have hp := (mem_weighed m).2 ⟨node, hnode, hs, rfl⟩
    rw [h] at hp
    cases hp

/-- **The call**: the ids as they are listed and the weights as they are
placed, unless no scored hotkey is on the metagraph. -/
theorem exists_call (validatorSs58 : String) (validatorNodeId : ℤ) (finalScores : Dict String R) :
    ∃ call, getAndSetWeights validatorSs58 (some validatorNodeId) m.nodes finalScores = .ok call ∧
      (call = none ∧ (∀ node ∈ m.nodes, scoreOf finalScores node.hotkey = 0) ∨
        ∃ weights, call = some (m.nodes.map Node.nodeId, weights) ∧
          ∀ node ∈ m.nodes, ∀ i : ℕ, node.nodeId = i →
            weights[i]? = some (scoreOf finalScores node.hotkey)) := by
  obtain ⟨weights, hw, hat⟩ := exists_weights m finalScores
  unfold weighed hotkeysToNodeIds at hw
  by_cases hempty : (getWeightsToSet (hotkeysToNodeIds m) finalScores).1.length = 0
  · have hnil : weighed m finalScores = [] := by
      rw [weighed, List.length_eq_zero_iff.1 hempty, List.zip_nil_left]
    refine ⟨none, ?_, .inl ⟨rfl, fun node hnode => scoreOf_of_weighed_nil m hnil hnode⟩⟩
    unfold hotkeysToNodeIds at hempty
    simp [getAndSetWeights, hempty, pure, Except.pure]
  · refine ⟨some (m.nodes.map Node.nodeId, weights), ?_, .inr ⟨weights, rfl, hat⟩⟩
    unfold hotkeysToNodeIds at hempty
    simp only [List.map_const'] at hw
    simp [getAndSetWeights, hempty, hw, pure, Except.pure, bind, Except.bind]

omit [Zero R] in
/-- What stands beside a node's id is what stands at the place it is listed
at. -/
theorem mem_zip_ids {weights : List R} {i : ℕ} {listed : Node ι}
    (h : m.nodes[i]? = some listed) {weight : R} :
    (listed.nodeId, weight) ∈ (m.nodes.map Node.nodeId).zip weights ↔
      weights[i]? = some weight := by
  have hlt : i < m.nodes.length := (List.getElem?_eq_some_iff.1 h).1
  have hiff : (listed.nodeId, weight) ∈ (m.nodes.map Node.nodeId).zip weights ↔
      ∃ j : ℕ, (m.nodes.map Node.nodeId)[j]? = some listed.nodeId ∧ weights[j]? = some weight := by
    rw [List.mem_iff_getElem?]
    exact exists_congr fun j => by rw [List.getElem?_zip_eq_some]
  rw [hiff]
  constructor
  · rintro ⟨j, hj, hwj⟩
    rw [List.getElem?_map, Option.map_eq_some_iff] at hj
    obtain ⟨node, hnode, hid⟩ := hj
    obtain rfl : node = listed :=
      m.eq_of_nodeId (List.mem_of_getElem? hnode) (List.mem_of_getElem? h) hid
    have hnd : m.nodes.Nodup := m.nodup_ids.of_map
    rwa [(List.getElem?_inj hlt hnd).1 (h.trans hnode.symm)]
  · intro hwi
    exact ⟨i, by rw [List.getElem?_map, h, Option.map_some], hwi⟩

/-- **Every miner gets its own weight exactly when the node listed at each
place scores what the node with that id scores.** -/
theorem delivers_iff (validatorSs58 : String) (validatorNodeId : ℤ) (m : Metagraph ι netuid)
    (finalScores : Dict String R) :
    ∃ call, getAndSetWeights validatorSs58 (some validatorNodeId) m.nodes finalScores = .ok call ∧
      (Delivers m.nodes finalScores call ↔ ListedInPlace m.nodes finalScores) := by
  obtain ⟨call, hcall, hcases⟩ := exists_call m validatorSs58 validatorNodeId finalScores
  refine ⟨call, hcall, ?_⟩
  rcases hcases with ⟨rfl, hzero⟩ | ⟨weights, rfl, hat⟩
  · -- Nothing is passed, and nothing has a score.
    refine iff_of_true (by simp [Delivers]) fun i listed owner hi howner _ => ?_
    rw [hzero _ (List.mem_of_getElem? hi), hzero _ howner]
  · constructor
    · intro h i listed owner hi howner hid
      have hpair := (mem_zip_ids m hi).2 (hat owner howner i hid)
      exact ((h _ rfl listed (List.mem_of_getElem? hi) _).1 hpair).symm
    · rintro h _ ⟨⟩ node hnode weight
      obtain ⟨i, hi⟩ := List.mem_iff_getElem?.1 hnode
      obtain ⟨owner, howner, hid⟩ := m.exists_node (List.getElem?_eq_some_iff.1 hi).1
      rw [mem_zip_ids m hi, hat owner howner i hid, h i node owner hi howner hid,
        Option.some.injEq, eq_comm]

/-- A metagraph listed in the order of its ids. -/
theorem listedInPlace_of_ids
    (h : m.nodes.map Node.nodeId = (List.range m.nodes.length).map Nat.cast)
    (finalScores : Dict String R) : ListedInPlace m.nodes finalScores := by
  intro i listed owner hi howner hid
  have hlisted : listed.nodeId = i := by
    have := congrArg (·[i]?) h
    simpa [hi, List.getElem?_range (List.getElem?_eq_some_iff.1 hi).1] using this
  rw [m.eq_of_nodeId (List.mem_of_getElem? hi) howner (hlisted.trans hid.symm)]

/-- Two nodes, the one with id 1 listed first. -/
def swapped : Metagraph Unit netuid where
  nodes := [⟨"5A", "cold", 1, netuid, ()⟩, ⟨"5B", "cold", 0, netuid, ()⟩]
  netuids := by decide
  hotkeys := by decide
  ids := by decide

/-- **Weights do not always reach the right miner**: of two nodes listed
against the order of their ids, the scored one's weight goes to the other. -/
theorem not_delivers : ¬ ∀ (m : Metagraph Unit netuid) (finalScores : Dict String ℕ) call,
    getAndSetWeights "5V" (some 0) m.nodes finalScores = .ok call →
      Delivers m.nodes finalScores call := by
  intro h
  have hd := h swapped (.ofList [("5A", 1)]) (some ([1, 0], [0, 1])) (by decide)
  have := hd _ rfl ⟨"5A", "cold", 1, netuid, ()⟩ (by decide) 1
  revert this
  decide

end Metasync

end ChutesApi
