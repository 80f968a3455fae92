import ChutesApi.Node.Model
/-!
# What the operations on the inventory do

One lemma for each operation, with what it has checked and what it leaves.
-/

namespace ChutesApi

open Python

namespace Inventory

variable {w : WordChars} {cfg : Config} {s s' : State w}

/-- **A GPU as a claim asks for it.** -/
structure Serves (node : Node w) (args : ClaimArgs) : Prop where
  miner : node.minerHotkey = args.hotkey
  verified : node.verifiedAt ≠ none
  suitable : ∃ allowed, NodeSelector.Node.allowedGpus args.selector = .ok allowed ∧
    node.args.gpuIdentifier ∈ allowed

/-- **One row, later on**: an update keeps what the miner said and does not
take a verification back. -/
structure Keeps (node node' : Node w) : Prop where
  args : node'.args = node.args
  minerHotkey : node'.minerHotkey = node.minerHotkey
  verified : node.verifiedAt ≠ none → node'.verifiedAt ≠ none

theorem Keeps.refl (node : Node w) : Keeps node node := ⟨rfl, rfl, id⟩

theorem Serves.keeps {node node' : Node w} {args : ClaimArgs} (h : Serves node args)
    (hkeeps : Keeps node node') : Serves node' args :=
  ⟨hkeeps.minerHotkey.trans h.miner, hkeeps.verified h.verified, hkeeps.args ▸ h.suitable⟩

/-! ## Posting GPUs -/

theorem new_eq_ok {hotkey : String} {serverId : Option String} {seed : ℕ}
    {verifiedAt : Option ℕ} {args : NodeArgs} {node : Node w}
    (h : Node.new w hotkey serverId seed verifiedAt args = .ok node) :
    node.args = args ∧ node.minerHotkey = hotkey ∧ node.verifiedAt = verifiedAt := by
  unfold Node.new at h
  split at h
  · cases h
  · rw [← Except.ok.inj h]
    exact ⟨rfl, rfl, rfl⟩

/-- The loop over what is posted. -/
theorem mapM_new_eq_ok {hotkey : String} {serverId : Option String} {seed : ℕ}
    {verifiedAt : Option ℕ} {posted : List NodeArgs} {nodes : List (Node w)}
    (h : posted.mapM (Node.new w hotkey serverId seed verifiedAt) = .ok nodes) :
    nodes.map Node.args = posted ∧
      ∀ node ∈ nodes, node.minerHotkey = hotkey ∧ node.verifiedAt = verifiedAt := by
  induction posted generalizing nodes with
  | nil =>
    obtain rfl := Except.ok.inj h
    exact ⟨rfl, fun node hnode => absurd hnode (by simp)⟩
  | cons args posted ih =>
    rw [List.mapM_cons, bind_eq_ok] at h
    obtain ⟨node, hnode, h⟩ := h
    rw [bind_eq_ok] at h
    obtain ⟨rest, hrest, h⟩ := h
    obtain rfl := return_eq_ok.1 h
    obtain ⟨hargs, hminer, hverified⟩ := new_eq_ok hnode
    obtain ⟨hargs', hall⟩ := ih hrest
    refine ⟨by rw [List.map_cons, hargs, hargs'], fun node' hmem => ?_⟩
    rcases List.mem_cons.1 hmem with rfl | hmem
    · exact ⟨hminer, hverified⟩
    · exact hall node' hmem

/-- **A post that is taken.** -/
structure Created (cfg : Config) (s : State w) (post : Post) (nodes : List (Node w)) : Prop where
  registered : (s.metagraph post.hotkey).isSome
  fresh : ∀ args ∈ post.req.nodes, args.uuid ∉ s.nodes.keys
  args : nodes.map Node.args = post.req.nodes
  rows : ∀ node ∈ nodes, node.minerHotkey = post.hotkey ∧
    node.verifiedAt = if cfg.skipGpuVerification then some post.now else none
  distinct : (nodes.map fun node => node.args.uuid).Nodup

/-- What the queries of a post have found. -/
theorem checkNodes_eq_ok {req : CreateRequest} {post : Post} (h : s.checkNodes req = .ok post) :
    ∃ hotkey, post = ⟨req, hotkey, s.now, s.history⟩ ∧
      hoppingNodes s.history s.now hotkey (req.nodes.map NodeArgs.uuid) = [] := by
  unfold State.checkNodes at h
  split at h
  · next hotkey hhotkey =>
    split at h
    · simp only [bind_eq_ok, ensure_eq_ok, exists_const, return_eq_ok] at h
      obtain ⟨-, -, -, hhopping, rfl⟩ := h
      exact ⟨hotkey, rfl, hhopping⟩
    · cases h
  · cases h

theorem createNodes_eq_ok {post : Post} (h : s.createNodes cfg post = .ok s') :
    ∃ nodes, Created cfg s post nodes ∧
      s' = { s with
        nodes := nodes.foldl (fun d node => d.set node.args.uuid node) s.nodes
        history := s.history ++ nodes.map (Node.entry post.now)
        queued := if cfg.skipGpuVerification then s.queued
          else s.queued ++ [post.req.nodes.map NodeArgs.uuid] } := by
  unfold State.createNodes at h
  simp only [bind_eq_ok, ensure_eq_ok, exists_const, mapError_eq_ok, return_eq_ok] at h
  obtain ⟨-, nodes, hnodes, ⟨hnodup, hfresh, hregistered⟩, rfl⟩ := h
  obtain ⟨hargs, hall⟩ := mapM_new_eq_ok hnodes
  refine ⟨nodes, ⟨hregistered, fun args hmem => ?_, hargs, hall, ?_⟩, rfl⟩
  · exact hfresh _ (List.mem_map.2 ⟨args, hmem, rfl⟩)
  · rw [← hargs, List.map_map] at hnodup
    exact hnodup

/-- **What the end of a post does**: it is refused, or its rows are in. -/
theorem create_eq_some {id : ℕ} (h : s.step cfg (.create id) = some s') :
    ∃ post, s.posts.get? id = some post ∧ (s' = { s with posts := s.posts.pop id } ∨
      ∃ nodes, Created cfg s post nodes ∧
        s' = { s with
          nodes := nodes.foldl (fun d node => d.set node.args.uuid node) s.nodes
          history := s.history ++ nodes.map (Node.entry post.now)
          posts := s.posts.pop id
          queued := if cfg.skipGpuVerification then s.queued
            else s.queued ++ [post.req.nodes.map NodeArgs.uuid] }) := by
  obtain ⟨post, hpost, rfl⟩ := Option.map_eq_some_iff.1 h
  refine ⟨post, hpost, ?_⟩
  split
  · next s'' hs'' =>
    obtain ⟨nodes, hcreated, rfl⟩ := createNodes_eq_ok hs''
    exact .inr ⟨nodes, hcreated, rfl⟩
  · exact .inl rfl

/-- And what its beginning does. -/
theorem check_eq_some {id : ℕ} {req : CreateRequest} (h : s.step cfg (.check id req) = some s') :
    ∃ hotkey, hoppingNodes s.history s.now hotkey (req.nodes.map NodeArgs.uuid) = [] ∧
      s' = { s with posts := s.posts.set id ⟨req, hotkey, s.now, s.history⟩ } := by
  obtain ⟨-, h⟩ := Option.ite_none_left_eq_some.1 h
  obtain ⟨post, hpost, rfl⟩ := Option.map_eq_some_iff.1 h
  obtain ⟨hotkey, rfl, hhopping⟩ := checkNodes_eq_ok (toOption_eq_some.1 hpost)
  exact ⟨hotkey, hhopping, rfl⟩

/-! ## Deleting GPUs -/

theorem deleteNode_eq_ok {hotkey uuid originIp : String} {seen : Option String}
    (h : s.deleteNode hotkey uuid originIp seen = .ok s') :
    ∃ node, s.nodes.get? uuid = some node ∧ node.minerHotkey = hotkey ∧
      (s.instanceNodes.get? uuid = none ∧ s' = s.removeNode node ∨
        ∃ iid, s.instanceNodes.get? uuid = some iid ∧
          s' = { s.removeNode node with
            instanceNodes := s.instanceNodes.pop uuid
            lost := (iid, uuid) :: s.lost }) := by
  unfold State.deleteNode at h
  split at h
  · next node hnode =>
    obtain ⟨hget, hminer⟩ := Option.filter_eq_some_iff.1 hnode
    simp only [bind_eq_ok, ensure_eq_ok, exists_const] at h
    obtain ⟨-, h⟩ := h
    refine ⟨node, hget, of_decide_eq_true hminer, ?_⟩
    split at h
    · next hnone => exact .inl ⟨hnone, (return_eq_ok.1 h).symm⟩
    · next iid hiid =>
      simp only [bind_eq_ok, ensure_eq_ok, exists_const, return_eq_ok] at h
      exact .inr ⟨iid, hiid, h.2.symm⟩
  · cases h

/-- What is left when a hotkey has gone. -/
theorem deregister_eq_ok {hotkey : String} (h : s.deregister hotkey = .ok s') :
    (∀ node ∈ s.nodes.values, node.minerHotkey = hotkey → node.args.uuid ∉ s.instanceNodes.keys) ∧
      s' = { (s.nodes.values.filter (·.minerHotkey = hotkey)).foldl State.removeNode s with
        metagraph := Function.update s.metagraph hotkey none } := by
  unfold State.deregister at h
  simp only [bind_eq_ok, ensure_eq_ok, exists_const, return_eq_ok] at h
  obtain ⟨hfree, rfl⟩ := h
  refine ⟨fun node hmem hminer => hfree node ?_, rfl⟩
  simpa using ⟨hmem, hminer⟩

/-! ## Claiming GPUs -/

theorem begin_eq_ok {args : ClaimArgs} {c : Claim w} (h : args.begin = .ok c) :
    args.selector.gpuCount = some args.nodeIds.length ∧ c = ⟨args, args.nodeIds, none, []⟩ := by
  unfold ClaimArgs.begin at h
  simp only [bind_eq_ok, ensure_eq_ok, exists_const, return_eq_ok] at h
  exact ⟨h.1, h.2.symm⟩

/-- **What the check of one GPU has seen.** -/
theorem validateNode_eq_ok {args : ClaimArgs} {nodeId : String} {node : Node w}
    (h : s.validateNode args nodeId = .ok node) :
    s.nodes.get? nodeId = some node ∧ s.instanceNodes.get? nodeId = none ∧ Serves node args := by
  unfold State.validateNode at h
  split at h
  · next found hfound =>
    obtain ⟨hget, hminer⟩ := Option.filter_eq_some_iff.1 hfound
    simp only [bind_eq_ok, ensure_eq_ok, exists_const] at h
    obtain ⟨hverified, h⟩ := h
    split at h
    · cases h
    · next hnone =>
      simp only [bind_eq_ok, ensure_eq_ok, exists_const, return_eq_ok] at h
      obtain ⟨suitable, hsuitable, hyes, rfl⟩ := h
      refine ⟨hget, hnone, of_decide_eq_true hminer, hverified, ?_⟩
      unfold NodeSelector.Node.isSuitable at hsuitable
      rw [if_neg hverified, bind_eq_ok] at hsuitable
      obtain ⟨allowed, hallowed, hin⟩ := hsuitable
      rw [← return_eq_ok.1 hin] at hyes
      exact ⟨allowed, hallowed, of_decide_eq_true hyes⟩
  · cases h

theorem insertNode_eq_ok {c c' : Claim w} {node : Node w} (h : s.insertNode c node = .ok c') :
    node.args.uuid ∈ s.nodes.keys ∧ node.args.uuid ∉ s.instanceNodes.keys ∧
      c' = { c with loaded := none, nodes := c.nodes ++ [node] } := by
  unfold State.insertNode at h
  simp only [bind_eq_ok, ensure_eq_ok, exists_const, return_eq_ok] at h
  exact ⟨h.1.1, h.1.2, h.2.symm⟩

/-- The GPUs are on one host, which is that of the instance. -/
theorem checkHosts_eq_ok {c : Claim w} (h : c.checkHosts = .ok ()) :
    ∀ node ∈ c.nodes, lower node.args.verificationHost = lower c.args.host := by
  intro node hmem
  have hin : node.args.verificationHost ∈
      (c.nodes.map fun node => node.args.verificationHost).dedup :=
    List.mem_dedup.2 (List.mem_map.2 ⟨node, hmem, rfl⟩)
  unfold Claim.checkHosts at h
  split at h
  · cases h
  · next host hhost =>
    rw [hhost, List.mem_singleton] at hin
    rw [hin]
    exact ensure_eq_ok.1 h
  · cases h

/-! ## The rows of `nodes` -/

/-- **A challenge that ends updates rows**, and it is recorded if all is met. -/
theorem finish_nodes (cfg : Config) (task : Task w) (challenge : Challenge) (message : String)
    (newSeed : ℕ)
    (uuid : String) (node : Node w) (h : s.nodes.get? uuid = some node) :
    ∃ node', (s.finish cfg task challenge message newSeed).nodes.get? uuid = some node' ∧
      Keeps node node' := by
  unfold State.finish State.updateNodes
  split_ifs <;>
  · simp only [Dict.get?_map, h, Option.map_some, Option.some.injEq, exists_eq_left']
    split
    · first
      | exact ⟨rfl, rfl, id⟩
      | exact ⟨rfl, rfl, fun _ => Option.some_ne_none _⟩
    · exact .refl node

theorem removeNode_get? (node : Node w) (uuid : String) :
    (s.removeNode node).nodes.get? uuid =
      if uuid = node.args.uuid then none else s.nodes.get? uuid :=
  Dict.get?_pop

/-- The rows that are left when some are removed. -/
theorem foldl_removeNode_get? (gone : List (Node w)) (uuid : String) :
    (gone.foldl State.removeNode s).nodes.get? uuid =
      if ∃ node ∈ gone, node.args.uuid = uuid then none else s.nodes.get? uuid := by
  induction gone generalizing s with
  | nil => simp
  | cons node gone ih =>
    rw [List.foldl_cons, ih, removeNode_get?]
    by_cases hgone : ∃ node ∈ gone, node.args.uuid = uuid
    · rw [if_pos hgone, if_pos]
      obtain ⟨node', hmem, heq⟩ := hgone
      exact ⟨node', List.mem_cons_of_mem _ hmem, heq⟩
    · rw [if_neg hgone]
      by_cases heq : uuid = node.args.uuid
      · rw [if_pos heq, if_pos ⟨node, List.mem_cons_self, heq.symm⟩]
      · rw [if_neg heq, if_neg]
        rintro ⟨node', hmem, heq'⟩
        rcases List.mem_cons.1 hmem with rfl | hmem
        · exact heq heq'.symm
        · exact hgone ⟨node', hmem, heq'⟩

/-- Removing rows touches the rows and their history only. -/
theorem foldl_removeNode_frame (gone : List (Node w)) :
    ∃ nodes history, gone.foldl State.removeNode s =
      { s with nodes := nodes, history := history } := by
  induction gone generalizing s with
  | nil => exact ⟨s.nodes, s.history, rfl⟩
  | cons node gone ih =>
    obtain ⟨nodes, history, h⟩ := ih (s := s.removeNode node)
    exact ⟨nodes, history, h⟩

end Inventory

end ChutesApi
