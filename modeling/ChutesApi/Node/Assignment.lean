import ChutesApi.Node.Operations
/-!
# Which GPUs an instance has

A claim that commits has inserted every GPU it was made with, and holds
them until its instance is deleted or they are: a GPU is of one instance at
most, and an instance has the GPUs it claimed but for those that a miner has
deleted from under it (`exclusive`). This needs no care of the claims: the
column's uniqueness and the row locks are enough.

What the claim has checked of a GPU is another matter. The check reads the
row and the insertion only asks that there is one, so that a GPU which is
deleted and posted anew in between is taken unchecked. In the runs without
such a deletion an instance's GPUs are verified, suitable, of its miner and
on its host (`serves`).
-/

namespace ChutesApi

open Python

namespace Inventory

variable {w : WordChars} {cfg : Config} {s s' : State w}

/-- The GPUs that a claim has inserted. -/
def Claim.uuids (c : Claim w) : List String := c.nodes.map fun node => node.args.uuid

/-- The ids that have been an instance's. -/
def State.usedIds (s : State w) : List String := s.instanceNodeHistory.map (·.1)

theorem isHeld_iff {uuid : String} :
    s.isHeld uuid ↔ ∃ iid c, s.claims.get? iid = some c ∧ uuid ∈ c.uuids := by
  unfold State.isHeld Claim.uuids
  simp only [List.any_eq_true, Dict.mem_values, List.mem_map, decide_eq_true_eq]
  constructor
  · rintro ⟨c, ⟨iid, hc⟩, hnode⟩
    exact ⟨iid, c, hc, hnode⟩
  · rintro ⟨iid, c, hc, hnode⟩
    exact ⟨c, ⟨iid, hc⟩, hnode⟩

/-- **A claim under way**: its GPUs are inserted, loaded or to come, and what
it has inserted is there, in no instance and in no other claim. -/
structure Open (s : State w) (iid : String) (c : Claim w) : Prop where
  new : iid ∉ s.instances.keys
  unused : iid ∉ s.usedIds
  count : c.args.selector.gpuCount = some c.args.nodeIds.length
  ids : c.args.nodeIds = c.uuids ++ (c.loaded.toList.map fun node => node.args.uuid) ++ c.todo
  there : ∀ uuid ∈ c.uuids, uuid ∈ s.nodes.keys
  free : ∀ uuid ∈ c.uuids, uuid ∉ s.instanceNodes.keys
  own : ∀ iid' c', s.claims.get? iid' = some c' → ∀ uuid ∈ c.uuids, uuid ∈ c'.uuids → iid' = iid

/-- **The invariant of the tables.** -/
structure Inv (s : State w) : Prop where
  key : ∀ uuid node, s.nodes.get? uuid = some node → node.args.uuid = uuid
  assigned : ∀ uuid iid, s.instanceNodes.get? uuid = some iid →
    uuid ∈ s.nodes.keys ∧ ∃ args, s.instances.get? iid = some args ∧ uuid ∈ args.nodeIds
  whole : ∀ iid args, s.instances.get? iid = some args → ∀ uuid ∈ args.nodeIds,
    s.instanceNodes.get? uuid = some iid ↔ (iid, uuid) ∉ s.lost
  count : ∀ iid args, s.instances.get? iid = some args →
    args.selector.gpuCount = some args.nodeIds.length
  used : ∀ iid ∈ s.instances.keys, iid ∈ s.usedIds
  lost : ∀ e ∈ s.lost, e.1 ∈ s.usedIds
  claims : ∀ iid c, s.claims.get? iid = some c → Open s iid c

theorem inv_initial : Inv (initial w) where
  key _ _ h := by cases h
  assigned _ _ h := by cases h
  whole _ _ h := by cases h
  count _ _ h := by cases h
  used _ h := absurd h (by simp [initial])
  lost _ h := absurd h (by simp [initial])
  claims _ _ h := by cases h

/-! ## What leaves the instances alone -/

/-- **The rows of `nodes` may change**, but for those in use. -/
theorem Inv.frame (h : Inv s)
    (htables : s'.instances = s.instances ∧ s'.claims = s.claims ∧
      s'.instanceNodes = s.instanceNodes ∧ s'.instanceNodeHistory = s.instanceNodeHistory ∧
      s'.lost = s.lost)
    (hkey : ∀ uuid node, s'.nodes.get? uuid = some node → node.args.uuid = uuid)
    (hkeep : ∀ uuid ∈ s.nodes.keys, uuid ∈ s.instanceNodes.keys ∨ s.isHeld uuid →
      uuid ∈ s'.nodes.keys) : Inv s' := by
  obtain ⟨hinstances, hclaims, hnodes, hhistory, hlost⟩ := htables
  have husedIds : s'.usedIds = s.usedIds := by rw [State.usedIds, hhistory, State.usedIds]
  refine ⟨hkey, fun uuid iid hiid => ?_, ?_, ?_, ?_, ?_, fun iid c hc => ?_⟩
  · rw [hnodes] at hiid
    obtain ⟨hthere, hargs⟩ := h.assigned uuid iid hiid
    rw [hinstances]
    exact ⟨hkeep uuid hthere (.inl (Dict.mem_keys.2 ⟨iid, hiid⟩)), hargs⟩
  · rw [hinstances, hnodes, hlost]
    exact h.whole
  · rw [hinstances]
    exact h.count
  · rw [hinstances, husedIds]
    exact h.used
  · rw [hlost, husedIds]
    exact h.lost
  · rw [hclaims] at hc
    have hopen := h.claims iid c hc
    refine ⟨hinstances ▸ hopen.new, husedIds ▸ hopen.unused, hopen.count, hopen.ids,
      fun uuid hu => hkeep uuid (hopen.there uuid hu) (.inr (isHeld_iff.2 ⟨iid, c, hc, hu⟩)),
      hnodes ▸ hopen.free, hclaims ▸ hopen.own⟩

/-- The keys of the rows of a post. -/
theorem Created.get? {post : Post} {nodes : List (Node w)} (h : Created cfg s post nodes)
    (uuid : String) :
    (nodes.foldl (fun d node => d.set node.args.uuid node) s.nodes).get? uuid =
      (nodes.find? fun node => node.args.uuid = uuid).or (s.nodes.get? uuid) := by
  rw [Dict.get?_foldl_set h.distinct, Option.map_id']

/-- A row that is there is not touched by a post. -/
theorem Created.get?_of_some {post : Post} {nodes : List (Node w)} (h : Created cfg s post nodes)
    {uuid : String} {node : Node w} (hnode : s.nodes.get? uuid = some node) :
    (nodes.foldl (fun d node => d.set node.args.uuid node) s.nodes).get? uuid = some node := by
  rw [h.get?, List.find?_eq_none.2, hnode]
  · rfl
  · intro new hmem heq
    have hargs : new.args ∈ post.req.nodes := h.args ▸ List.mem_map.2 ⟨new, hmem, rfl⟩
    exact h.fresh _ hargs (of_decide_eq_true heq ▸ Dict.mem_keys.2 ⟨node, hnode⟩)

theorem Inv.create {id : ℕ} (h : Inv s) (hs : s.step cfg (.create id) = some s') : Inv s' := by
  obtain ⟨post, -, rfl | ⟨nodes, hcreated, rfl⟩⟩ := create_eq_some hs
  · exact h.frame ⟨rfl, rfl, rfl, rfl, rfl⟩ h.key fun _ hu _ => hu
  · refine h.frame ⟨rfl, rfl, rfl, rfl, rfl⟩ (fun uuid node hnode => ?_) fun uuid huuid _ => ?_
    · rw [hcreated.get?] at hnode
      rcases Option.or_eq_some_iff.1 hnode with hfound | ⟨-, hold⟩
      · simpa using List.find?_some hfound
      · exact h.key uuid node hold
    · obtain ⟨node, hnode⟩ := Dict.mem_keys.1 huuid
      exact Dict.mem_keys.2 ⟨node, hcreated.get?_of_some hnode⟩

/-- A row that is in no instance and no claim is removed. -/
theorem Inv.removeNode {node : Node w} (h : Inv s) (hfree : node.args.uuid ∉ s.instanceNodes.keys)
    (hheld : ¬s.isHeld node.args.uuid) : Inv (s.removeNode node) := by
  refine h.frame ⟨rfl, rfl, rfl, rfl, rfl⟩ (fun uuid row hrow => ?_) fun uuid huuid hused => ?_
  · rw [removeNode_get?] at hrow
    split at hrow
    · cases hrow
    · exact h.key uuid row hrow
  · obtain ⟨row, hrow⟩ := Dict.mem_keys.1 huuid
    rw [Dict.mem_keys]
    refine ⟨row, ?_⟩
    rw [removeNode_get?, if_neg]
    · exact hrow
    · rintro rfl
      exact hused.elim hfree hheld

theorem Inv.foldl_removeNode {gone : List (Node w)} (h : Inv s)
    (hfree : ∀ node ∈ gone, node.args.uuid ∉ s.instanceNodes.keys)
    (hheld : ∀ node ∈ gone, ¬s.isHeld node.args.uuid) : Inv (gone.foldl State.removeNode s) := by
  induction gone generalizing s with
  | nil => exact h
  | cons node gone ih =>
    rw [List.forall_mem_cons] at hfree hheld
    exact ih (h.removeNode hfree.1 hheld.1) hfree.2 hheld.2

theorem Inv.updateNodes (h : Inv s) (uuids : List String) (f : Node w → Node w)
    (hf : ∀ node, (f node).args = node.args) : Inv (s.updateNodes uuids f) := by
  refine h.frame ⟨rfl, rfl, rfl, rfl, rfl⟩ (fun uuid node hnode => ?_) fun uuid huuid _ => ?_
  · simp only [State.updateNodes, Dict.get?_map, Option.map_eq_some_iff] at hnode
    obtain ⟨row, hrow, rfl⟩ := hnode
    split
    · rw [hf]
      exact h.key uuid row hrow
    · exact h.key uuid row hrow
  · exact (Dict.keys_map (d := s.nodes)).symm ▸ huuid

theorem Inv.finish (h : Inv s) (task : Task w) (challenge : Challenge) (message : String)
    (newSeed : ℕ) : Inv (s.finish cfg task challenge message newSeed) := by
  unfold State.finish
  split
  · exact h.updateNodes _ _ fun _ => rfl
  · split
    · exact h.updateNodes _ _ fun _ => rfl
    · have hupdated := h.updateNodes task.uuids
        (fun node => { node with verifiedAt := some s.now, verificationError := none }) fun _ => rfl
      exact hupdated.frame ⟨rfl, rfl, rfl, rfl, rfl⟩ hupdated.key fun _ hu _ => hu

/-! ## Deletions from under an instance -/

/-- A row of `instance_nodes` is deleted, which is recorded. -/
theorem Inv.lose {uuid iid : String} (h : Inv s) (hiid : s.instanceNodes.get? uuid = some iid) :
    Inv { s with instanceNodes := s.instanceNodes.pop uuid, lost := (iid, uuid) :: s.lost } where
  key := h.key
  assigned uuid' iid' h' := by
    rw [Dict.get?_pop] at h'
    split at h'
    · cases h'
    · exact h.assigned uuid' iid' h'
  whole iid' args hargs uuid' huuid' := by
    simp only [Dict.get?_pop, List.mem_cons, Prod.mk.injEq, not_or]
    split
    · next heq =>
      subst heq
      simp only [reduceCtorEq, and_true, false_iff, not_and, not_not]
      intro hne
      by_contra hnot
      exact hne (Option.some.inj (((h.whole iid' args hargs uuid' huuid').2 hnot).symm.trans hiid))
    · next hne => simpa [hne] using h.whole iid' args hargs uuid' huuid'
  count := h.count
  used := h.used
  lost e he := by
    rcases List.mem_cons.1 he with rfl | he
    · obtain ⟨-, args, hargs, -⟩ := h.assigned uuid iid hiid
      exact h.used iid (Dict.mem_keys.2 ⟨args, hargs⟩)
    · exact h.lost e he
  claims iid' c hc := by
    have hopen := h.claims iid' c hc
    refine ⟨hopen.new, hopen.unused, hopen.count, hopen.ids, hopen.there, fun u hu hkey => ?_,
      hopen.own⟩
    obtain ⟨v, hv⟩ := Dict.mem_keys.1 hkey
    rw [Dict.get?_pop] at hv
    split at hv
    · cases hv
    · exact hopen.free u hu (Dict.mem_keys.2 ⟨v, hv⟩)

theorem Inv.deleteNode {hotkey uuid originIp : String} {seen : Option String} (h : Inv s)
    (hheld : ¬s.isHeld uuid) (hs : s.deleteNode hotkey uuid originIp seen = .ok s') : Inv s' := by
  obtain ⟨node, hnode, -, hcase⟩ := deleteNode_eq_ok hs
  obtain rfl := h.key uuid node hnode
  rcases hcase with ⟨hnone, rfl⟩ | ⟨iid, hiid, rfl⟩
  · refine h.removeNode (fun hkey => ?_) hheld
    obtain ⟨iid, hiid⟩ := Dict.mem_keys.1 hkey
    rw [hnone] at hiid
    cases hiid
  · refine (h.lose hiid).removeNode (fun hkey => ?_) hheld
    obtain ⟨iid', hiid'⟩ := Dict.mem_keys.1 hkey
    rw [Dict.get?_pop, if_pos rfl] at hiid'
    cases hiid'

/-- **An instance is deleted.** -/
theorem Inv.deleteInstance (h : Inv s) (iid : String) : Inv (s.deleteInstance iid) where
  key := h.key
  assigned uuid iid' h' := by
    simp only [State.deleteInstance, Dict.get?_filter, Option.filter_eq_some_iff] at h'
    obtain ⟨hthere, args, hargs, hin⟩ := h.assigned uuid iid' h'.1
    refine ⟨hthere, args, ?_, hin⟩
    simp only [State.deleteInstance, Dict.get?_pop]
    rwa [if_neg (by simpa using h'.2)]
  whole iid' args hargs uuid huuid := by
    simp only [State.deleteInstance, Dict.get?_pop] at hargs
    split at hargs
    · cases hargs
    · next hne =>
      simp only [State.deleteInstance, Dict.get?_filter, Option.filter_eq_some_iff]
      rw [h.whole iid' args hargs uuid huuid]
      simp [hne]
  count iid' args hargs := by
    simp only [State.deleteInstance, Dict.get?_pop] at hargs
    split at hargs
    · cases hargs
    · exact h.count iid' args hargs
  used iid' hiid' := by
    obtain ⟨args, hargs⟩ := Dict.mem_keys.1 hiid'
    simp only [State.deleteInstance, Dict.get?_pop] at hargs
    split at hargs
    · cases hargs
    · exact h.used iid' (Dict.mem_keys.2 ⟨args, hargs⟩)
  lost := h.lost
  claims iid' c hc := by
    have hopen := h.claims iid' c hc
    refine ⟨fun hkey => ?_, hopen.unused, hopen.count, hopen.ids, hopen.there,
      fun u hu hkey => ?_, hopen.own⟩
    · obtain ⟨args, hargs⟩ := Dict.mem_keys.1 hkey
      simp only [State.deleteInstance, Dict.get?_pop] at hargs
      split at hargs
      · cases hargs
      · exact hopen.new (Dict.mem_keys.2 ⟨args, hargs⟩)
    · obtain ⟨v, hv⟩ := Dict.mem_keys.1 hkey
      simp only [State.deleteInstance, Dict.get?_filter, Option.filter_eq_some_iff] at hv
      exact hopen.free u hu (Dict.mem_keys.2 ⟨v, hv.1⟩)

/-! ## Claims -/

/-- A claim is rolled back. -/
theorem Inv.dropClaim (h : Inv s) (iid : String) : Inv { s with claims := s.claims.pop iid } where
  key := h.key
  assigned := h.assigned
  whole := h.whole
  count := h.count
  used := h.used
  lost := h.lost
  claims iid' c hc := by
    rw [Dict.get?_pop] at hc
    split at hc
    · cases hc
    · have hopen := h.claims iid' c hc
      refine ⟨hopen.new, hopen.unused, hopen.count, hopen.ids, hopen.there, hopen.free,
        fun iid'' c'' hc'' => ?_⟩
      rw [Dict.get?_pop] at hc''
      split at hc''
      · cases hc''
      · exact hopen.own iid'' c'' hc''

/-- **A claim begins or moves on**: it is open, and no other claim has what it
has inserted. -/
theorem Inv.setClaim {iid : String} {c : Claim w} (h : Inv s) (hnew : iid ∉ s.instances.keys)
    (hunused : iid ∉ s.usedIds) (hcount : c.args.selector.gpuCount = some c.args.nodeIds.length)
    (hids : c.args.nodeIds =
      c.uuids ++ (c.loaded.toList.map fun node => node.args.uuid) ++ c.todo)
    (hthere : ∀ uuid ∈ c.uuids, uuid ∈ s.nodes.keys)
    (hfree : ∀ uuid ∈ c.uuids, uuid ∉ s.instanceNodes.keys)
    (hown : ∀ iid' c', s.claims.get? iid' = some c' → ∀ uuid ∈ c.uuids, uuid ∈ c'.uuids →
      iid' = iid) : Inv { s with claims := s.claims.set iid c } where
  key := h.key
  assigned := h.assigned
  whole := h.whole
  count := h.count
  used := h.used
  lost := h.lost
  claims iid' c' hc' := by
    rw [Dict.get?_set] at hc'
    split at hc'
    · next heq =>
      obtain rfl := Option.some.inj hc'
      subst heq
      refine ⟨hnew, hunused, hcount, hids, hthere, hfree, fun iid'' c'' hc'' => ?_⟩
      rw [Dict.get?_set] at hc''
      split at hc''
      · next heq => exact fun _ _ _ => heq
      · exact hown iid'' c'' hc''
    · next hne =>
      have hopen := h.claims iid' c' hc'
      refine ⟨hopen.new, hopen.unused, hopen.count, hopen.ids, hopen.there, hopen.free,
        fun iid'' c'' hc'' uuid hu hu'' => ?_⟩
      rw [Dict.get?_set] at hc''
      split at hc''
      · next heq =>
        obtain rfl := Option.some.inj hc''
        exact absurd (hown iid' c' hc' uuid hu'' hu) hne
      · exact hopen.own iid'' c'' hc'' uuid hu hu''

theorem Inv.insert {iid : String} {args : ClaimArgs} {todo : List String} {node : Node w}
    {nodes : List (Node w)} (h : Inv s)
    (hc : s.claims.get? iid = some ⟨args, todo, some node, nodes⟩)
    (hheld : ¬s.isHeld node.args.uuid) (hthere : node.args.uuid ∈ s.nodes.keys)
    (hfree : node.args.uuid ∉ s.instanceNodes.keys) :
    Inv { s with claims := s.claims.set iid ⟨args, todo, none, nodes ++ [node]⟩ } := by
  have hopen := h.claims iid _ hc
  have huuids : ∀ uuid, uuid ∈ (⟨args, todo, none, nodes ++ [node]⟩ : Claim w).uuids ↔
      uuid ∈ (⟨args, todo, some node, nodes⟩ : Claim w).uuids ∨ uuid = node.args.uuid := by
    simp [Claim.uuids]
  refine h.setClaim hopen.new hopen.unused hopen.count ?_ (fun uuid hu => ?_) (fun uuid hu => ?_)
    fun iid' c' hc' uuid hu hu' => ?_
  · have hids := hopen.ids
    simpa [Claim.uuids] using hids
  · rcases (huuids uuid).1 hu with hu | rfl
    · exact hopen.there uuid hu
    · exact hthere
  · rcases (huuids uuid).1 hu with hu | rfl
    · exact hopen.free uuid hu
    · exact hfree
  · rcases (huuids uuid).1 hu with hu | rfl
    · exact hopen.own iid' c' hc' uuid hu hu'
    · exact absurd (isHeld_iff.2 ⟨iid', c', hc', hu'⟩) hheld

/-- The rows of `instance_nodes` once a claim has committed. -/
theorem commit_get? {iid uuid : String} {c : Claim w} (hnodup : c.uuids.Nodup) :
    (s.commit iid c).instanceNodes.get? uuid =
      if uuid ∈ c.uuids then some iid else s.instanceNodes.get? uuid := by
  unfold State.commit
  simp only
  rw [Dict.get?_foldl_set hnodup]
  by_cases hin : uuid ∈ c.uuids
  · obtain ⟨node, hmem, heq⟩ := List.mem_map.1 hin
    rw [if_pos hin]
    rcases hf : c.nodes.find? fun node => node.args.uuid = uuid with _ | found
    · exact absurd (List.find?_eq_none.1 hf node hmem) (by simpa using heq)
    · rw [hf]
      rfl
  · rw [if_neg hin, List.find?_eq_none.2 fun node hmem => ?_]
    · rfl
    · exact fun heq => hin (List.mem_map.2 ⟨node, hmem, of_decide_eq_true heq⟩)

/-- An id that was not used is once its instance has a GPU. -/
theorem mem_usedIds_commit {iid iid' : String} {c : Claim w} (hunused : iid ∉ s.usedIds)
    (hne : c.nodes ≠ []) :
    iid' ∈ (s.commit iid c).usedIds ↔ iid' = iid ∨ iid' ∈ s.usedIds := by
  have hnone : ∀ e ∈ s.instanceNodeHistory, e.1 ≠ iid := fun e he heq =>
    hunused (List.mem_map.2 ⟨e, he, heq⟩)
  obtain ⟨node, hmem⟩ := List.exists_mem_of_ne_nil _ hne
  unfold State.commit State.usedIds
  simp only [List.map_append, List.mem_append, List.mem_map, List.mem_filter]
  constructor
  · rintro (hold | ⟨e, ⟨⟨node', -, rfl⟩, -⟩, rfl⟩)
    · exact .inr hold
    · exact .inl rfl
  · rintro (rfl | hold)
    · refine .inr ⟨_, ⟨⟨node, hmem, rfl⟩, ?_⟩, rfl⟩
      rw [List.all_eq_true]
      intro e he
      rw [decide_eq_true_eq]
      exact fun heq => hnone e he (Prod.mk.inj heq).1
    · exact .inl hold

/-- **A claim commits.** -/
theorem Inv.commit {iid : String} {args : ClaimArgs} {nodes : List (Node w)} (h : Inv s)
    (hc : s.claims.get? iid = some ⟨args, [], none, nodes⟩) (hne : nodes ≠ []) :
    Inv (s.commit iid ⟨args, [], none, nodes⟩) := by
  have hopen := h.claims iid _ hc
  have hids : args.nodeIds = (⟨args, [], none, nodes⟩ : Claim w).uuids := by simpa using hopen.ids
  have hnodup : (⟨args, [], none, nodes⟩ : Claim w).uuids.Nodup := hids ▸ args.nodup
  generalize hcdef : (⟨args, [], none, nodes⟩ : Claim w) = c at hc hopen hids hnodup
  obtain rfl : args = c.args := by rw [← hcdef]
  have hnodes : c.nodes ≠ [] := by rwa [← hcdef]
  have hinstances : ∀ iid', (s.commit iid c).instances.get? iid' =
      if iid' = iid then some c.args else s.instances.get? iid' := fun iid' => Dict.get?_set
  refine ⟨h.key, fun uuid iid' h' => ?_, fun iid' args' hargs' uuid huuid => ?_,
    fun iid' args' hargs' => ?_, fun iid' hiid' => ?_, fun e he => ?_, fun iid' c' hc' => ?_⟩
  · rw [commit_get? hnodup] at h'
    rw [hinstances]
    split at h'
    · next hin =>
      obtain rfl := Option.some.inj h'
      exact ⟨hopen.there uuid hin, c.args, if_pos rfl, hids ▸ hin⟩
    · obtain ⟨hthere, args', hargs', hin⟩ := h.assigned uuid iid' h'
      refine ⟨hthere, args', ?_, hin⟩
      rw [if_neg, hargs']
      rintro rfl
      exact hopen.new (Dict.mem_keys.2 ⟨args', hargs'⟩)
  · rw [commit_get? hnodup]
    rw [hinstances] at hargs'
    split at hargs'
    · next heq =>
      obtain rfl := Option.some.inj hargs'
      subst heq
      rw [if_pos (hids ▸ huuid)]
      refine iff_of_true rfl fun hlost => hopen.unused ?_
      exact h.lost _ hlost
    · next hne' =>
      have hwhole := h.whole iid' args' hargs' uuid huuid
      split
      · next hin =>
        have hnone : s.instanceNodes.get? uuid = none :=
          Dict.get?_eq_none.2 (hopen.free uuid hin)
        rw [hnone] at hwhole
        exact iff_of_false (by simpa using Ne.symm hne') fun hlost =>
          absurd (hwhole.2 hlost) (by simp)
      · exact hwhole
  · rw [hinstances] at hargs'
    split at hargs'
    · obtain rfl := Option.some.inj hargs'
      exact hopen.count
    · exact h.count iid' args' hargs'
  · rw [mem_usedIds_commit hopen.unused hnodes]
    obtain ⟨args', hargs'⟩ := Dict.mem_keys.1 hiid'
    rw [hinstances] at hargs'
    split at hargs'
    · next heq => exact .inl heq
    · exact .inr (h.used iid' (Dict.mem_keys.2 ⟨args', hargs'⟩))
  · rw [mem_usedIds_commit hopen.unused hnodes]
    exact .inr (h.lost e he)
  · have hc'' : (s.claims.pop iid).get? iid' = some c' := hc'
    rw [Dict.get?_pop] at hc''
    split at hc''
    · cases hc''
    · next hne' =>
      have hopen' := h.claims iid' c' hc''
      refine ⟨fun hkey => ?_, ?_, hopen'.count, hopen'.ids, hopen'.there, fun uuid hu hkey => ?_,
        fun iid'' d hd => ?_⟩
      · obtain ⟨args', hargs'⟩ := Dict.mem_keys.1 hkey
        rw [hinstances, if_neg hne'] at hargs'
        exact hopen'.new (Dict.mem_keys.2 ⟨args', hargs'⟩)
      · rw [mem_usedIds_commit hopen.unused hnodes]
        exact not_or.2 ⟨hne', hopen'.unused⟩
      · obtain ⟨v, hv⟩ := Dict.mem_keys.1 hkey
        rw [commit_get? hnodup] at hv
        split at hv
        · next hin => exact hne' (hopen.own iid' c' hc'' uuid hin hu)
        · exact hopen'.free uuid hu (Dict.mem_keys.2 ⟨v, hv⟩)
      · have hd' : (s.claims.pop iid).get? iid'' = some d := hd
        rw [Dict.get?_pop] at hd'
        split at hd'
        · cases hd'
        · exact hopen'.own iid'' d hd'

theorem Inv.step (h : Inv s) {a : Action} (hs : s.step cfg a = some s') : Inv s' := by
  cases a with
  | tick d =>
    obtain rfl := Option.some.inj hs
    exact h.frame ⟨rfl, rfl, rfl, rfl, rfl⟩ h.key fun _ hu _ => hu
  | register hotkey reason =>
    obtain rfl := Option.some.inj hs
    exact h.frame ⟨rfl, rfl, rfl, rfl, rfl⟩ h.key fun _ hu _ => hu
  | deregister hotkey =>
    obtain ⟨hheld, hs⟩ := Option.ite_none_left_eq_some.1 hs
    obtain ⟨hfree, rfl⟩ := deregister_eq_ok (toOption_eq_some.1 hs)
    have hgone :
        Inv ((s.nodes.values.filter (·.minerHotkey = hotkey)).foldl State.removeNode s) := by
      refine h.foldl_removeNode (fun node hmem => ?_) fun node hmem hisHeld => hheld ?_
      · obtain ⟨hvalue, hminer⟩ := List.mem_filter.1 hmem
        exact hfree node hvalue (of_decide_eq_true hminer)
      · obtain ⟨hvalue, hminer⟩ := List.mem_filter.1 hmem
        exact List.any_eq_true.2 ⟨node, hvalue, by rw [hminer, hisHeld, Bool.and_self]⟩
    exact hgone.frame ⟨rfl, rfl, rfl, rfl, rfl⟩ hgone.key fun _ hu _ => hu
  | check id req =>
    obtain ⟨hotkey, -, rfl⟩ := check_eq_some hs
    exact h.frame ⟨rfl, rfl, rfl, rfl, rfl⟩ h.key fun _ hu _ => hu
  | create id => exact h.create hs
  | delete hotkey uuid originIp seen =>
    obtain ⟨hheld, hs⟩ := Option.ite_none_left_eq_some.1 hs
    exact h.deleteNode hheld (toOption_eq_some.1 hs)
  | load task uuids =>
    obtain ⟨-, hs⟩ := Option.ite_none_right_eq_some.1 hs
    obtain rfl := Option.some.inj hs
    exact h.frame ⟨rfl, rfl, rfl, rfl, rfl⟩ h.key fun _ hu _ => hu
  | finish task challenge message newSeed =>
    obtain ⟨t, -, rfl⟩ := Option.map_eq_some_iff.1 hs
    have hfinished : Inv (s.finish cfg t challenge message newSeed) := h.finish t challenge _ _
    exact hfinished.frame ⟨rfl, rfl, rfl, rfl, rfl⟩ hfinished.key fun _ hu _ => hu
  | begin iid args =>
    obtain ⟨hnew, hs⟩ := Option.ite_none_left_eq_some.1 hs
    simp only [not_or] at hnew
    obtain ⟨c, hc, rfl⟩ := Option.map_eq_some_iff.1 hs
    obtain ⟨hcount, rfl⟩ := begin_eq_ok (toOption_eq_some.1 hc)
    refine h.setClaim hnew.2.1 hnew.2.2 hcount (by simp [Claim.uuids]) ?_ ?_ ?_ <;>
      simp [Claim.uuids]
  | validate iid =>
    simp only [State.step] at hs
    split at hs
    · next args nodeId todo nodes hc =>
      have hopen := h.claims iid _ hc
      split at hs
      · next node hnode =>
        obtain rfl := Option.some.inj hs
        obtain ⟨hget, -, -⟩ := validateNode_eq_ok hnode
        refine h.setClaim hopen.new hopen.unused hopen.count ?_ hopen.there hopen.free hopen.own
        have hids := hopen.ids
        simpa [Claim.uuids, h.key nodeId node hget] using hids
      · obtain rfl := Option.some.inj hs
        exact h.dropClaim iid
    · cases hs
  | insert iid =>
    simp only [State.step] at hs
    split at hs
    · next args todo node nodes hc =>
      obtain ⟨hheld, hs⟩ := Option.ite_none_left_eq_some.1 hs
      split at hs
      · next c hinsert =>
        obtain rfl := Option.some.inj hs
        obtain ⟨hthere, hfree, rfl⟩ := insertNode_eq_ok hinsert
        exact h.insert hc hheld hthere hfree
      · obtain rfl := Option.some.inj hs
        exact h.dropClaim iid
    · cases hs
  | commit iid =>
    simp only [State.step] at hs
    split at hs
    · next args nodes hc =>
      split at hs
      · next hhosts =>
        obtain rfl := Option.some.inj hs
        refine h.commit hc ?_
        rintro rfl
        cases hhosts
      · obtain rfl := Option.some.inj hs
        exact h.dropClaim iid
    · cases hs
  | abort iid =>
    obtain ⟨-, hs⟩ := Option.ite_none_right_eq_some.1 hs
    obtain rfl := Option.some.inj hs
    exact h.dropClaim iid
  | deleteInstance iid =>
    obtain rfl := Option.some.inj hs
    exact h.deleteInstance iid

theorem inv_of_run {ok : State w → Action → Prop} {as : List Action}
    (h : (system cfg w).Reach ok as s) : Inv s := by
  refine h.invariant (fun s₀ h0 => ?_) fun _ _ _ hi _ hs => hi.step hs
  obtain rfl : s₀ = initial w := h0
  exact inv_initial

/-! ## One instance for a GPU -/

/-- **The GPUs of the instances**: an instance has those it claimed, as many
as its chute asks for, without those that were deleted from under it. No GPU
is of two, and none that a claim under way has inserted is of one. -/
structure Exclusive (s : State w) : Prop where
  has : ∀ uuid iid, s.instanceNodes.get? uuid = some iid ↔
    ∃ args, s.instances.get? iid = some args ∧ uuid ∈ args.nodeIds ∧ (iid, uuid) ∉ s.lost
  count : ∀ iid args, s.instances.get? iid = some args →
    args.nodeIds.Nodup ∧ args.selector.gpuCount = some args.nodeIds.length
  apart : ∀ iid iid' args args' uuid, s.instances.get? iid = some args →
    s.instances.get? iid' = some args' → uuid ∈ args.nodeIds → uuid ∈ args'.nodeIds →
      (iid, uuid) ∉ s.lost → (iid', uuid) ∉ s.lost → iid = iid'
  there : ∀ uuid ∈ s.instanceNodes.keys, uuid ∈ s.nodes.keys
  held : ∀ uuid, s.isHeld uuid → uuid ∉ s.instanceNodes.keys

/-- **In every run, of any interleaving**, the instances' GPUs are
exclusive. -/
theorem exclusive {as : List Action} (h : (system cfg w).Run as s) : Exclusive s := by
  have hi := inv_of_run h
  have hhas : ∀ uuid iid, s.instanceNodes.get? uuid = some iid ↔
      ∃ args, s.instances.get? iid = some args ∧ uuid ∈ args.nodeIds ∧ (iid, uuid) ∉ s.lost := by
    intro uuid iid
    constructor
    · intro hiid
      obtain ⟨-, args, hargs, hin⟩ := hi.assigned uuid iid hiid
      exact ⟨args, hargs, hin, (hi.whole iid args hargs uuid hin).1 hiid⟩
    · rintro ⟨args, hargs, hin, hlost⟩
      exact (hi.whole iid args hargs uuid hin).2 hlost
  refine ⟨hhas, fun iid args hargs => ⟨args.nodup, hi.count iid args hargs⟩, ?_, fun uuid hu => ?_,
    fun uuid hheld => ?_⟩
  · intro iid iid' args args' uuid hargs hargs' hin hin' hlost hlost'
    have h1 := (hhas uuid iid).2 ⟨args, hargs, hin, hlost⟩
    have h2 := (hhas uuid iid').2 ⟨args', hargs', hin', hlost'⟩
    exact Option.some.inj (h1.symm.trans h2)
  · obtain ⟨iid, hiid⟩ := Dict.mem_keys.1 hu
    exact (hi.assigned uuid iid hiid).1
  · obtain ⟨iid, c, hc, hin⟩ := isHeld_iff.1 hheld
    exact (hi.claims iid c hc).free uuid hin

section

/-- Services that find nothing wrong. -/
private def lenient : Config where
  skipGpuVerification := false
  deviceInfoChallengeCount := 1
  isValidHost _ := true
  verifyDeviceInfo _ challenge response := challenge == response
  checkProof _ _ workProduct := workProduct == "work"

private def h100 (uuid : String) : NodeArgs :=
  ⟨uuid, "NVIDIA H100 80GB HBM3", 85899345920, 132, .finite 1980000, "h100_sxm", "1.2.3.4", 8000⟩

private def metChallenge : Challenge :=
  ⟨[⟨"c", 200, "c"⟩], fun _ => "p", some ⟨200, fun _ => some "p", fun _ => some "work", 70⟩⟩

/-- Two GPUs of one miner are posted and verified. -/
private def posted : List Action :=
  [.register "5A" none, .check 0 ⟨some "5A", none, [h100 "g1", h100 "g2"], 7⟩, .create 0,
   .load 0 ["g1", "g2"], .finish 0 metChallenge "" 0]

private def twoGpus : ClaimArgs :=
  ⟨"c", "name", { gpuCount := some 2 }, "5A", "1.2.3.4", ["g1", "g2"], by decide⟩

/-- Two claims have both found a GPU free, and the first commits with it. -/
private def race : List Action :=
  posted ++ [.begin "i" twoGpus, .begin "j" twoGpus, .validate "i", .validate "j",
    .insert "i", .validate "i", .insert "i", .commit "i", .insert "j"]

private def raced : State .asciiOnly :=
  ((system lenient .asciiOnly).exec (initial .asciiOnly) race).getD (initial .asciiOnly)

theorem exclusive_race : Exclusive raced ∧
    raced.instanceNodes.items = [("g1", "i"), ("g2", "i")] ∧ raced.claims.items = [] := by
  -- one evaluation of the run
  have hrun : ((system lenient .asciiOnly).exec (initial .asciiOnly) race).isSome ∧
      raced.instanceNodes.items = [("g1", "i"), ("g2", "i")] ∧ raced.claims.items = [] := by
    decide +kernel
  exact ⟨exclusive (Lts.run_getD_exec rfl hrun.1), hrun.2⟩

end

/-! ## What an instance's GPUs are -/

/-- **No check is torn**: no GPU is deleted that a claim has loaded and not
inserted yet. -/
def Untorn (s : State w) : Action → Prop
  | .delete _ uuid _ _ =>
    ∀ c ∈ s.claims.values, c.loaded.all (fun node => node.args.uuid ≠ uuid) = true
  | .deregister hotkey =>
    ∀ c ∈ s.claims.values, c.loaded.all (fun node => node.minerHotkey ≠ hotkey) = true
  | _ => True

instance (s : State w) (a : Action) : Decidable (Untorn s a) := by
  unfold Untorn
  split <;> infer_instance

/-- A GPU that an instance has, or a claim has loaded or inserted. -/
def State.InUse (s : State w) (uuid : String) : Prop :=
  uuid ∈ s.instanceNodes.keys ∨ s.isHeld uuid ∨
    ∃ iid c, s.claims.get? iid = some c ∧ ∃ node ∈ c.loaded, node.args.uuid = uuid

/-- **The GPUs in use are as their claims have checked them.** -/
structure Serving (s : State w) : Prop where
  assigned : ∀ uuid iid, s.instanceNodes.get? uuid = some iid →
    ∃ args node, s.instances.get? iid = some args ∧ s.nodes.get? uuid = some node ∧
      Serves node args ∧ lower node.args.verificationHost = lower args.host
  inserted : ∀ iid c, s.claims.get? iid = some c → ∀ node ∈ c.nodes,
    ∃ row, s.nodes.get? node.args.uuid = some row ∧ Keeps node row ∧ Serves row c.args
  loaded : ∀ iid c, s.claims.get? iid = some c → ∀ node ∈ c.loaded,
    ∃ row, s.nodes.get? node.args.uuid = some row ∧ Keeps node row ∧ Serves row c.args

theorem serving_initial : Serving (initial w) where
  assigned _ _ h := by cases h
  inserted _ _ h := by cases h
  loaded _ _ h := by cases h

theorem Keeps.trans {a b c : Node w} (h : Keeps a b) (h' : Keeps b c) : Keeps a c :=
  ⟨h'.args.trans h.args, h'.minerHotkey.trans h.minerHotkey, fun hv => h'.verified (h.verified hv)⟩

/-- **Rows in use are kept**, whatever happens to the others. -/
theorem Serving.frame (h : Serving s)
    (htables : s'.instances = s.instances ∧ s'.claims = s.claims ∧
      s'.instanceNodes = s.instanceNodes)
    (hkeep : ∀ uuid node, s.nodes.get? uuid = some node → s.InUse uuid →
      ∃ node', s'.nodes.get? uuid = some node' ∧ Keeps node node') : Serving s' := by
  obtain ⟨hinstances, hclaims, hnodes⟩ := htables
  refine ⟨fun uuid iid hiid => ?_, fun iid c hc node hmem => ?_, fun iid c hc node hmem => ?_⟩
  · rw [hnodes] at hiid
    obtain ⟨args, node, hargs, hnode, hserves, hhost⟩ := h.assigned uuid iid hiid
    obtain ⟨node', hnode', hkeeps⟩ := hkeep uuid node hnode (.inl (Dict.mem_keys.2 ⟨iid, hiid⟩))
    refine ⟨args, node', hinstances ▸ hargs, hnode', hserves.keeps hkeeps, ?_⟩
    rw [hkeeps.args]
    exact hhost
  · rw [hclaims] at hc
    obtain ⟨row, hrow, hkeeps, hserves⟩ := h.inserted iid c hc node hmem
    obtain ⟨row', hrow', hkeeps'⟩ := hkeep _ row hrow
      (.inr (.inl (isHeld_iff.2 ⟨iid, c, hc, List.mem_map.2 ⟨node, hmem, rfl⟩⟩)))
    exact ⟨row', hrow', hkeeps.trans hkeeps', hserves.keeps hkeeps'⟩
  · rw [hclaims] at hc
    obtain ⟨row, hrow, hkeeps, hserves⟩ := h.loaded iid c hc node hmem
    obtain ⟨row', hrow', hkeeps'⟩ := hkeep _ row hrow (.inr (.inr ⟨iid, c, hc, node, hmem, rfl⟩))
    exact ⟨row', hrow', hkeeps.trans hkeeps', hserves.keeps hkeeps'⟩

/-- A claim is rolled back, begins or moves on. -/
theorem Serving.setClaims {claims : Dict String (Claim w)} (h : Serving s)
    (hclaims : ∀ iid c, claims.get? iid = some c → s.claims.get? iid = some c ∨
      ∀ node ∈ c.nodes ++ c.loaded.toList,
        ∃ row, s.nodes.get? node.args.uuid = some row ∧ Keeps node row ∧ Serves row c.args) :
    Serving { s with claims := claims } where
  assigned := h.assigned
  inserted iid c hc node hmem := by
    rcases hclaims iid c hc with hold | hnew
    · exact h.inserted iid c hold node hmem
    · exact hnew node (List.mem_append_left _ hmem)
  loaded iid c hc node hmem := by
    rcases hclaims iid c hc with hold | hnew
    · exact h.loaded iid c hold node hmem
    · exact hnew node (List.mem_append_right _ (Option.mem_toList.2 hmem))

theorem Serving.dropClaim (h : Serving s) (iid : String) :
    Serving { s with claims := s.claims.pop iid } := by
  refine h.setClaims fun iid' c hc => .inl ?_
  rw [Dict.get?_pop] at hc
  split at hc
  · cases hc
  · exact hc

theorem Serving.setClaim {iid : String} {c : Claim w} (h : Serving s)
    (hc : ∀ node ∈ c.nodes ++ c.loaded.toList,
      ∃ row, s.nodes.get? node.args.uuid = some row ∧ Keeps node row ∧ Serves row c.args) :
    Serving { s with claims := s.claims.set iid c } := by
  refine h.setClaims fun iid' c' hc' => ?_
  rw [Dict.get?_set] at hc'
  split at hc'
  · obtain rfl := Option.some.inj hc'
    exact .inr hc
  · exact .inl hc'

/-- Rows of `instance_nodes` are deleted, with their instance or alone. -/
theorem Serving.unassign (h : Serving s) (hs : s'.claims = s.claims ∧ s'.nodes = s.nodes)
    (hless : ∀ uuid iid, s'.instanceNodes.get? uuid = some iid →
      s.instanceNodes.get? uuid = some iid ∧ s'.instances.get? iid = s.instances.get? iid) :
    Serving s' := by
  obtain ⟨hclaims, hnodes⟩ := hs
  refine ⟨fun uuid iid hiid => ?_, by rw [hclaims, hnodes]; exact h.inserted,
    by rw [hclaims, hnodes]; exact h.loaded⟩
  obtain ⟨hold, hsame⟩ := hless uuid iid hiid
  rw [hsame, hnodes]
  exact h.assigned uuid iid hold

theorem Serving.commit {iid : String} {args : ClaimArgs} {nodes : List (Node w)} (h : Serving s)
    (hi : Inv s) (hc : s.claims.get? iid = some ⟨args, [], none, nodes⟩)
    (hhosts : (⟨args, [], none, nodes⟩ : Claim w).checkHosts = .ok ()) :
    Serving (s.commit iid ⟨args, [], none, nodes⟩) := by
  have hopen := hi.claims iid _ hc
  have hids : args.nodeIds = (⟨args, [], none, nodes⟩ : Claim w).uuids := by simpa using hopen.ids
  have hdropped := h.dropClaim iid
  refine ⟨fun uuid iid' h' => ?_, hdropped.inserted, hdropped.loaded⟩
  rw [commit_get? (hids ▸ args.nodup)] at h'
  have hinstances : (s.commit iid ⟨args, [], none, nodes⟩).instances.get? iid' =
      if iid' = iid then some args else s.instances.get? iid' := Dict.get?_set
  rw [hinstances]
  split at h'
  · next hin =>
    obtain rfl := Option.some.inj h'
    obtain ⟨node, hmem, rfl⟩ := List.mem_map.1 hin
    obtain ⟨row, hrow, hkeeps, hserves⟩ := h.inserted iid _ hc node hmem
    refine ⟨args, row, if_pos rfl, hrow, hserves, ?_⟩
    rw [hkeeps.args]
    exact checkHosts_eq_ok hhosts node hmem
  · obtain ⟨args', node, hargs', hnode, hserves, hhost⟩ := h.assigned uuid iid' h'
    refine ⟨args', node, ?_, hnode, hserves, hhost⟩
    rw [if_neg, hargs']
    rintro rfl
    exact hopen.new (Dict.mem_keys.2 ⟨args', hargs'⟩)

/-- A GPU in use that is in no instance, nor inserted, is loaded. -/
theorem State.InUse.exists_loaded {uuid : String} (hu : s.InUse uuid)
    (hfree : uuid ∉ s.instanceNodes.keys) (hheld : ¬s.isHeld uuid) :
    ∃ c ∈ s.claims.values, ∃ node ∈ c.loaded, node.args.uuid = uuid := by
  obtain hkey | hheld' | ⟨iid, c, hc, hnode⟩ := hu
  · exact absurd hkey hfree
  · exact absurd hheld' hheld
  · exact ⟨c, Dict.mem_values.2 ⟨iid, hc⟩, hnode⟩

theorem Serving.removeNode {node : Node w} (h : Serving s)
    (hunused : ¬s.InUse node.args.uuid) : Serving (s.removeNode node) := by
  refine h.frame ⟨rfl, rfl, rfl⟩ fun uuid row hrow hu => ⟨row, ?_, .refl row⟩
  rw [removeNode_get?, if_neg]
  · exact hrow
  · rintro rfl
    exact hunused hu

theorem Serving.step (h : Serving s) (hi : Inv s) {a : Action} (hok : Untorn s a)
    (hs : s.step cfg a = some s') : Serving s' := by
  cases a with
  | tick d =>
    obtain rfl := Option.some.inj hs
    exact h.frame ⟨rfl, rfl, rfl⟩ fun _ node hnode _ => ⟨node, hnode, .refl node⟩
  | register hotkey reason =>
    obtain rfl := Option.some.inj hs
    exact h.frame ⟨rfl, rfl, rfl⟩ fun _ node hnode _ => ⟨node, hnode, .refl node⟩
  | deregister hotkey =>
    obtain ⟨hheld, hs⟩ := Option.ite_none_left_eq_some.1 hs
    obtain ⟨hfree, rfl⟩ := deregister_eq_ok (toOption_eq_some.1 hs)
    obtain ⟨nodes, history, hframe⟩ :=
      foldl_removeNode_frame (s := s) (s.nodes.values.filter (·.minerHotkey = hotkey))
    refine h.frame ?_ fun uuid node hnode hu => ⟨node, ?_, .refl node⟩
    · rw [hframe]
      exact ⟨rfl, rfl, rfl⟩
    · change (List.foldl State.removeNode s _).nodes.get? uuid = _
      rw [foldl_removeNode_get?, if_neg]
      · exact hnode
      -- the rows that go are in no instance, and no claim has inserted or loaded one
      rintro ⟨gone, hmem, heq⟩
      obtain ⟨hvalue, hminer⟩ := List.mem_filter.1 hmem
      have hminer := of_decide_eq_true hminer
      obtain ⟨c, hc, loaded, hloaded, hid⟩ := hu.exists_loaded
        (heq ▸ hfree gone hvalue hminer) fun hisHeld => hheld
          (List.any_eq_true.2 ⟨gone, hvalue, by rw [decide_eq_true hminer, heq, hisHeld]; rfl⟩)
      obtain ⟨iid, hget⟩ := Dict.mem_values.1 hc
      obtain ⟨row, hrow, hkeeps, -⟩ := h.loaded iid c hget loaded hloaded
      obtain ⟨key, hkey⟩ := Dict.mem_values.1 hvalue
      have hsame : gone = row := by
        have hgoneKey := hi.key key gone hkey
        rw [hid, ← heq, hgoneKey, hkey] at hrow
        exact Option.some.inj hrow
      have hall := hok c hc
      rw [Option.mem_def.1 hloaded] at hall
      simp only [Option.all_some, decide_eq_true_eq] at hall
      exact hall (hkeeps.minerHotkey.symm.trans (hsame ▸ hminer))
  | check id req =>
    obtain ⟨hotkey, -, rfl⟩ := check_eq_some hs
    exact h.frame ⟨rfl, rfl, rfl⟩ fun _ node hnode _ => ⟨node, hnode, .refl node⟩
  | create id =>
    obtain ⟨post, -, rfl | ⟨nodes, hcreated, rfl⟩⟩ := create_eq_some hs
    · exact h.frame ⟨rfl, rfl, rfl⟩ fun _ node hnode _ => ⟨node, hnode, .refl node⟩
    · exact h.frame ⟨rfl, rfl, rfl⟩ fun _ node hnode _ =>
        ⟨node, hcreated.get?_of_some hnode, .refl node⟩
  | delete hotkey uuid originIp seen =>
    obtain ⟨hheld, hs⟩ := Option.ite_none_left_eq_some.1 hs
    obtain ⟨node, hnode, -, hcase⟩ := deleteNode_eq_ok (toOption_eq_some.1 hs)
    obtain rfl := hi.key uuid node hnode
    have hunloaded : ¬∃ c ∈ s.claims.values, ∃ loaded ∈ c.loaded,
        loaded.args.uuid = node.args.uuid := by
      rintro ⟨c, hc, loaded, hloaded, heq⟩
      have hall := hok c hc
      rw [Option.mem_def.1 hloaded] at hall
      simp only [Option.all_some, decide_eq_true_eq] at hall
      exact hall heq
    rcases hcase with ⟨hnone, rfl⟩ | ⟨iid, hiid, rfl⟩
    · exact h.removeNode fun hu =>
        hunloaded (hu.exists_loaded (Dict.get?_eq_none.1 hnone) hheld)
    · have hlost : Serving { s with
          instanceNodes := s.instanceNodes.pop node.args.uuid
          lost := (iid, node.args.uuid) :: s.lost } := by
        refine h.unassign ⟨rfl, rfl⟩ fun uuid iid' hiid' => ⟨?_, rfl⟩
        rw [Dict.get?_pop] at hiid'
        split at hiid'
        · cases hiid'
        · exact hiid'
      refine hlost.removeNode fun hu => ?_
      have hfree : node.args.uuid ∉ (s.instanceNodes.pop node.args.uuid).keys :=
        Dict.get?_eq_none.1 (by rw [Dict.get?_pop, if_pos rfl])
      obtain ⟨c, hc, hloaded⟩ := hu.exists_loaded hfree hheld
      exact hunloaded ⟨c, hc, hloaded⟩
  | load task uuids =>
    obtain ⟨-, hs⟩ := Option.ite_none_right_eq_some.1 hs
    obtain rfl := Option.some.inj hs
    exact h.frame ⟨rfl, rfl, rfl⟩ fun _ node hnode _ => ⟨node, hnode, .refl node⟩
  | finish task challenge message newSeed =>
    obtain ⟨t, -, rfl⟩ := Option.map_eq_some_iff.1 hs
    refine h.frame ?_ fun uuid node hnode _ =>
      finish_nodes cfg t challenge message newSeed uuid node hnode
    unfold State.finish
    split
    · exact ⟨rfl, rfl, rfl⟩
    · split <;> exact ⟨rfl, rfl, rfl⟩
  | begin iid args =>
    obtain ⟨-, hs⟩ := Option.ite_none_left_eq_some.1 hs
    obtain ⟨c, hc, rfl⟩ := Option.map_eq_some_iff.1 hs
    obtain ⟨-, rfl⟩ := begin_eq_ok (toOption_eq_some.1 hc)
    exact h.setClaim (by simp)
  | validate iid =>
    simp only [State.step] at hs
    split at hs
    · next args nodeId todo nodes hc =>
      split at hs
      · next node hnode =>
        obtain rfl := Option.some.inj hs
        obtain ⟨hget, -, hserves⟩ := validateNode_eq_ok hnode
        refine h.setClaim fun node' hmem => ?_
        rcases List.mem_append.1 hmem with hmem | hmem
        · exact h.inserted iid _ hc node' hmem
        · obtain rfl := Option.some.inj (Option.mem_toList.1 hmem)
          rw [hi.key nodeId node hget]
          exact ⟨node, hget, .refl node, hserves⟩
      · obtain rfl := Option.some.inj hs
        exact h.dropClaim iid
    · cases hs
  | insert iid =>
    simp only [State.step] at hs
    split at hs
    · next args todo node nodes hc =>
      obtain ⟨-, hs⟩ := Option.ite_none_left_eq_some.1 hs
      split at hs
      · next c hinsert =>
        obtain rfl := Option.some.inj hs
        obtain ⟨-, -, rfl⟩ := insertNode_eq_ok hinsert
        refine h.setClaim fun node' hmem => ?_
        simp only [Option.toList_none, List.append_nil, List.mem_append, List.mem_singleton] at hmem
        rcases hmem with hmem | rfl
        · exact h.inserted iid _ hc node' hmem
        · exact h.loaded iid _ hc node' rfl
      · obtain rfl := Option.some.inj hs
        exact h.dropClaim iid
    · cases hs
  | commit iid =>
    simp only [State.step] at hs
    split at hs
    · next args nodes hc =>
      split at hs
      · next hhosts =>
        obtain rfl := Option.some.inj hs
        exact h.commit hi hc hhosts
      · obtain rfl := Option.some.inj hs
        exact h.dropClaim iid
    · cases hs
  | abort iid =>
    obtain ⟨-, hs⟩ := Option.ite_none_right_eq_some.1 hs
    obtain rfl := Option.some.inj hs
    exact h.dropClaim iid
  | deleteInstance iid =>
    obtain rfl := Option.some.inj hs
    refine h.unassign ⟨rfl, rfl⟩ fun uuid iid' hiid' => ?_
    simp only [State.deleteInstance, Dict.get?_filter, Option.filter_eq_some_iff] at hiid'
    refine ⟨hiid'.1, ?_⟩
    simp only [State.deleteInstance, Dict.get?_pop]
    exact if_neg (by simpa using hiid'.2)

/-- **What an instance runs on.** In a run without torn checks, every GPU an
instance has is one its miner posted, is verified, fits the chute's selector
and is on the host of the instance. -/
theorem serves {as : List Action} (h : (system cfg w).Reach Untorn as s) :
    ∀ iid args, s.instances.get? iid = some args → ∀ uuid ∈ args.nodeIds, (iid, uuid) ∉ s.lost →
      ∃ node, s.nodes.get? uuid = some node ∧ Serves node args ∧
        lower node.args.verificationHost = lower args.host := by
  have hboth : Inv s ∧ Serving s := by
    refine h.invariant (I := fun s => Inv s ∧ Serving s) (fun s₀ h0 => ?_)
      fun _ _ _ hi hok hs => ⟨hi.1.step hs, hi.2.step hi.1 hok hs⟩
    obtain rfl : s₀ = initial w := h0
    exact ⟨inv_initial, serving_initial⟩
  intro iid args hargs uuid hin hlost
  have hiid := (hboth.1.whole iid args hargs uuid hin).2 hlost
  obtain ⟨args', node, hargs', hnode, hserves, hhost⟩ := hboth.2.assigned uuid iid hiid
  obtain rfl := Option.some.inj (hargs.symm.trans hargs')
  exact ⟨node, hnode, hserves, hhost⟩

section

theorem serves_race : ∃ node, raced.nodes.get? "g1" = some node ∧ Serves node twoGpus ∧
    lower node.args.verificationHost = lower "1.2.3.4" := by
  have hrun : (system lenient .asciiOnly).Meets Untorn (initial .asciiOnly) race ∧
      ((system lenient .asciiOnly).exec (initial .asciiOnly) race).isSome ∧
      raced.instances.get? "i" = some twoGpus ∧ ("i", "g1") ∉ raced.lost := by
    decide +kernel
  obtain ⟨hmeets, hexec, hargs, hlost⟩ := hrun
  exact serves (Lts.reach_getD_exec rfl hmeets hexec) "i" twoGpus hargs "g1"
    (List.mem_cons_self) hlost

/-- A check is torn: the GPU is posted anew by another miner, and taken with
neither its hotkey nor a verification. -/
private def torn : List Action :=
  posted ++ [.begin "i" { twoGpus with selector := {}, nodeIds := ["g1"], nodup := by decide },
    .validate "i", .delete "5A" "g1" "" none, .register "5B" none,
    .check 1 ⟨some "5B", none, [h100 "g1"], 7⟩, .create 1, .insert "i", .commit "i"]

example : ((system lenient .asciiOnly).exec (initial .asciiOnly) torn).map (fun s =>
    (s.instanceNodes.items, (s.nodes.get? "g1").map fun node =>
      (node.minerHotkey, node.verifiedAt)))
      = some ([("g1", "i")], some ("5B", none)) := by
  decide +kernel

end

end Inventory

end ChutesApi
