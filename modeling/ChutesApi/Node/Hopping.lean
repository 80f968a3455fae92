import ChutesApi.Node.Operations
import Mathlib.Data.List.Pairwise
import Mathlib.Data.List.Perm.Subperm
/-!
# GPUs that hop between hotkeys

A post is refused if the GPU has been posted more than twice within 24 hours,
by two hotkeys at least, where the latest of these posts does not count if
it is of the hotkey that posts again. So a GPU changes hands twice at most
within any 24 hours (`changes_le_two`), in the runs in which no two posts of
one GPU overlap or fall in one microsecond. Between the query of a post and
its insertion the check of the hosts is awaited: of two posts that overlap,
neither query sees what the other one inserts, and the last example is of
such a run.
-/

namespace ChutesApi

open Python

namespace Inventory

/-! ## Changes of hands -/

/-- How often two neighbours of a list differ. -/
def changes : List String → ℕ
  | a :: b :: l => (if a = b then 0 else 1) + changes (b :: l)
  | _ => 0

variable {l : List String} {a b : String}

theorem changes_concat (l : List String) (a b : String) :
    changes (l ++ [a, b]) = changes (l ++ [a]) + if a = b then 0 else 1 := by
  induction l with
  | nil => simp [changes]
  | cons c l ih =>
    rcases l with _ | ⟨d, l⟩
    · simp [changes]
    · simp only [List.cons_append, changes] at ih ⊢
      omega

/-- A list that changes has more places than changes. -/
theorem changes_lt_length (h : l ≠ []) : changes l < l.length := by
  induction l with
  | nil => exact absurd rfl h
  | cons a l ih =>
    rcases l with _ | ⟨b, l⟩
    · simp [changes]
    · have := ih (List.cons_ne_nil b l)
      simp only [changes, List.length_cons] at this ⊢
      split <;> omega

/-- And two different members. -/
theorem exists_ne_of_changes (h : changes l ≠ 0) : ∃ a ∈ l, ∃ b ∈ l, a ≠ b := by
  induction l with
  | nil => exact absurd rfl h
  | cons a l ih =>
    rcases l with _ | ⟨b, l⟩
    · exact absurd rfl h
    · by_cases hab : a = b
      · simp only [changes, if_pos hab, zero_add] at h
        obtain ⟨c, hc, d, hd, hne⟩ := ih h
        exact ⟨c, List.mem_cons_of_mem a hc, d, List.mem_cons_of_mem a hd, hne⟩
      · exact ⟨a, List.mem_cons_self, b, by simp, hab⟩

theorem two_le_length_dedup (ha : a ∈ l) (hb : b ∈ l) (hne : a ≠ b) : 2 ≤ l.dedup.length := by
  have hsub : [a, b] ⊆ l.dedup := by
    intro c hc
    rw [List.mem_dedup]
    rcases List.mem_cons.1 hc with rfl | hc
    · exact ha
    · rw [List.mem_singleton.1 hc]
      exact hb
  have hnodup : [a, b].Nodup := by simpa using hne
  exact (List.Nodup.subperm hnodup hsub).length_le

/-! ## The postings of a GPU -/

variable {w : WordChars} {cfg : Config} {s s' : State w}

/-- The hotkeys that posted a GPU and when, in order. -/
def postingsOf (history : List HistoryEntry) (uuid : String) : List (String × ℕ) :=
  (history.filter fun e => e.nodeId = uuid).map fun e => (e.minerHotkey, e.createdAt)

def State.postings (s : State w) (uuid : String) : List (String × ℕ) := postingsOf s.history uuid

/-- **What the queries of a post have found**, and that it began after what
they have read. -/
structure Post.Checked (post : Post) : Prop where
  later : ∀ e ∈ post.history, e.createdAt < post.now
  notHopping : hoppingNodes post.history post.now post.hotkey
    (post.req.nodes.map NodeArgs.uuid) = []

/-- Those within 24 hours. -/
def window (t : ℕ) (postings : List (String × ℕ)) : List (String × ℕ) :=
  postings.filter fun e => t ≤ e.2 ∧ e.2 ≤ t + day

/-- **The invariant of the history**: it is in order, and no 24 hours of it
have more than two changes of hands. -/
structure Settled (s : State w) : Prop where
  posts : ∀ id post, s.posts.get? id = some post → post.Checked
  ordered : ∀ uuid, (s.postings uuid).Pairwise fun e e' => e.2 < e'.2
  changes : ∀ uuid t, changes ((window t (s.postings uuid)).map Prod.fst) ≤ 2

theorem settled_initial : Settled (initial w) where
  posts _ _ h := by cases h
  ordered _ := by simp [State.postings, postingsOf, initial]
  changes _ _ := by simp [window, State.postings, postingsOf, initial, Inventory.changes]

/-- A history with the same postings, and the posts that are under way. -/
theorem Settled.frame (h : Settled s) (hposts : s'.posts = s.posts)
    (hsame : s'.history.map (fun e => (e.nodeId, e.minerHotkey, e.createdAt)) =
      s.history.map fun e => (e.nodeId, e.minerHotkey, e.createdAt)) : Settled s' := by
  have hpostings : ∀ uuid, s'.postings uuid = s.postings uuid := by
    intro uuid
    have hproj : ∀ history : List HistoryEntry, postingsOf history uuid =
        ((history.map fun e => (e.nodeId, e.minerHotkey, e.createdAt)).filter
          fun e => e.1 = uuid).map Prod.snd := by
      intro history
      simp [postingsOf, List.filter_map, Function.comp_def]
    rw [State.postings, State.postings, hproj, hproj, hsame]
  exact ⟨hposts ▸ h.posts, fun uuid => hpostings uuid ▸ h.ordered uuid,
    fun uuid t => hpostings uuid ▸ h.changes uuid t⟩

/-- A deletion notes when, and nothing else. -/
theorem deleteEntry_map (history : List HistoryEntry) (now : ℕ) (node : Node w) :
    (deleteEntry history now node).map (fun e => (e.nodeId, e.minerHotkey, e.createdAt)) =
      history.map fun e => (e.nodeId, e.minerHotkey, e.createdAt) := by
  unfold deleteEntry
  split
  · rfl
  · rw [List.map_map]
    refine List.map_congr_left fun e _ => ?_
    simp only [Function.comp_apply]
    split <;> rfl

theorem foldl_removeNode_history (gone : List (Node w)) (s : State w) :
    (gone.foldl State.removeNode s).history.map
        (fun e => (e.nodeId, e.minerHotkey, e.createdAt)) =
      s.history.map fun e => (e.nodeId, e.minerHotkey, e.createdAt) := by
  induction gone generalizing s with
  | nil => rfl
  | cons node gone ih => exact (ih (s.removeNode node)).trans (deleteEntry_map _ _ node)

/-! ## A post -/

/-- The latest of rows in order is the last one. -/
theorem argmax_of_pairwise {rows : List HistoryEntry} {last : HistoryEntry}
    (h : (rows ++ [last]).Pairwise fun e e' => e.createdAt < e'.createdAt) :
    (rows ++ [last]).argmax HistoryEntry.createdAt = some last := by
  rcases hmax : (rows ++ [last]).argmax HistoryEntry.createdAt with _ | latest
  · exact absurd (List.argmax_eq_none.1 hmax) (by simp)
  · have hle : last.createdAt ≤ latest.createdAt :=
      List.le_of_mem_argmax (List.mem_append_right rows (List.mem_singleton_self last)) hmax
    rcases List.mem_append.1 (List.argmax_mem hmax) with hmem | hmem
    · have hlt := (List.pairwise_append.1 h).2.2 latest hmem last (List.mem_singleton_self last)
      omega
    · rw [List.mem_singleton.1 hmem]

/-- **A post that is taken** after the GPU was last posted by another: there
was one change of hands at most in the 24 hours before. -/
theorem Post.Checked.changes {post : Post} {other uuid : String} {t time : ℕ}
    {front : List (String × ℕ)} (h : post.Checked)
    (hordered : (postingsOf post.history uuid).Pairwise fun e e' => e.2 < e'.2)
    (huuid : uuid ∈ post.req.nodes.map NodeArgs.uuid) (hother : other ≠ post.hotkey)
    (hpostings : postingsOf post.history uuid = front ++ [(other, time)])
    (htime : t ≤ time) (ht : post.now ≤ t + day) :
    Inventory.changes (((postingsOf post.history uuid).filter fun e => t ≤ e.2).map Prod.fst) ≤
      1 := by
  set rows := recent post.history post.now uuid with hrows
  have hproj : rows.map (fun e => (e.minerHotkey, e.createdAt)) =
      (postingsOf post.history uuid).filter fun e => post.now ≤ e.2 + day := by
    simp [hrows, recent, postingsOf, List.filter_map, Function.comp_def, List.filter_filter,
      Bool.and_comm]
  -- what counts for the window is among the rows
  have hsub : ((postingsOf post.history uuid).filter fun e => t ≤ e.2).Sublist
      (rows.map fun e => (e.minerHotkey, e.createdAt)) := by
    rw [hproj]
    refine List.monotone_filter_right _ fun e he => ?_
    have := of_decide_eq_true he
    exact decide_eq_true (by omega)
  -- and the last of them is of the other hotkey, so that none is left out
  have hcounted : counted rows post.hotkey = rows := by
    have hlast : rows.map (fun e => (e.minerHotkey, e.createdAt)) =
        front.filter (fun e => post.now ≤ e.2 + day) ++ [(other, time)] := by
      have hin : post.now ≤ time + day := by omega
      rw [hproj, hpostings, List.filter_append]
      simp [hin]
    obtain ⟨before, last, rfl', -, hlast⟩ := List.map_eq_append_iff.1 hlast
    obtain ⟨latest, rfl, heq⟩ := List.map_eq_singleton_iff.1 hlast
    have hpairwise : rows.Pairwise fun e e' => e.createdAt < e'.createdAt := by
      have := hordered.filter fun e => decide (post.now ≤ e.2 + day)
      rwa [← hproj, List.pairwise_map] at this
    rw [rfl'] at hpairwise ⊢
    unfold counted
    rw [argmax_of_pairwise hpairwise]
    exact if_neg fun hsame => hother ((Prod.mk.inj heq).1.symm.trans hsame)
  have hfine : isHopping (counted rows post.hotkey) = false := by
    by_contra hnot
    have hmem : (uuid, (counted rows post.hotkey).length) ∈ hoppingNodes post.history post.now
        post.hotkey (post.req.nodes.map NodeArgs.uuid) := by
      unfold hoppingNodes
      rw [List.mem_insertionSort, List.mem_map]
      refine ⟨(uuid, counted rows post.hotkey), List.mem_filter.2 ⟨?_, by simpa using hnot⟩, rfl⟩
      exact List.mem_map.2 ⟨uuid, List.mem_dedup.2 huuid, rfl⟩
    rw [h.notHopping] at hmem
    exact absurd hmem (by simp)
  by_contra hmany
  have hne : (((postingsOf post.history uuid).filter fun e => t ≤ e.2).map Prod.fst) ≠ [] := by
    intro hnil
    rw [hnil] at hmany
    exact hmany (Nat.zero_le 1)
  have hlength := changes_lt_length hne
  obtain ⟨a, ha, b, hb, hab⟩ := exists_ne_of_changes (l := ((postingsOf post.history uuid).filter
    fun e => t ≤ e.2).map Prod.fst) (by omega)
  have hrowsLength := hsub.length_le
  rw [List.length_map] at hlength hrowsLength
  have hhotkeys : ((postingsOf post.history uuid).filter fun e => t ≤ e.2).map Prod.fst ⊆
      rows.map HistoryEntry.minerHotkey := by
    have := (hsub.map Prod.fst).subset
    rwa [List.map_map] at this
  have hdistinct := two_le_length_dedup (hhotkeys ha) (hhotkeys hb) hab
  rw [hcounted] at hfine
  unfold isHopping at hfine
  rw [Bool.and_eq_false_iff, decide_eq_false_iff_not, decide_eq_false_iff_not] at hfine
  omega

/-- The postings once a post is taken. -/
theorem postings_of_created {post : Post} {nodes : List (Node w)}
    (hcreated : Created cfg s post nodes) (uuid : String) (s' : State w)
    (hs' : s'.history = s.history ++ nodes.map (Node.entry post.now)) :
    s'.postings uuid = s.postings uuid ∨ uuid ∈ post.req.nodes.map NodeArgs.uuid ∧
      s'.postings uuid = s.postings uuid ++ [(post.hotkey, post.now)] := by
  have hnew : (nodes.map (Node.entry post.now)).filter (fun e => e.nodeId = uuid) =
      (nodes.filter fun node => node.args.uuid = uuid).map (Node.entry post.now) := by
    rw [List.filter_map]
    rfl
  rw [State.postings, postingsOf, hs', List.filter_append, List.map_append, hnew]
  rcases hfilter : nodes.filter fun node => node.args.uuid = uuid with _ | ⟨node, rest⟩
  · left
    rw [hfilter]
    simp [State.postings, postingsOf]
  · right
    have hall : ∀ node' ∈ node :: rest, node' ∈ nodes ∧ node'.args.uuid = uuid := by
      rw [← hfilter]
      intro node' hmem
      simpa using hmem
    have hmem := hall node List.mem_cons_self
    have hrest : rest = [] := by
      have hnodup := hcreated.distinct.filter fun u => decide (u = uuid)
      rw [List.filter_map] at hnodup
      have hlist : nodes.filter ((fun u => decide (u = uuid)) ∘ fun node => node.args.uuid) =
          node :: rest := hfilter
      rw [hlist, List.map_cons, List.nodup_cons] at hnodup
      rcases rest with _ | ⟨other, rest⟩
      · rfl
      · have hother := hall other (by simp)
        exact absurd (by simp [hmem.2, hother.2]) hnodup.1
    refine ⟨?_, ?_⟩
    · rw [← hcreated.args, List.map_map]
      exact List.mem_map.2 ⟨node, hmem⟩
    · rw [hfilter, hrest]
      simp [Node.entry, State.postings, postingsOf, (hcreated.rows node hmem.1).1]

/-- **No two posts of one GPU overlap**, and none begins in the microsecond of
an earlier one: what a post's query has read of a GPU is what there is of it
when the post is inserted. -/
def Ticking (s : State w) : Action → Prop
  | .check _ _ => ∀ e ∈ s.history, e.createdAt < s.now
  | .create id => ∀ post ∈ s.posts.get? id, ∀ uuid ∈ post.req.nodes.map NodeArgs.uuid,
    s.postings uuid = postingsOf post.history uuid
  | _ => True

instance (s : State w) (a : Action) : Decidable (Ticking s a) := by
  unfold Ticking
  split <;> infer_instance

/-- **One more posting**, later than those there are. -/
theorem Settled.create {id : ℕ} (h : Settled s) (hok : Ticking s (.create id))
    (hs : s.step cfg (.create id) = some s') : Settled s' := by
  obtain ⟨post, hpost, rfl | ⟨nodes, hcreated, hs'⟩⟩ := create_eq_some hs
  · refine ⟨fun id' post' h' => ?_, h.ordered, h.changes⟩
    rw [Dict.get?_pop] at h'
    exact h.posts id' post' (Option.ite_none_left_eq_some.1 h').2
  have hchecked := h.posts id post hpost
  replace hok := hok post hpost
  have hcases := fun uuid => postings_of_created hcreated uuid s' (by rw [hs'])
  have hearlier : ∀ uuid ∈ post.req.nodes.map NodeArgs.uuid, ∀ e ∈ s.postings uuid,
      e.2 < post.now := by
    intro uuid huuid e he
    rw [hok uuid huuid] at he
    obtain ⟨entry, hentry, rfl⟩ := List.mem_map.1 he
    exact hchecked.later entry (List.mem_filter.1 hentry).1
  refine ⟨fun id' post' h' => ?_, fun uuid => ?_, fun uuid t => ?_⟩
  · rw [hs', Dict.get?_pop] at h'
    exact h.posts id' post' (Option.ite_none_left_eq_some.1 h').2
  · rcases hcases uuid with heq | ⟨huuid, heq⟩
    · rw [heq]
      exact h.ordered uuid
    · rw [heq, List.pairwise_append]
      refine ⟨h.ordered uuid, List.pairwise_singleton .., fun e he e' he' => ?_⟩
      rw [List.mem_singleton.1 he']
      exact hearlier uuid huuid e he
  · rcases hcases uuid with heq | ⟨huuid, heq⟩
    · rw [heq]
      exact h.changes uuid t
    rw [heq]
    have hold := h.changes uuid t
    unfold window at hold ⊢
    rw [List.filter_append, List.map_append]
    by_cases hin : t ≤ post.now ∧ post.now ≤ t + day
    · -- all that is not before the window is in it
      have hupper : (s.postings uuid).filter (fun e => t ≤ e.2 ∧ e.2 ≤ t + day) =
          (s.postings uuid).filter fun e => t ≤ e.2 := by
        refine List.filter_congr fun e he => ?_
        have := hearlier uuid huuid e he
        exact decide_eq_decide.2 ⟨And.left, fun hle => ⟨hle, by omega⟩⟩
      rw [hupper] at hold ⊢
      simp only [hin, and_self, decide_true, List.filter_cons_of_pos, List.filter_nil,
        List.map_cons, List.map_nil]
      rcases List.eq_nil_or_concat (s.postings uuid) with hnil | ⟨front, ⟨other, time⟩, hlast⟩
      · simp [hnil, Inventory.changes]
      rw [List.concat_eq_append] at hlast
      by_cases htime : t ≤ time
      · have hsplit : ((s.postings uuid).filter fun e => t ≤ e.2).map Prod.fst =
            (front.filter fun e => t ≤ e.2).map Prod.fst ++ [other] := by
          simp [hlast, htime]
        have hconcat := changes_concat ((front.filter fun e => t ≤ e.2).map Prod.fst) other
          post.hotkey
        rw [hsplit] at hold ⊢
        rw [List.append_assoc, List.singleton_append, hconcat]
        by_cases hother : other = post.hotkey
        · rw [if_pos hother]
          omega
        · -- what the query has read is what there is of this GPU
          have hsame := hok uuid huuid
          have hordered := h.ordered uuid
          rw [hsame] at hordered hlast
          have hone := hchecked.changes hordered huuid hother hlast htime hin.2
          rw [← hsame, hsplit] at hone
          rw [if_neg hother]
          omega
      · have hnone : (s.postings uuid).filter (fun e => t ≤ e.2) = [] := by
          rw [List.filter_eq_nil_iff]
          intro e he hle
          have hordered := h.ordered uuid
          rw [hlast] at he hordered
          have hle := of_decide_eq_true hle
          rcases List.mem_append.1 he with he | he
          · have := (List.pairwise_append.1 hordered).2.2 e he _ (List.mem_singleton_self _)
            simp only at this
            omega
          · rw [List.mem_singleton.1 he] at hle
            exact htime hle
        rw [hnone]
        simp [Inventory.changes]
    · simp only [hin, decide_false, Bool.false_eq_true, not_false_eq_true,
        List.filter_cons_of_neg, List.filter_nil, List.map_nil, List.append_nil]
      exact hold

theorem Settled.step (h : Settled s) {a : Action} (hok : Ticking s a)
    (hs : s.step cfg a = some s') : Settled s' := by
  cases a with
  | tick d =>
    obtain rfl := Option.some.inj hs
    exact h.frame rfl rfl
  | check id req =>
    obtain ⟨hotkey, hhopping, rfl⟩ := check_eq_some hs
    refine ⟨fun id' post hpost => ?_, h.ordered, h.changes⟩
    rw [Dict.get?_set] at hpost
    split at hpost
    · obtain rfl := Option.some.inj hpost
      exact ⟨hok, hhopping⟩
    · exact h.posts id' post hpost
  | create id => exact h.create hok hs
  | deregister hotkey =>
    obtain ⟨-, hs⟩ := Option.ite_none_left_eq_some.1 hs
    obtain ⟨-, rfl⟩ := deregister_eq_ok (toOption_eq_some.1 hs)
    obtain ⟨nodes, history, hframe⟩ :=
      foldl_removeNode_frame (s := s) (s.nodes.values.filter (·.minerHotkey = hotkey))
    refine h.frame ?_ (foldl_removeNode_history _ s)
    rw [hframe]
  | delete hotkey uuid originIp seen =>
    obtain ⟨-, hs⟩ := Option.ite_none_left_eq_some.1 hs
    obtain ⟨node, -, -, ⟨-, rfl⟩ | ⟨iid, -, rfl⟩⟩ := deleteNode_eq_ok (toOption_eq_some.1 hs)
    · exact h.frame rfl (deleteEntry_map _ _ node)
    · exact h.frame rfl (deleteEntry_map _ _ node)
  | finish task challenge message newSeed =>
    obtain ⟨t, -, rfl⟩ := Option.map_eq_some_iff.1 hs
    unfold State.finish
    split
    · exact h.frame rfl rfl
    · split <;> exact h.frame rfl rfl
  | register hotkey reason =>
    obtain rfl := Option.some.inj hs
    exact h.frame rfl rfl
  | load task uuids =>
    obtain ⟨-, hs⟩ := Option.ite_none_right_eq_some.1 hs
    obtain rfl := Option.some.inj hs
    exact h.frame rfl rfl
  | begin iid args =>
    obtain ⟨-, hs⟩ := Option.ite_none_left_eq_some.1 hs
    obtain ⟨c, -, rfl⟩ := Option.map_eq_some_iff.1 hs
    exact h.frame rfl rfl
  | validate iid =>
    simp only [State.step] at hs
    split at hs
    · split at hs <;> obtain rfl := Option.some.inj hs <;> exact h.frame rfl rfl
    · cases hs
  | insert iid =>
    simp only [State.step] at hs
    split at hs
    · obtain ⟨-, hs⟩ := Option.ite_none_left_eq_some.1 hs
      split at hs <;> obtain rfl := Option.some.inj hs <;> exact h.frame rfl rfl
    · cases hs
  | commit iid =>
    simp only [State.step] at hs
    split at hs
    · split at hs <;> obtain rfl := Option.some.inj hs <;> exact h.frame rfl rfl
    · cases hs
  | abort iid =>
    obtain ⟨-, hs⟩ := Option.ite_none_right_eq_some.1 hs
    obtain rfl := Option.some.inj hs
    exact h.frame rfl rfl
  | deleteInstance iid =>
    obtain rfl := Option.some.inj hs
    exact h.frame rfl rfl

/-- **A GPU changes hands twice at most within any 24 hours**, in the runs in
which no two posts of it overlap. -/
theorem changes_le_two {as : List Action} (h : (system cfg w).Reach Ticking as s) (uuid : String)
    (t : ℕ) : changes ((window t (s.postings uuid)).map Prod.fst) ≤ 2 := by
  have hsettled : Settled s := by
    refine h.invariant (fun s₀ h0 => ?_) fun _ _ _ hi hok hs => hi.step hok hs
    obtain rfl : s₀ = initial w := h0
    exact settled_initial
  exact hsettled.changes uuid t

section

/-- GPUs count as verified at once. -/
private def unverified : Config where
  skipGpuVerification := true
  deviceInfoChallengeCount := 0
  isValidHost _ := true
  verifyDeviceInfo _ _ _ := false
  checkProof _ _ _ := false

/-- A post of one GPU, a second later. -/
private def post (hotkey : String) : List Action :=
  [.tick 1000000, .check 0 ⟨some hotkey, none, [⟨"g", "NVIDIA GeForce RTX 3090", 25769803776, 82,
    .finite 1695000, "3090", "1.2.3.4", 8000⟩], 7⟩, .create 0]

/-- The GPU goes from one miner to another and back. -/
private def hopped : List Action :=
  [.register "5A" none, .register "5B" none] ++ post "5A" ++ [.delete "5A" "g" "" none] ++
    post "5B" ++ [.delete "5B" "g" "" none] ++ post "5A" ++ [.delete "5A" "g" "" none]

private def afterHops : State .asciiOnly :=
  ((system unverified .asciiOnly).exec (initial .asciiOnly) hopped).getD (initial .asciiOnly)

theorem changes_le_two_hopped :
    changes ((window 0 (afterHops.postings "g")).map Prod.fst) ≤ 2 ∧
      changes ((window 0 (afterHops.postings "g")).map Prod.fst) = 2 :=
  ⟨changes_le_two (Lts.reach_getD_exec rfl (by decide +kernel) (by decide +kernel)) "g" 0,
    by decide +kernel⟩

/-- The query of a post that the other miner has under way since before. -/
private def overlapping : List Action :=
  [.register "5A" none, .register "5B" none] ++ post "5A" ++ [.delete "5A" "g" "" none] ++
    post "5B" ++ [.delete "5B" "g" "" none, .tick 1000000, .check 1 ⟨some "5B", none,
      [⟨"g", "NVIDIA GeForce RTX 3090", 25769803776, 82, .finite 1695000, "3090", "1.2.3.4", 8000⟩],
      7⟩] ++ post "5A" ++ [.delete "5A" "g" "" none, .create 1]

/-- Then the other miner is refused, and the one that had it last is not; but
a post that was under way before is inserted, and is a third change. -/
example : ((system unverified .asciiOnly).exec afterHops (post "5B")).isSome = false ∧
    ((system unverified .asciiOnly).exec afterHops (post "5A")).isSome = true ∧
    ((system unverified .asciiOnly).exec (initial .asciiOnly) overlapping).map (fun s =>
      changes ((window 0 (s.postings "g")).map Prod.fst)) = some 3 := by
  decide +kernel

end

end Inventory

end ChutesApi
