import ChutesApi.Node.Assignment
/-!
# What a verification stands for

A GPU counts as verified once a task has challenged it. The task challenges
the rows it loaded, and then marks the rows that have their ids. In the runs
in which no GPU is deleted that a task under way has loaded, these are the
same: a GPU that is verified is one that its miner has proved to have, as it
posted it (`passed_of_verified`). Without that, a GPU that is posted anew
while the old one is challenged is verified unseen.
-/

namespace ChutesApi

open Python

namespace Inventory

variable {w : WordChars} {cfg : Config} {s s' : State w}

/-- A row says the same of the same miner's GPU. -/
structure Same (node node' : Node w) : Prop where
  args : node'.args = node.args
  minerHotkey : node'.minerHotkey = node.minerHotkey

/-- **A GPU that has met a task's challenges**: the device info challenges of
all the GPUs of its post, and in time a proof of its own for the seed of the
first of them. -/
structure Passed (cfg : Config) (node : Node w) (task : Task w) (challenge : Challenge) : Prop where
  loaded : ∃ loaded ∈ task.nodes, Same loaded node
  devices : challenge.deviceInfo.length = cfg.deviceInfoChallengeCount ∧
    ∀ info ∈ challenge.deviceInfo, info.status = 200 ∧
      cfg.verifyDeviceInfo (task.nodes.map Node.args) info.challenge info.response
  proof : ∃ first specs proof work, task.nodes.head? = some first ∧
    gpuSpecs.lookup first.args.gpuIdentifier = some specs ∧ challenge.proof = some proof ∧
    proof.status = 200 ∧ inTime specs.estimate proof.seconds ∧
    proof.plaintext node.args.uuid = some (challenge.plaintext node.args.uuid) ∧
    proof.workProduct node.args.uuid = some work ∧ cfg.checkProof node.args first.seed work

theorem Passed.same {node node' : Node w} {task : Task w} {challenge : Challenge}
    (h : Passed cfg node task challenge) (hsame : Same node node') :
    Passed cfg node' task challenge := by
  obtain ⟨⟨loaded, hloaded, hargs, hminer⟩, hdevices, hproof⟩ := h
  refine ⟨⟨loaded, hloaded, hsame.args.trans hargs, hsame.minerHotkey.trans hminer⟩, hdevices, ?_⟩
  rw [hsame.args]
  exact hproof

/-- What `verify_povw_challenge` has seen of each GPU. -/
theorem verifyPovwChallenge_eq_true {nodes : List (Node w)} {challenge : Challenge}
    (h : verifyPovwChallenge cfg nodes challenge = true) {node : Node w} (hmem : node ∈ nodes) :
    ∃ first specs proof work, nodes.head? = some first ∧
      gpuSpecs.lookup first.args.gpuIdentifier = some specs ∧ challenge.proof = some proof ∧
      proof.status = 200 ∧ inTime specs.estimate proof.seconds ∧
      proof.plaintext node.args.uuid = some (challenge.plaintext node.args.uuid) ∧
      proof.workProduct node.args.uuid = some work ∧ cfg.checkProof node.args first.seed work := by
  unfold verifyPovwChallenge at h
  split at h
  · next first rest proof hproof =>
    split at h
    · cases h
    · next specs hspecs =>
      simp only [Bool.and_eq_true, decide_eq_true_eq, List.all_eq_true, beq_iff_eq] at h
      obtain ⟨⟨⟨hstatus, hplain⟩, htime⟩, hwork⟩ := h
      obtain ⟨work, hget, hcheck⟩ := (Option.any_eq_true _ _).1 (hwork node hmem)
      exact ⟨first, specs, proof, work, rfl, hspecs, hproof, hstatus, htime, hplain node hmem, hget,
        hcheck⟩
  · cases h

/-- **No GPU is swapped**: none is deleted that a task under way has loaded. -/
def Unswapped (s : State w) : Action → Prop
  | .delete _ uuid _ _ => ∀ task ∈ s.tasks.values, uuid ∉ task.uuids
  | .deregister hotkey => ∀ task ∈ s.tasks.values, ∀ node ∈ task.nodes, node.minerHotkey ≠ hotkey
  | _ => True

instance (s : State w) (a : Action) : Decidable (Unswapped s a) :=
  match a with
  | .delete _ uuid _ _ => inferInstanceAs (Decidable (∀ task ∈ s.tasks.values, uuid ∉ task.uuids))
  | .deregister hotkey =>
    inferInstanceAs (Decidable
      (∀ task ∈ s.tasks.values, ∀ node ∈ task.nodes, node.minerHotkey ≠ hotkey))
  | .tick _ | .register _ _ | .check _ _ | .create _ | .load _ _ | .finish _ _ _ _ | .begin _ _
  | .validate _ | .insert _ | .commit _ | .abort _ | .deleteInstance _ => isTrue trivial

/-- **The invariant**: what is verified has met its challenges, and the rows a
task has loaded are still there. -/
structure Vouched (cfg : Config) (s : State w) : Prop where
  key : ∀ uuid node, s.nodes.get? uuid = some node → node.args.uuid = uuid
  verified : ∀ uuid node, s.nodes.get? uuid = some node → node.verifiedAt ≠ none →
    ∃ e ∈ s.met, Passed cfg node e.1 e.2
  tasks : ∀ t task, s.tasks.get? t = some task → ∀ uuid ∈ task.uuids,
    ∃ loaded ∈ task.nodes, ∃ node, s.nodes.get? uuid = some node ∧ Same loaded node

theorem vouched_initial : Vouched cfg (initial w) where
  key _ _ h := by cases h
  verified _ _ h := by cases h
  tasks _ _ h := by cases h

/-- **The rows a task has loaded stay, and no row is verified** that was not. -/
theorem Vouched.frame (h : Vouched cfg s) (hkey : ∀ uuid node, s'.nodes.get? uuid = some node →
      node.args.uuid = uuid)
    (hmet : ∀ e ∈ s.met, e ∈ s'.met)
    (hverified : ∀ uuid node', s'.nodes.get? uuid = some node' → node'.verifiedAt ≠ none →
      (∃ e ∈ s'.met, Passed cfg node' e.1 e.2) ∨
        ∃ node, s.nodes.get? uuid = some node ∧ node.verifiedAt ≠ none ∧ Same node node')
    (htasks : ∀ t task, s'.tasks.get? t = some task → s.tasks.get? t = some task ∧
      ∀ uuid ∈ task.uuids, ∀ node, s.nodes.get? uuid = some node →
        ∃ node', s'.nodes.get? uuid = some node' ∧ Same node node') : Vouched cfg s' := by
  refine ⟨hkey, fun uuid node' hnode' hv => ?_, fun t task ht uuid hu => ?_⟩
  · rcases hverified uuid node' hnode' hv with hnew | ⟨node, hnode, hv', hsame⟩
    · exact hnew
    · obtain ⟨e, he, hpassed⟩ := h.verified uuid node hnode hv'
      exact ⟨e, hmet e he, hpassed.same hsame⟩
  · obtain ⟨hold, hkeep⟩ := htasks t task ht
    obtain ⟨loaded, hmem, node, hnode, hsame⟩ := h.tasks t task hold uuid hu
    obtain ⟨node', hnode', hsame'⟩ := hkeep uuid hu node hnode
    exact ⟨loaded, hmem, node', hnode', hsame'.args.trans hsame.args,
      hsame'.minerHotkey.trans hsame.minerHotkey⟩

/-- Nothing that matters here has changed. -/
theorem Vouched.congr (h : Vouched cfg s) (hsame : s'.nodes = s.nodes ∧ s'.tasks = s.tasks ∧
    s'.met = s.met) : Vouched cfg s' := by
  obtain ⟨hnodes, htasks, hmet⟩ := hsame
  exact ⟨hnodes ▸ h.key, by rw [hnodes, hmet]; exact h.verified,
    by rw [hnodes, htasks]; exact h.tasks⟩

/-- Rows go that no task has loaded. -/
theorem Vouched.remove (h : Vouched cfg s) {gone : String → Prop} [DecidablePred gone]
    (hsame : s'.tasks = s.tasks ∧ s'.met = s.met)
    (hnodes : ∀ uuid, s'.nodes.get? uuid = if gone uuid then none else s.nodes.get? uuid)
    (hunloaded : ∀ t task, s.tasks.get? t = some task → ∀ uuid ∈ task.uuids, ¬gone uuid) :
    Vouched cfg s' := by
  obtain ⟨htasks, hmet⟩ := hsame
  have hold : ∀ uuid node, s'.nodes.get? uuid = some node → s.nodes.get? uuid = some node := by
    intro uuid node hnode
    rw [hnodes] at hnode
    exact (Option.ite_none_left_eq_some.1 hnode).2
  refine h.frame (fun uuid node hnode => h.key uuid node (hold uuid node hnode))
    (fun e he => hmet ▸ he) (fun uuid node hnode hv =>
      .inr ⟨node, hold uuid node hnode, hv, rfl, rfl⟩)
    fun t task ht => ?_
  rw [htasks] at ht
  refine ⟨ht, fun uuid hu node hnode => ⟨node, ?_, rfl, rfl⟩⟩
  rw [hnodes, if_neg (hunloaded t task ht uuid hu), hnode]

/-- **A task loads rows.** -/
theorem Vouched.load {t : ℕ} {uuids : List String} (h : Vouched cfg s)
    {queued : List (List String)} :
    Vouched cfg { s with
      queued := queued, tasks := (s.load uuids).elim s.tasks (s.tasks.set t) } := by
  refine ⟨h.key, h.verified, fun t' task ht' uuid hu => ?_⟩
  simp only at ht'
  rcases hload : s.load uuids with _ | loaded
  · rw [hload] at ht'
    exact h.tasks t' task ht' uuid hu
  · rw [hload, Option.elim_some, Dict.get?_set] at ht'
    split at ht'
    · obtain rfl := Option.some.inj ht'
      obtain ⟨hall, hloaded⟩ := Option.ite_none_left_eq_some.1 hload
      obtain rfl := Option.some.inj hloaded
      simp only [not_or, not_not] at hall
      obtain ⟨node, hnode⟩ := Option.isSome_iff_exists.1
        (List.filterMap_length_eq_length.1 hall.2 uuid hu)
      exact ⟨node, List.mem_filterMap.2 ⟨uuid, hu, hnode⟩, node, hnode, rfl, rfl⟩
    · exact h.tasks t' task ht' uuid hu

/-- An update that verifies nothing. -/
theorem Vouched.updateNodes (h : Vouched cfg s) (uuids : List String) (f : Node w → Node w)
    (hf : ∀ node, Same node (f node) ∧ (f node).verifiedAt = node.verifiedAt) :
    Vouched cfg (s.updateNodes uuids f) := by
  have hget : ∀ uuid node, s.nodes.get? uuid = some node →
      ∃ node', (s.updateNodes uuids f).nodes.get? uuid = some node' ∧ Same node node' ∧
        node'.verifiedAt = node.verifiedAt := by
    intro uuid node hnode
    unfold State.updateNodes
    rw [Dict.get?_map, hnode, Option.map_some]
    split
    · exact ⟨_, rfl, hf node⟩
    · exact ⟨_, rfl, ⟨rfl, rfl⟩, rfl⟩
  have hback : ∀ uuid node', (s.updateNodes uuids f).nodes.get? uuid = some node' →
      ∃ node, s.nodes.get? uuid = some node ∧ Same node node' ∧
        node'.verifiedAt = node.verifiedAt := by
    intro uuid node' hnode'
    obtain ⟨node, hnode⟩ : ∃ node, s.nodes.get? uuid = some node := by
      unfold State.updateNodes at hnode'
      rw [Dict.get?_map] at hnode'
      obtain ⟨node, hnode, -⟩ := Option.map_eq_some_iff.1 hnode'
      exact ⟨node, hnode⟩
    obtain ⟨node'', hnode'', hsame⟩ := hget uuid node hnode
    obtain rfl := Option.some.inj (hnode'.symm.trans hnode'')
    exact ⟨node, hnode, hsame⟩
  refine h.frame (fun uuid node' hnode' => ?_) (fun _ he => he) (fun uuid node' hnode' hv => ?_)
    fun t task ht => ⟨ht, fun uuid _ node hnode => ?_⟩
  · obtain ⟨node, hnode, hsame, -⟩ := hback uuid node' hnode'
    rw [hsame.args]
    exact h.key uuid node hnode
  · obtain ⟨node, hnode, hsame, hverified⟩ := hback uuid node' hnode'
    exact .inr ⟨node, hnode, hverified ▸ hv, hsame⟩
  · obtain ⟨node', hnode', hsame, -⟩ := hget uuid node hnode
    exact ⟨node', hnode', hsame⟩

/-- **A task marks the rows it has challenged.** -/
theorem Vouched.verify {t : ℕ} {task : Task w} {challenge : Challenge} (h : Vouched cfg s)
    (ht : s.tasks.get? t = some task)
    (hdevices : challenge.deviceInfo.length = cfg.deviceInfoChallengeCount ∧
      ∀ info ∈ challenge.deviceInfo, info.passes cfg task.nodes)
    (hproof : verifyPovwChallenge cfg task.nodes challenge = true) :
    Vouched cfg { s.updateNodes task.uuids fun node =>
        { node with verifiedAt := some s.now, verificationError := none } with
      met := (task, challenge) :: s.met } := by
  refine h.frame (fun uuid node' hnode' => ?_) (fun _ he => List.mem_cons_of_mem _ he)
    (fun uuid node' hnode' hv => ?_) fun t' task' ht' => ⟨ht', fun uuid _ node hnode => ?_⟩
  · simp only [State.updateNodes, Dict.get?_map, Option.map_eq_some_iff] at hnode'
    obtain ⟨node, hnode, rfl⟩ := hnode'
    split <;> exact h.key uuid node hnode
  · simp only [State.updateNodes, Dict.get?_map, Option.map_eq_some_iff] at hnode'
    obtain ⟨node, hnode, rfl⟩ := hnode'
    split at hv
    · next hu =>
      left
      refine ⟨(task, challenge), List.mem_cons_self, ?_⟩
      obtain ⟨loaded, hmem, row, hrow, hsame⟩ := h.tasks t task ht uuid hu
      obtain rfl := Option.some.inj (hnode.symm.trans hrow)
      rw [if_pos hu]
      have hpassed : Passed cfg loaded task challenge :=
        ⟨⟨loaded, hmem, rfl, rfl⟩, ⟨hdevices.1, fun info hinfo => by
          simpa [DeviceInfo.passes] using hdevices.2 info hinfo⟩,
          verifyPovwChallenge_eq_true hproof hmem⟩
      exact hpassed.same ⟨hsame.args, hsame.minerHotkey⟩
    · next hu =>
      right
      rw [if_neg hu]
      exact ⟨node, hnode, hv, rfl, rfl⟩
  · simp only [State.updateNodes, Dict.get?_map, hnode, Option.map_some, Option.some.injEq,
      exists_eq_left']
    split <;> exact ⟨rfl, rfl⟩

theorem Vouched.finish {t : ℕ} {task : Task w} {challenge : Challenge} (h : Vouched cfg s)
    (ht : s.tasks.get? t = some task) (message : String) (newSeed : ℕ) :
    Vouched cfg { s.finish cfg task challenge message newSeed with tasks := s.tasks.pop t } := by
  have hpop : ∀ {s' : State w}, Vouched cfg s' → s'.tasks = s.tasks →
      Vouched cfg { s' with tasks := s.tasks.pop t } := by
    intro s' h' htasks
    refine h'.frame h'.key (fun _ he => he)
      (fun uuid node hnode hv => .inr ⟨node, hnode, hv, rfl, rfl⟩) fun t' task' ht' => ?_
    simp only [Dict.get?_pop] at ht'
    rw [htasks]
    exact ⟨(Option.ite_none_left_eq_some.1 ht').2, fun _ _ node hnode => ⟨node, hnode, rfl, rfl⟩⟩
  unfold State.finish
  split
  · exact hpop (h.updateNodes _ _ fun node => ⟨⟨rfl, rfl⟩, rfl⟩) rfl
  · next hdevices =>
    rw [not_not] at hdevices
    split
    · exact hpop (h.updateNodes _ _ fun node => ⟨⟨rfl, rfl⟩, rfl⟩) rfl
    · next hproof => exact hpop (h.verify ht hdevices (not_not.1 hproof)) rfl

theorem Vouched.create {id : ℕ} (h : Vouched cfg s) (hcfg : cfg.skipGpuVerification = false)
    (hs : s.step cfg (.create id) = some s') : Vouched cfg s' := by
  obtain ⟨post, -, rfl | ⟨nodes, hcreated, rfl⟩⟩ := create_eq_some hs
  · exact h.frame h.key (fun _ he => he) (fun _ node hnode hv => .inr ⟨node, hnode, hv, rfl, rfl⟩)
      fun _ _ ht => ⟨ht, fun _ _ node hnode => ⟨node, hnode, rfl, rfl⟩⟩
  · refine h.frame (fun uuid node hnode => ?_) (fun _ he => he) (fun uuid node hnode hv => ?_)
      fun t task ht => ⟨ht, fun _ _ node hnode =>
        ⟨node, hcreated.get?_of_some hnode, rfl, rfl⟩⟩
    · rw [hcreated.get?] at hnode
      rcases Option.or_eq_some_iff.1 hnode with hfound | ⟨-, hold⟩
      · simpa using List.find?_some hfound
      · exact h.key uuid node hold
    · right
      rw [hcreated.get?] at hnode
      rcases Option.or_eq_some_iff.1 hnode with hfound | ⟨-, hold⟩
      · have hrow := (hcreated.rows node (List.mem_of_find?_eq_some hfound)).2
        rw [hcfg] at hrow
        exact absurd hrow hv
      · exact ⟨node, hold, hv, rfl, rfl⟩

theorem Vouched.step (h : Vouched cfg s) (hcfg : cfg.skipGpuVerification = false) {a : Action}
    (hok : Unswapped s a) (hs : s.step cfg a = some s') : Vouched cfg s' := by
  cases a with
  | check id req =>
    obtain ⟨hotkey, -, rfl⟩ := check_eq_some hs
    exact h.frame h.key (fun _ he => he) (fun _ node hnode hv => .inr ⟨node, hnode, hv, rfl, rfl⟩)
      fun _ _ ht => ⟨ht, fun _ _ node hnode => ⟨node, hnode, rfl, rfl⟩⟩
  | create id => exact h.create hcfg hs
  | deregister hotkey =>
    obtain ⟨-, hs⟩ := Option.ite_none_left_eq_some.1 hs
    obtain ⟨-, rfl⟩ := deregister_eq_ok (toOption_eq_some.1 hs)
    obtain ⟨nodes, history, hframe⟩ :=
      foldl_removeNode_frame (s := s) (s.nodes.values.filter (·.minerHotkey = hotkey))
    refine h.remove (by rw [hframe]; exact ⟨rfl, rfl⟩) (foldl_removeNode_get? _) ?_
    rintro t task ht uuid hu ⟨gone, hmem, heq⟩
    obtain ⟨hvalue, hminer⟩ := List.mem_filter.1 hmem
    obtain ⟨loaded, hloaded, node, hnode, hsame⟩ := h.tasks t task ht uuid hu
    obtain ⟨key, hkey⟩ := Dict.mem_values.1 hvalue
    have hgone : gone = node := by
      rw [← heq, h.key key gone hkey, hkey] at hnode
      exact Option.some.inj hnode
    refine hok task (Dict.mem_values.2 ⟨t, ht⟩) loaded hloaded ?_
    rw [← hsame.minerHotkey, ← hgone]
    exact of_decide_eq_true hminer
  | delete hotkey uuid originIp seen =>
    obtain ⟨-, hs⟩ := Option.ite_none_left_eq_some.1 hs
    obtain ⟨node, hnode, -, hcase⟩ := deleteNode_eq_ok (toOption_eq_some.1 hs)
    have hunloaded : ∀ t task, s.tasks.get? t = some task → ∀ uuid' ∈ task.uuids,
        ¬uuid' = node.args.uuid := by
      rintro t task ht uuid' hu rfl
      refine hok task (Dict.mem_values.2 ⟨t, ht⟩) ?_
      rw [← h.key uuid node hnode]
      exact hu
    rcases hcase with ⟨-, rfl⟩ | ⟨iid, -, rfl⟩
    · exact h.remove ⟨rfl, rfl⟩ (removeNode_get? node) hunloaded
    · exact h.remove ⟨rfl, rfl⟩ (removeNode_get? node) hunloaded
  | load task uuids =>
    obtain ⟨-, hs⟩ := Option.ite_none_right_eq_some.1 hs
    obtain rfl := Option.some.inj hs
    exact h.load
  | finish task challenge message newSeed =>
    obtain ⟨t, ht, rfl⟩ := Option.map_eq_some_iff.1 hs
    exact h.finish ht message newSeed
  | tick d =>
    obtain rfl := Option.some.inj hs
    exact h.congr ⟨rfl, rfl, rfl⟩
  | register hotkey reason =>
    obtain rfl := Option.some.inj hs
    exact h.congr ⟨rfl, rfl, rfl⟩
  | begin iid args =>
    obtain ⟨-, hs⟩ := Option.ite_none_left_eq_some.1 hs
    obtain ⟨c, -, rfl⟩ := Option.map_eq_some_iff.1 hs
    exact h.congr ⟨rfl, rfl, rfl⟩
  | validate iid =>
    simp only [State.step] at hs
    split at hs
    · split at hs <;> obtain rfl := Option.some.inj hs <;> exact h.congr ⟨rfl, rfl, rfl⟩
    · cases hs
  | insert iid =>
    simp only [State.step] at hs
    split at hs
    · obtain ⟨-, hs⟩ := Option.ite_none_left_eq_some.1 hs
      split at hs <;> obtain rfl := Option.some.inj hs <;> exact h.congr ⟨rfl, rfl, rfl⟩
    · cases hs
  | commit iid =>
    simp only [State.step] at hs
    split at hs
    · split at hs <;> obtain rfl := Option.some.inj hs <;> exact h.congr ⟨rfl, rfl, rfl⟩
    · cases hs
  | abort iid =>
    obtain ⟨-, hs⟩ := Option.ite_none_right_eq_some.1 hs
    obtain rfl := Option.some.inj hs
    exact h.congr ⟨rfl, rfl, rfl⟩
  | deleteInstance iid =>
    obtain rfl := Option.some.inj hs
    exact h.congr ⟨rfl, rfl, rfl⟩

/-- **A GPU that is verified has been proved**, as its miner posted it. -/
theorem passed_of_verified {as : List Action} (hcfg : cfg.skipGpuVerification = false)
    (h : (system cfg w).Reach Unswapped as s) (uuid : String) (node : Node w)
    (hnode : s.nodes.get? uuid = some node) (hverified : node.verifiedAt ≠ none) :
    ∃ e ∈ s.met, Passed cfg node e.1 e.2 := by
  have hvouched : Vouched cfg s := by
    refine h.invariant (fun s₀ h0 => ?_) fun _ _ _ hi hok hs => hi.step hcfg hok hs
    obtain rfl : s₀ = initial w := h0
    exact vouched_initial
  exact hvouched.verified uuid node hnode hverified

section

/-- The proof service takes work that names the device. -/
private def naming : Config where
  skipGpuVerification := false
  deviceInfoChallengeCount := 1
  isValidHost _ := true
  verifyDeviceInfo _ challenge response := challenge == response
  checkProof args _ workProduct := workProduct == args.name

private def rtx3090 : NodeArgs :=
  ⟨"g", "NVIDIA GeForce RTX 3090", 25769803776, 82, .finite 1695000, "3090", "1.2.3.4", 8000⟩

private def a4000 : NodeArgs :=
  ⟨"g", "NVIDIA RTX A4000", 17179869184, 48, .finite 1560000, "a4000", "1.2.3.4", 8000⟩

private def proof3090 : Challenge :=
  ⟨[⟨"c", 200, "c"⟩], fun _ => "p", some ⟨200, fun _ => some "p", fun _ => some rtx3090.name, 70⟩⟩

private def proved : List Action :=
  [.register "5A" none, .check 0 ⟨some "5A", none, [rtx3090], 7⟩, .create 0, .load 0 ["g"],
    .finish 0 proof3090 "" 0]

private def afterProof : State .asciiOnly :=
  ((system naming .asciiOnly).exec (initial .asciiOnly) proved).getD (initial .asciiOnly)

private def posted3090 : Node .asciiOnly where
  args := rtx3090
  fits := validateAll_eq_ok.1 (by decide +kernel)
  minerHotkey := "5A"
  serverId := none
  seed := 7
  verifiedAt := some 0
  verificationError := none

theorem passed_of_verified_proved : ∃ e ∈ afterProof.met, Passed naming posted3090 e.1 e.2 :=
  passed_of_verified rfl (Lts.reach_getD_exec rfl (by decide +kernel) (by decide +kernel))
    "g" posted3090 (by decide +kernel) (Option.some_ne_none 0)

/-- The GPU is swapped while it is challenged: another one is verified. -/
example : ((system naming .asciiOnly).exec (initial .asciiOnly)
    [.register "5A" none, .check 0 ⟨some "5A", none, [rtx3090], 7⟩, .create 0, .load 0 ["g"],
      .delete "5A" "g" "" none, .tick 1, .check 0 ⟨some "5A", none, [a4000], 7⟩, .create 0,
      .finish 0 proof3090 "" 0]).map (fun s =>
        (s.nodes.get? "g").map fun node => (node.args.gpuIdentifier, node.verifiedAt)) =
      some (some ("a4000", some 1)) := by
  decide +kernel

end

end Inventory

end ChutesApi
