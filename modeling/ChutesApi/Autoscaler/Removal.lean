import ChutesApi.Autoscaler.Model
import ChutesApi.Chute.Model.NodeSelector
/-!
# The autoscaler's removals

What is in `to_downsize` is removed afterwards, chute by chute, from the
instances that are there by then. The query for them names a relationship
that `Instance` does not have, so that no removal gets as far as its first
instance: `not_executed`. What the rest of the loop body would do is
`downsizeLoaded`, and `length_kick` counts what it kicks.
-/

namespace ChutesApi

namespace Autoscaler

open Python

/-! ## The mapped classes -/

inductive Entity
  | chute
  | inst
  | node
  | job
  | launchConfig
  | user
  | image
  | logo
  | rollingUpdate
  | chuteShare
  | llmDetail
  deriving DecidableEq, Repr

/-- The relationships of the two classes the query starts from. -/
def relationships : Entity → List (String × Entity)
  | .chute =>
    [("image", .image), ("user", .user), ("logo", .logo), ("rolling_update", .rollingUpdate),
      ("instances", .inst), ("shares", .chuteShare), ("llm_detail", .llmDetail),
      ("running_jobs", .job)]
  | .inst =>
    [("nodes", .node), ("chute", .chute), ("job", .job), ("config", .launchConfig),
      ("billed_user", .user)]
  | _ => []

/-- The columns of `instances`. -/
def instanceColumns : List String :=
  ["instance_id", "host", "port", "chute_id", "version", "miner_uid", "miner_hotkey",
    "miner_coldkey", "region", "active", "verified", "last_queried_at", "created_at",
    "updated_at", "activated_at", "last_verified_at", "stop_billing_at", "billed_to",
    "verification_error", "consecutive_failures", "chutes_version", "symmetric_key",
    "config_id", "cacert", "port_mappings", "hourly_rate", "compute_multiplier"]

/-- An attribute of `Instance`. -/
def instanceAttribute (name : String) : Except Exc Unit :=
  ensure (name ∈ instanceColumns ∨ name ∈ (relationships .inst).map Prod.fst)
    (.raised .attributeError)

/-- A step of a chain of `selectinload`, from the entity it has come to. -/
def selectinload (source entity : Entity) (name : String) : Except Exc Entity :=
  if source = entity then
    match (relationships entity).lookup name with
    | some target => .ok target
    | none => .error (.raised .other)
  else .error (.raised .other)

/-- **The options of the query**: `selectinload(Chute.instances)
.selectinload(Instance.nodes).selectinload(Instance.launch_config)`. -/
def loadOptions : Except Exc Unit := do
  let entity ← selectinload .chute .chute "instances"
  instanceAttribute "nodes"
  let entity ← selectinload entity .inst "nodes"
  instanceAttribute "launch_config"
  let _ ← selectinload entity .inst "launch_config"
  return ()

/-! ## What is found -/

/-- What the removal reads of an instance. Times are in seconds, and
`launchConfig` is what the attribute of that name would give: the job of the
configuration, if there is a configuration. -/
structure Instance where
  instanceId : String
  chuteId : ChuteId
  verified : Bool
  active : Bool
  createdAt : ℤ
  nodes : ℕ
  launchConfig : Option (Option String)
  deriving DecidableEq, Repr

/-- **The chute when it is its turn**, with its instances. -/
structure Found (chuteId : ChuteId) where
  nodeSelector : NodeSelector
  rollingUpdate : Bool
  instances : List Instance
  own : ∀ i ∈ instances, i.chuteId = chuteId
  nodup : (instances.map Instance.instanceId).Nodup

/-- What the removals meet: the chutes and instances by then, the selectors of
all chutes, the time of the decisions and the draws of `random.choice`. -/
structure World where
  found : (chuteId : ChuteId) → Option (Found chuteId)
  selectors : List NodeSelector
  dbNow : ℤ
  choice : ℕ → ℕ

/-- What was deleted, each with the chute it was deleted for, and what was
raised. -/
structure Run where
  deleted : List (ChuteId × Instance)
  raised : Option Exc
  deriving DecidableEq

/-! ## The removal -/

/-- `inst.verified and inst.active and not inst.launch_config.job_id`. -/
def isActive (i : Instance) : Except Exc Bool :=
  if i.verified && i.active then
    match i.launchConfig with
    | some jobId => .ok !truthy jobId
    | none => .error (.raised .attributeError)
  else .ok false

/-- The list of the active instances. -/
def filterActive : List Instance → Except Exc (List Instance)
  | [] => .ok []
  | i :: rest => do
    let keep ← isActive i
    let rest ← filterActive rest
    return if keep then i :: rest else rest

/-- Online for at least an hour. -/
def established (dbNow : ℤ) (i : Instance) : Bool := 3600 ≤ dbNow - i.createdAt

/-- **The removal loop**, for what is left of `range(num_to_remove)`: the
instances it kicks. -/
def kick (w : World) : ℕ → ℕ → List Instance → List String → List Instance
  | 0, _, _, _ => []
  | n + 1, idx, instances, kicked =>
    let instances := instances.filter (·.instanceId ∉ kicked)
    let candidates := instances.filter (established w.dbNow)
    match candidates[w.choice idx % candidates.length]? with
    | none => kick w n (idx + 1) instances kicked
    | some unlucky =>
      unlucky :: kick w n (idx + 1) candidates (unlucky.instanceId :: kicked)

/-- The search for compatible chutes, which nothing reads, but which looks at
the selectors of all chutes. -/
def compatibleChutes (w : World) (nodeSelector : NodeSelector) : Except Exc Unit := do
  let _ ← nodeSelector.supportedGpus
  let _ ← w.selectors.mapM NodeSelector.supportedGpus
  return ()

/-- The loop body once the chute and its instances are loaded. -/
def downsizeLoaded (w : World) {chuteId : ChuteId} (chute : Found chuteId) (numToRemove : ℤ) :
    Run :=
  if chute.rollingUpdate then ⟨[], none⟩
  else
    match filterActive chute.instances with
    | .error e => ⟨[], some e⟩
    | .ok active =>
      let bad := active.filter fun i => some i.nodes ≠ chute.nodeSelector.gpuCount
      let instances := active.filter fun i => some i.nodes = chute.nodeSelector.gpuCount
      let numToRemove := numToRemove - bad.length
      let purged := bad.map (chuteId, ·)
      if instances.length < underutilizedCap ∨ numToRemove ≤ 0 then ⟨purged, none⟩
      else
        match compatibleChutes w chute.nodeSelector with
        | .error e => ⟨purged, some e⟩
        | .ok () =>
          ⟨purged ++ (kick w numToRemove.toNat 0 instances []).map (chuteId, ·), none⟩

/-- The loop body. -/
def downsize (w : World) (chuteId : ChuteId) (numToRemove : ℕ) : Run :=
  match loadOptions with
  | .error e => ⟨[], some e⟩
  | .ok () =>
    match w.found chuteId with
    | none => ⟨[], none⟩
    | some chute => downsizeLoaded w chute numToRemove

/-- The loop over `to_downsize`, up to the first exception. -/
def downsizeAll (w : World) : List (ChuteId × ℕ) → Run
  | [] => ⟨[], none⟩
  | (chuteId, numToRemove) :: rest =>
    let run := downsize w chuteId numToRemove
    match run.raised with
    | some e => ⟨run.deleted, some e⟩
    | none =>
      let later := downsizeAll w rest
      ⟨run.deleted ++ later.deleted, later.raised⟩

/-- **The execution of the decisions**, which a dry run leaves out. -/
def execute (dryRun : Bool) (w : World) (toDownsize : List (ChuteId × ℕ)) : Run :=
  if dryRun && toDownsize ≠ [] then ⟨[], none⟩ else downsizeAll w toDownsize

/-! ## What the loop kicks -/

variable {w : World} {chuteId : ChuteId} {active instances : List Instance} {n idx : ℕ}
variable {kicked : List String} {i : Instance}

/-- Whom the loop may kick next. -/
def candidates (w : World) (instances : List Instance) (kicked : List String) : List Instance :=
  (instances.filter (·.instanceId ∉ kicked)).filter (established w.dbNow)

theorem kick_succ : kick w (n + 1) idx instances kicked =
    match (candidates w instances kicked)[w.choice idx % (candidates w instances kicked).length]?
      with
    | none => kick w n (idx + 1) (instances.filter (·.instanceId ∉ kicked)) kicked
    | some unlucky => unlucky ::
        kick w n (idx + 1) (candidates w instances kicked) (unlucky.instanceId :: kicked) := rfl

/-- The instances kicked are not looked at again. -/
theorem candidates_filter :
    candidates w (instances.filter (·.instanceId ∉ kicked)) kicked =
      candidates w instances kicked := by
  simp [candidates, List.filter_filter]

/-- One candidate fewer. -/
theorem length_candidates_cons (hnodup : (instances.map Instance.instanceId).Nodup)
    (h : i ∈ candidates w instances kicked) :
    (candidates w (candidates w instances kicked) (i.instanceId :: kicked)).length + 1 =
      (candidates w instances kicked).length := by
  set found := candidates w instances kicked with hfound
  have hids : (found.map Instance.instanceId).Nodup :=
    hnodup.sublist ((List.filter_sublist.trans List.filter_sublist).map _)
  have hrest : candidates w found (i.instanceId :: kicked) =
      found.filter (fun other => ¬ (other.instanceId == i.instanceId) = true) := by
    rw [candidates, List.filter_filter]
    refine List.filter_congr fun other hother => ?_
    have hmem := List.mem_filter.1 hother
    have hnew : other.instanceId ∉ kicked := by simpa using (List.mem_filter.1 hmem.1).2
    simp [hmem.2, hnew, beq_eq_decide]
  have hone : found.countP (fun other => other.instanceId == i.instanceId) = 1 := by
    have hcount := List.count_eq_one_of_mem hids (List.mem_map_of_mem h)
    rwa [List.count, List.countP_map] at hcount
  have hsplit := List.length_eq_countP_add_countP
    (fun other : Instance => other.instanceId == i.instanceId) (l := found)
  rw [hone] at hsplit
  rw [hrest, ← List.countP_eq_length_filter, hsplit, Nat.add_comm]

/-- **The loop kicks as many as it should**, as far as there are established
instances. -/
theorem length_kick (hnodup : (instances.map Instance.instanceId).Nodup) :
    (kick w n idx instances kicked).length = min n (candidates w instances kicked).length := by
  induction n generalizing idx instances kicked with
  | zero => exact (Nat.zero_min _).symm
  | succ n ih =>
    rw [kick_succ]
    split
    · next hnone =>
      have hempty : (candidates w instances kicked).length = 0 := by
        by_contra hpos
        have hlt := Nat.mod_lt (w.choice idx) (Nat.pos_of_ne_zero hpos)
        rw [List.getElem?_eq_none_iff] at hnone
        omega
      have hsub : ((instances.filter (·.instanceId ∉ kicked)).map Instance.instanceId).Nodup :=
        hnodup.sublist (List.filter_sublist.map _)
      rw [ih hsub, candidates_filter, hempty]
      omega
    · next unlucky hsome =>
      have hsub : ((candidates w instances kicked).map Instance.instanceId).Nodup :=
        hnodup.sublist ((List.filter_sublist.trans List.filter_sublist).map _)
      have hone := length_candidates_cons hnodup (List.mem_of_getElem? hsome)
      rw [List.length_cons, ih hsub]
      omega

theorem filterActive_sublist (h : filterActive instances = .ok active) :
    active.Sublist instances := by
  induction instances generalizing active with
  | nil =>
    obtain rfl := Except.ok.inj h
    exact List.Sublist.refl _
  | cons i rest ih =>
    obtain ⟨keep, -, h⟩ := bind_eq_ok.1 h
    obtain ⟨tail, htail, h⟩ := bind_eq_ok.1 h
    obtain rfl := return_eq_ok.1 h
    have hsub := ih htail
    split
    · exact hsub.cons_cons i
    · exact hsub.cons i

/-- **What the loop body removes** once the instances are loaded: the malformed
ones, and then what is left to remove, as far as there are established ones,
unless it stops at the check for the cap of public chutes. -/
theorem length_downsizeLoaded {chute : Found chuteId} {numToRemove : ℤ}
    (hactive : filterActive chute.instances = .ok active) (hrolling : chute.rollingUpdate = false)
    (hrun : (downsizeLoaded w chute numToRemove).raised = none) :
    let bad := active.filter fun i => some i.nodes ≠ chute.nodeSelector.gpuCount
    let sound := active.filter fun i => some i.nodes = chute.nodeSelector.gpuCount
    (downsizeLoaded w chute numToRemove).deleted.length =
      bad.length + if sound.length < underutilizedCap then 0
        else min (numToRemove - bad.length).toNat (sound.filter (established w.dbNow)).length := by
  intro bad sound
  have hids : (sound.map Instance.instanceId).Nodup :=
    chute.nodup.sublist ((List.filter_sublist.trans (filterActive_sublist hactive)).map _)
  unfold downsizeLoaded at hrun ⊢
  simp only [hrolling, Bool.false_eq_true, if_false, hactive] at hrun ⊢
  by_cases hstop : sound.length < underutilizedCap ∨ numToRemove - bad.length ≤ 0
  · rw [if_pos hstop, List.length_map]
    show bad.length = _
    split_ifs <;> omega
  · rw [if_neg hstop] at hrun ⊢
    have hcap : ¬ sound.length < underutilizedCap := fun h => hstop (.inl h)
    rw [if_neg hcap]
    cases hcompat : compatibleChutes w chute.nodeSelector with
    | error e =>
      rw [hcompat] at hrun
      cases hrun
    | ok u =>
      have hall : candidates w sound [] = sound.filter (established w.dbNow) := by
        simp [candidates]
      have hkick : (kick w (numToRemove - bad.length).toNat 0 sound []).length =
          min (numToRemove - bad.length).toNat (sound.filter (established w.dbNow)).length := by
        rw [length_kick hids, hall]
      rw [List.length_append, List.length_map, List.length_map, hkick]

/-! ## The claim on an execution -/

/-- The active verified instances of a chute, when it is its turn. -/
def World.activeInstances (w : World) (chuteId : ChuteId) : List Instance :=
  ((w.found chuteId).elim [] Found.instances).filter fun i => i.verified && i.active

/-- **The execution meets the decision** for a chute with this target. -/
structure Executed (w : World) (chuteId : ChuteId) (target : ℕ) (run : Run) : Prop where
  finishes : run.raised = none
  own : ∀ i, (chuteId, i) ∈ run.deleted → i ∈ w.activeInstances chuteId
  exact : (w.activeInstances chuteId).length - target ≤
      ((w.activeInstances chuteId).filter (established w.dbNow)).length →
    (run.deleted.filter (·.1 = chuteId)).length = (w.activeInstances chuteId).length - target
  keeps : (run.deleted.filter (·.1 = chuteId)).length ≤ (w.activeInstances chuteId).length - target

/-- The options of the query name what `Instance` does not have. -/
theorem loadOptions_raises : loadOptions = .error (.raised .attributeError) := by
  decide

/-- **Every removal raises** before it deletes anything. -/
theorem execute_raises {toDownsize : List (ChuteId × ℕ)} (h : toDownsize ≠ []) :
    execute false w toDownsize = ⟨[], some (.raised .attributeError)⟩ := by
  cases toDownsize with
  | nil => exact absurd rfl h
  | cons e rest => simp [execute, downsizeAll, downsize, loadOptions_raises]

/-- `chute_target_counts[chute_id]`. -/
def targetCount (env : Env) (chuteInfo : Dict ChuteId ChuteInfo)
    (chuteMetrics : Dict ChuteId Metrics) (chuteId : ChuteId) : Option ℕ :=
  (chuteMetrics.get? chuteId).map fun m => (autoscaleChute env (chuteInfo.get? chuteId) m).target

/-- **No decision to scale down is executed**, for a public or a private
chute, whatever instances are found. -/
theorem not_executed (env : Env) (chuteInfo : Dict ChuteId ChuteInfo)
    (chuteMetrics : Dict ChuteId Metrics) {numToRemove : ℕ}
    (h : (chuteId, numToRemove) ∈ toDownsize env chuteInfo chuteMetrics) :
    ∀ target ∈ targetCount env chuteInfo chuteMetrics chuteId,
      ¬ Executed w chuteId target (execute false w (toDownsize env chuteInfo chuteMetrics)) := by
  intro target _ hexecuted
  have hfinishes := hexecuted.finishes
  rw [execute_raises (List.ne_nil_of_mem h)] at hfinishes
  cases hfinishes

/-- A private chute of a user. -/
private def rented : Chute where
  chuteId := "c"
  userId := "u"
  name := "n"
  isPublic := false
  standardTemplate := none
  concurrency := none
  discount := none
  createdAt := legacyBillingEnds

/-- It has two instances, and nobody uses it. -/
private def unused : Dict ChuteId ChuteInfo :=
  .ofList [("c", ⟨rented, 2, 0.75, false, 2, false⟩)]

private def silent : Metrics := ⟨fun _ => 0, fun _ => 0, fun _ => 0⟩

private def allMetrics : Dict ChuteId Metrics :=
  .ofList (["c", "0", "1", "2", "3", "4", "5", "6", "7", "8"].map (·, silent))

private def env : Env := ⟨"chutes", fun _ => false⟩

private def instanceOf (chuteId : ChuteId) (instanceId : String) : Instance :=
  ⟨instanceId, chuteId, true, true, 0, 1, some none⟩

/-- Both are there, and established. -/
private def bothFound : World where
  found chuteId := some
    ⟨{}, false, [instanceOf chuteId "a", instanceOf chuteId "b"], by simp [instanceOf],
      by simp [instanceOf]⟩
  selectors := []
  dbNow := 3600
  choice _ := 0

/-- One of two instances is to be removed, and none is. -/
theorem not_forall_executed :
    ¬ ∀ (env : Env) (chuteInfo : Dict ChuteId ChuteInfo) (chuteMetrics : Dict ChuteId Metrics)
      (w : World) (chuteId : ChuteId) (numToRemove target : ℕ),
      (chuteId, numToRemove) ∈ toDownsize env chuteInfo chuteMetrics →
      targetCount env chuteInfo chuteMetrics chuteId = some target →
      Executed w chuteId target (execute false w (toDownsize env chuteInfo chuteMetrics)) := by
  intro h
  have hexecuted := h env unused allMetrics bothFound "c" 1 1 (by decide +kernel)
    (by decide +kernel)
  exact absurd hexecuted.finishes (by decide +kernel)

theorem not_executed_unused :
    ("c", 1) ∈ toDownsize env unused allMetrics ∧
      1 ∈ targetCount env unused allMetrics "c" ∧
      ∀ target ∈ targetCount env unused allMetrics "c",
        ¬ Executed bothFound "c" target
          (execute false bothFound (toDownsize env unused allMetrics)) :=
  have hmem : ("c", 1) ∈ toDownsize env unused allMetrics := by decide +kernel
  have htarget : targetCount env unused allMetrics "c" = some 1 := by decide +kernel
  ⟨hmem, htarget, not_executed env unused allMetrics hmem⟩

end Autoscaler

end ChutesApi
