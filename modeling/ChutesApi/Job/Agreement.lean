import ChutesApi.Job.Model.Launch
/-!
# Who has the job

A claim that has committed should keep the job until the job is finished or
released, or its own config fails. It does in the runs in which no config
is updated that has failed, or fails by the update, while another config's
claim holds the job, and in which no finished job is assigned
(`claim_agreement`).

A race has runs of the other kind by its very design: the loser's config
fails, and the trigger then takes the job from the winner
(`not_claim_agreement`). The job may even be finished by then, and the
conditional update assigns it again.
-/

namespace ChutesApi

namespace Launch

/-- **Agreement**: the job is the miner's whose claim holds it, no two
claims hold it, and none does once it is finished. -/
structure State.Agreed (s : State) : Prop where
  assigned : ∀ claim ∈ s.held, s.job.committed.AssignedTo claim.miner claim.instanceId
  one : ∀ claim ∈ s.held, ∀ claim' ∈ s.held, claim = claim'
  finished : s.job.committed.finished → s.held = []

/-- The step ends a claim. -/
def Action.Ends (s' : State) (claim : Claim) : Action → Prop
  | .completeJob _ | .releaseJob _ _ => True
  | _ => s'.failed claim.configId

/-- **What a step keeps**: a claim that it does not end has the job as
before, and a finished job is not assigned. -/
structure Keeps (s : State) (a : Action) (s' : State) : Prop where
  stays : ∀ claim ∈ s.held, ¬ a.Ends s' claim →
    claim ∈ s'.held ∧ s'.job.committed.AssignedTo claim.miner claim.instanceId
  finished : s.job.committed.finished → s'.job.committed.minerHotkey = none ∨
    s'.job.committed.minerHotkey = s.job.committed.minerHotkey

/-- No claim holds the job but the config's. -/
def State.HeldBy (s : State) (c : ConfigId) : Prop := ∀ claim ∈ s.held, claim.configId = c

/-- The config a request claims. -/
def Txn.configId : Txn → Option ConfigId
  | .get _ => none
  | .claim c _ _ => some c

/-- The config of the request. -/
def State.configOf (s : State) (t : TxnId) : Option ConfigId := (s.txns t).bind Txn.configId

/-- **The condition on the steps.** A config that fails, or is found to have
failed as it is updated, is the one whose claim holds the job, if any does;
and the job that is assigned is not finished. -/
def Orderly (s : State) : Action → Prop
  | .flush t | .retrieve t => ∀ c ∈ s.configOf t, s.failed c → s.HeldBy c
  | .failVerification t _ | .failLost t | .failNodes t => ∀ c ∈ s.configOf t, s.HeldBy c
  | .failInstance _ c _ => s.HeldBy c
  | .assign t => (s.job.seen t).minerHotkey = none → (s.job.seen t).finished = false
  | _ => True

instance (s : State) (c : ConfigId) : Decidable (s.HeldBy c) := by
  unfold State.HeldBy
  infer_instance

instance (s : State) (a : Action) : Decidable (Orderly s a) := by
  cases a <;> unfold Orderly <;> infer_instance

/-! ## What the operations leave -/

section

variable (s : State) (t : TxnId) (txn : Option Txn) (c : ConfigId)

@[simp] theorem enter_job : (s.enter t txn).job = s.job := rfl

@[simp] theorem enter_configs : (s.enter t txn).configs = s.configs := rfl

@[simp] theorem enter_held : (s.enter t txn).held = s.held := rfl

@[simp] theorem enter_failed : (s.enter t txn).failed c = s.failed c := rfl

@[simp] theorem enter_txns_self : (s.enter t txn).txns t = txn := Function.update_self ..

variable {t} in
theorem enter_txns_of_ne {u : TxnId} (hu : u ≠ t) : (s.enter t txn).txns u = s.txns u :=
  Function.update_of_ne hu ..

@[simp] theorem commit_job : (s.commit t).job = s.job.commit t := rfl

@[simp] theorem commit_txns : (s.commit t).txns = s.txns := rfl

@[simp] theorem commit_configs : (s.commit t).configs c =
    (s.configs c).map fun config => { config with row := config.row.commit t } := rfl

theorem commit_held : (s.commit t).held =
    s.held.filter fun claim => !(s.commit t).failed claim.configId := rfl

@[simp] theorem rollback_job : (s.rollback t).job = s.job.rollback t := rfl

@[simp] theorem rollback_txns : (s.rollback t).txns = s.txns := rfl

@[simp] theorem rollback_held : (s.rollback t).held = s.held := rfl

@[simp] theorem rollback_failed : (s.rollback t).failed c = s.failed c := by
  unfold State.failed State.rollback
  cases h : s.configs c <;> simp [h]

end

variable {s s' : State} {t u : TxnId} {c : ConfigId} {f : LaunchConfig → LaunchConfig}

/-- **What an update of a config did**, and the trigger. -/
theorem updateConfig_cases (h : s.updateConfig t c f = some s') :
    ∃ config, s.configs c = some config ∧ config.row.Lockable t ∧
      s'.txns = s.txns ∧ s'.held = s.held ∧
      s'.configs = Function.update s.configs c (some { config with
        row := { config.row with writer := some (t, f (config.row.seen t)) } }) ∧
      ((¬ (f (config.row.seen t)).Resets ∧ s'.job = s.job) ∨
        (f (config.row.seen t)).Resets ∧ s.job.update t Job.reset = some s'.job) := by
  unfold State.updateConfig at h
  simp only [Option.bind_eq_bind, Option.bind_eq_some_iff, Option.pure_def,
    Option.some.injEq] at h
  obtain ⟨config, hconfig, row, hrow, job, hjob, rfl⟩ := h
  obtain ⟨hlock, rfl⟩ := Row.update_eq_some.1 hrow
  refine ⟨config, hconfig, hlock, rfl, rfl, rfl, ?_⟩
  rw [Row.seen_of_writer rfl] at hjob
  unfold State.resetJobAssignment at hjob
  split at hjob
  · next hresets => exact .inr ⟨hresets, hjob⟩
  · next hresets => exact .inl ⟨hresets, (Option.some.inj hjob).symm⟩

/-- It commits nothing. -/
theorem updateConfig_failed (h : s.updateConfig t c f = some s') (c' : ConfigId) :
    s'.failed c' = s.failed c' := by
  obtain ⟨config, hconfig, -, -, -, hconfigs, -⟩ := updateConfig_cases h
  unfold State.failed
  rw [hconfigs, Function.update_apply]
  split
  · next hc => simp [hc, hconfig]
  · rfl

theorem updateConfig_committed (h : s.updateConfig t c f = some s') :
    s'.job.committed = s.job.committed := by
  obtain ⟨config, -, -, -, -, -, ⟨-, hjob⟩ | ⟨-, hjob⟩⟩ := updateConfig_cases h
  · rw [hjob]
  · obtain ⟨-, hjob⟩ := Row.update_eq_some.1 hjob
    rw [hjob]

/-! ## The invariant -/

/-- The config whose row a request has locked. -/
def Txn.locks : Txn → Option ConfigId
  | .get _ => none
  | .claim c _ phase => if phase.locks then some c else none

def State.locks (s : State) (t : TxnId) : Option ConfigId := (s.txns t).bind Txn.locks

/-- What a claim has written to the job. -/
def State.Written (s : State) (t : TxnId) (miner : Miner) : Phase → Prop
  | .assigned => ∃ job : Job, s.job.writer = some (t, job.assign miner) ∧ job.finished = false
  | .attached instanceId => ∃ job : Job, s.job.writer = some (t, job) ∧
      job.AssignedTo miner instanceId ∧ job.finished = false
  | _ => True

/-- **What holds of one request.** Where it has written to the job, nobody
holds it, and it has not given a finished job to anyone; the rows it has
written are those it has locked. -/
structure State.Locked (s : State) (t : TxnId) : Prop where
  job : ∀ v, s.job.writer = some (t, v) → s.held = [] ∧ (s.locks t).isSome ∧
    v.finished = s.job.committed.finished ∧ (v.finished → v.minerHotkey = none)
  configs : ∀ c config v, s.configs c = some config → config.row.writer = some (t, v) →
    s.locks t = some c
  written : ∀ c miner phase, s.txns t = some (.claim c miner phase) → s.Written t miner phase

/-- **The invariant.** -/
structure Inv (s : State) : Prop where
  agreed : s.Agreed
  alive : ∀ claim ∈ s.held, s.failed claim.configId = false
  locked : ∀ t, s.Locked t

theorem inv_start (jobId : String) : Inv (.start jobId) where
  agreed := ⟨by simp [State.start], by simp [State.start], by simp [State.start]⟩
  alive := by simp [State.start]
  locked t := ⟨by simp [State.start], by simp [State.start], by simp [State.start]⟩

/-- A request that is not of the step is as before, if its locks are. -/
theorem State.Locked.frame (hs : s.Locked u) (htxns : s'.txns u = s.txns u)
    (hjob : ∀ v, s'.job.writer = some (u, v) ∨ s.job.writer = some (u, v) → s'.job = s.job)
    (hconfigs : ∀ c config' v, s'.configs c = some config' → config'.row.writer = some (u, v) →
      ∃ config, s.configs c = some config ∧ config.row.writer = some (u, v))
    (hheld : ∀ v, s.job.writer = some (u, v) → s.held = [] → s'.held = []) : s'.Locked u := by
  have hlocks : s'.locks u = s.locks u := by unfold State.locks; rw [htxns]
  refine ⟨fun v hv => ?_, fun c config' v hc hv => ?_, fun c miner phase h => ?_⟩
  · have hsame := hjob v (.inl hv)
    rw [hsame] at hv ⊢
    obtain ⟨hnone, hsome, hrest⟩ := hs.job v hv
    exact ⟨hheld v hv hnone, hlocks ▸ hsome, hrest⟩
  · obtain ⟨config, hc', hv'⟩ := hconfigs c config' v hc hv
    exact hlocks ▸ hs.configs c config v hc' hv'
  · have hwritten := hs.written c miner phase (htxns ▸ h)
    cases phase with
    | assigned =>
      obtain ⟨job, hw, hfinished⟩ := hwritten
      exact ⟨job, hjob _ (.inr hw) ▸ hw, hfinished⟩
    | attached instanceId =>
      obtain ⟨job, hw, hrest⟩ := hwritten
      exact ⟨job, hjob _ (.inr hw) ▸ hw, hrest⟩
    | _ => trivial

/-! ### The others -/

theorem State.Locked.enter (hs : s.Locked u) (hu : u ≠ t) (txn : Option Txn) :
    (s.enter t txn).Locked u :=
  hs.frame (enter_txns_of_ne s txn hu) (fun _ _ => rfl) (fun _ config _ h h' => ⟨config, h, h'⟩)
    fun _ _ h => h

theorem State.Locked.updateConfig (hs : s.Locked u) (hu : u ≠ t)
    (h : s.updateConfig t c f = some s') : s'.Locked u := by
  obtain ⟨config, hconfig, hlock, htxns, hheld, hconfigs, hjob⟩ := updateConfig_cases h
  refine hs.frame (by rw [htxns]) (fun v hv => ?_) (fun c' config' v hc hw => ?_)
    fun _ _ h => hheld ▸ h
  · rcases hjob with ⟨-, hjob⟩ | ⟨-, hjob⟩
    · exact hjob
    · exact Row.update_of_writer hjob hu hv
  · rw [hconfigs, Function.update_apply] at hc
    split at hc
    · obtain rfl := Option.some.inj hc
      exact absurd (Prod.mk.inj (Option.some.inj hw)).1.symm hu
    · exact ⟨config', hc, hw⟩

/-- An update of the job. -/
theorem State.Locked.updateJob (hs : s.Locked u) (hu : u ≠ t) {g : Job → Job} {job : Row TxnId Job}
    (h : s.job.update t g = some job) (txn : Option Txn) :
    State.Locked { s.enter t txn with job } u :=
  hs.frame (enter_txns_of_ne s txn hu) (fun _ hv => Row.update_of_writer h hu hv)
    (fun _ config _ h h' => ⟨config, h, h'⟩) fun _ _ h => h

theorem State.Locked.commit (hs : s.Locked u) (hu : u ≠ t) : (s.commit t).Locked u := by
  refine hs.frame rfl (fun _ hv => Row.commit_of_writer_ne hu hv) (fun c config' v hc hw => ?_)
    fun _ _ h => by rw [commit_held, h]; rfl
  simp only [commit_configs, Option.map_eq_some_iff] at hc
  obtain ⟨config, hc, rfl⟩ := hc
  exact ⟨config, hc, (Row.commit_writer_iff hu).1 hw⟩

theorem State.Locked.rollback (hs : s.Locked u) (hu : u ≠ t) : (s.rollback t).Locked u := by
  refine hs.frame rfl (fun _ hv => Row.rollback_of_writer_ne hu hv) (fun c config' v hc hw => ?_)
    fun _ _ h => h
  simp only [State.rollback, Option.map_eq_some_iff] at hc
  obtain ⟨config, hc, rfl⟩ := hc
  exact ⟨config, hc, (Row.rollback_writer_iff hu).1 hw⟩

/-! ### The request itself -/

/-- The request holds no lock. -/
structure State.Unlocked (s : State) (t : TxnId) : Prop where
  job : ∀ v, s.job.writer ≠ some (t, v)
  configs : ∀ c config v, s.configs c = some config → config.row.writer ≠ some (t, v)

theorem unlocked_commit (s : State) (t : TxnId) : (s.commit t).Unlocked t := by
  refine ⟨Row.commit_writer_ne s.job t, fun c config v hc => ?_⟩
  simp only [commit_configs, Option.map_eq_some_iff] at hc
  obtain ⟨config, -, rfl⟩ := hc
  exact Row.commit_writer_ne config.row t v

theorem unlocked_rollback (s : State) (t : TxnId) : (s.rollback t).Unlocked t := by
  refine ⟨Row.rollback_writer_ne s.job t, fun c config v hc => ?_⟩
  simp only [State.rollback, Option.map_eq_some_iff] at hc
  obtain ⟨config, -, rfl⟩ := hc
  exact Row.rollback_writer_ne config.row t v

/-- A request that has locked no config, by its phase, holds no lock. -/
theorem State.Locked.unlocked (hs : s.Locked t) (h : s.locks t = none) : s.Unlocked t := by
  refine ⟨fun v hv => ?_, fun c config v hc hv => ?_⟩
  · simpa [h] using (hs.job v hv).2.1
  · simpa [h] using hs.configs c config v hc hv

/-- Where it goes on to no lock, nothing is asked of it. -/
theorem State.Unlocked.locked (hs : s.Unlocked t) {txn : Option Txn}
    (htxn : txn.bind Txn.locks = none) : (s.enter t txn).Locked t := by
  refine ⟨fun v hv => absurd hv (hs.job v),
    fun c config v hc hv => absurd hv (hs.configs c config v hc), fun c miner phase h => ?_⟩
  rw [enter_txns_self] at h
  subst h
  cases phase <;> simp_all [Txn.locks, Phase.locks, State.Written]

/-! ### The steps -/

/-- A step that leaves the claims, and commits nothing, keeps agreement. -/
theorem Inv.quiet (hs : Inv s) (hheld : s'.held = s.held)
    (hjob : s'.job.committed = s.job.committed) (hfailed : ∀ c, s'.failed c = s.failed c)
    (hlocked : ∀ u, s'.Locked u) : Inv s' := by
  obtain ⟨⟨hassigned, hone, hfinished⟩, halive, -⟩ := hs
  refine ⟨⟨?_, ?_, ?_⟩, ?_, hlocked⟩
  · rw [hheld, hjob]
    exact hassigned
  · rwa [hheld]
  · rwa [hheld, hjob]
  · simpa only [hheld, hfailed] using halive

/-- A new request, or one that holds no lock. -/
theorem Inv.enter (hs : Inv s) (hnone : s.locks t = none) {txn : Option Txn}
    (htxn : txn.bind Txn.locks = none) : Inv (s.enter t txn) := by
  refine hs.quiet rfl rfl (fun _ => rfl) fun u => ?_
  by_cases hu : u = t
  · subst hu
    exact ((hs.locked u).unlocked hnone).locked htxn
  · exact (hs.locked u).enter hu txn

/-- A request that is rolled back. -/
theorem Inv.rollback (hs : Inv s) {txn : Option Txn} (htxn : txn.bind Txn.locks = none) :
    Inv ((s.rollback t).enter t txn) := by
  refine hs.quiet rfl (by simp) (by simp) fun u => ?_
  by_cases hu : u = t
  · subst hu
    exact (unlocked_rollback s u).locked htxn
  · exact ((hs.locked u).rollback hu).enter hu txn

/-- The row of a config after the end of the transaction that updated it. -/
theorem commit_failed_of_update {config : Config} (h : s.updateConfig t c f = some s')
    (hconfig : s.configs c = some config) :
    (s'.commit t).failed c = decide (f (config.row.seen t)).Resets := by
  obtain ⟨config', hconfig', -, -, -, hconfigs, -⟩ := updateConfig_cases h
  obtain rfl : config = config' := by simpa [hconfig] using hconfig'
  unfold State.failed
  rw [commit_configs, hconfigs, Function.update_self, Option.map_some, Option.any_some,
    Row.commit_of_writer rfl, Row.idle_committed]

/-- **The end of a request by an update of its config.** The trigger takes
the job from the config's own claim only, and that claim ends with it. -/
theorem Inv.finishWith (hs : Inv s)
    (hown : ∀ config ∈ s.configs c, (f (config.row.seen t)).Resets → s.HeldBy c)
    (h : s.finishWith t c f = some s') : Inv s' := by
  unfold State.finishWith at h
  obtain ⟨s₁, hupdate, rfl⟩ := Option.map_eq_some_iff.1 h
  obtain ⟨config, hconfig, -, htxns, hheld, -, hjob⟩ := updateConfig_cases hupdate
  have hfailed := commit_failed_of_update hupdate hconfig
  -- a claim that is held still had the job, and nobody has written to it
  have hkept : ∀ claim ∈ (s₁.commit t).held, claim ∈ s.held ∧
      (s₁.commit t).failed claim.configId = false ∧ (s₁.commit t).job = s.job := by
    intro claim hclaim
    rw [commit_held, List.mem_filter, hheld, Bool.not_eq_true'] at hclaim
    obtain ⟨hmem, halive⟩ := hclaim
    refine ⟨hmem, halive, ?_⟩
    have hnot : ¬ (f (config.row.seen t)).Resets := fun hresets => by
      rw [hown config hconfig hresets claim hmem, hfailed] at halive
      simp [hresets] at halive
    have hfree : ∀ w ∈ s.job.writer, w.1 ≠ t := fun w hw hwt => by
      have hnone := ((hs.locked t).job w.2 (hwt ▸ hw)).1
      rw [hnone] at hmem
      simp at hmem
    rcases hjob with ⟨-, hjob⟩ | ⟨hresets, -⟩
    · rw [commit_job, hjob, Row.commit_of_not_writer hfree]
    · exact absurd hresets hnot
  refine ⟨⟨fun claim hclaim => ?_, fun claim hclaim claim' hclaim' => ?_, fun hfinished => ?_⟩,
    fun claim hclaim => (hkept claim hclaim).2.1, fun u => ?_⟩
  · obtain ⟨hmem, -, hsame⟩ := hkept claim hclaim
    rw [enter_job, hsame]
    exact hs.agreed.assigned claim hmem
  · exact hs.agreed.one claim (hkept claim hclaim).1 claim' (hkept claim' hclaim').1
  · rw [enter_held, List.eq_nil_iff_forall_not_mem]
    intro claim hclaim
    obtain ⟨hmem, -, hsame⟩ := hkept claim hclaim
    rw [enter_job, hsame] at hfinished
    rw [hs.agreed.finished hfinished] at hmem
    simp at hmem
  · by_cases hu : u = t
    · subst hu
      exact (unlocked_commit s₁ u).locked rfl
    · exact (((hs.locked u).updateConfig hu hupdate).commit hu).enter hu none

/-- **The commit of a claim.** Nobody holds the job, and the claim holds it
from now on, unless its config has failed. -/
theorem Inv.commit {miner : Miner} {instanceId : String} {seed : ℤ} (hs : Inv s)
    (ht : s.txns t = some (.claim c miner (.attached instanceId)))
    (h : step s (.commit t seed) = some s') : Inv s' := by
  obtain ⟨job, hwriter, hassigned, hfinished⟩ := (hs.locked t).written _ _ _ ht
  have hnone : s.held = [] := ((hs.locked t).job job hwriter).1
  simp only [step, ht, Option.map_eq_some_iff, Option.bind_eq_some_iff] at h
  obtain ⟨s₁, ⟨config, hconfig, hflushed⟩, rfl⟩ := h
  -- the flush leaves the job, unless the config has failed
  have hs₁ : s₁.held = [] ∧ (∀ u, u ≠ t → s₁.Locked u) ∧
      ((s₁.commit t).job = .idle job ∨
        (s₁.commit t).job = .idle job.reset ∧ (s₁.commit t).failed c = true) := by
    split at hflushed
    · obtain rfl := Option.some.inj hflushed
      exact ⟨hnone, fun u _ => hs.locked u, .inl (Row.commit_of_writer hwriter)⟩
    · obtain ⟨config', hconfig', -, -, hheld, -, hjob⟩ := updateConfig_cases hflushed
      refine ⟨hheld.trans hnone, fun u hu => (hs.locked u).updateConfig hu hflushed, ?_⟩
      rcases hjob with ⟨-, hjob⟩ | ⟨hresets, hjob⟩
      · exact .inl (by rw [commit_job, hjob, Row.commit_of_writer hwriter])
      · obtain ⟨-, hjob⟩ := Row.update_eq_some.1 hjob
        refine .inr ⟨?_, ?_⟩
        · rw [commit_job, hjob, Row.seen_of_writer hwriter, Row.commit_of_writer rfl]
        · rw [commit_failed_of_update hflushed hconfig', decide_eq_true_eq]
          exact hresets
  obtain ⟨hheld, hlocked, hjob⟩ := hs₁
  set claim : Claim := ⟨c, miner, instanceId⟩ with hclaim
  set s₂ : State := { s₁ with held := s₁.held ++ [claim] } with hs₂
  have hmem : ∀ claim' ∈ (s₂.commit t).held, claim' = claim ∧ (s₁.commit t).failed c = false := by
    intro claim' hclaim'
    rw [commit_held, List.mem_filter, hs₂, hheld, Bool.not_eq_true'] at hclaim'
    obtain ⟨h1, h2⟩ := hclaim'
    obtain rfl := List.mem_singleton.1 h1
    exact ⟨rfl, h2⟩
  have hidle : ∀ claim' ∈ (s₂.commit t).held, (s₁.commit t).job = .idle job := by
    intro claim' hclaim'
    rcases hjob with hjob | ⟨-, hfailed⟩
    · exact hjob
    · rw [(hmem claim' hclaim').2] at hfailed
      simp at hfailed
  refine ⟨⟨fun claim' hclaim' => ?_, fun claim' h' claim'' h'' => ?_, fun hended => ?_⟩,
    fun claim' hclaim' => ?_, fun u => ?_⟩
  · obtain ⟨rfl, -⟩ := hmem claim' hclaim'
    have hsame : (s₂.commit t).job = .idle job := hidle _ hclaim'
    rw [enter_job, hsame]
    exact hassigned
  · rw [(hmem claim' h').1, (hmem claim'' h'').1]
  · rw [enter_held, List.eq_nil_iff_forall_not_mem]
    intro claim' hclaim'
    have hsame : (s₂.commit t).job = .idle job := hidle claim' hclaim'
    rw [enter_job, hsame, Row.idle_committed, hfinished] at hended
    simp at hended
  · obtain ⟨rfl, halive⟩ := hmem claim' hclaim'
    exact halive
  · by_cases hu : u = t
    · subst hu
      exact (unlocked_commit s₂ u).locked rfl
    · -- the others have written nothing to the job that was this claim's
      have hother : s₂.Locked u := by
        refine (hlocked u hu).frame rfl (fun _ _ => rfl) (fun _ config _ hc hw => ⟨config, hc, hw⟩)
          fun v hv _ => ?_
        rcases hjob with hjob | ⟨hjob, -⟩
        all_goals
          rw [commit_job] at hjob
          rw [← Row.commit_writer_iff hu, hjob] at hv
          simp at hv
      exact (hother.commit hu).enter hu _

/-- A request that holds no lock sees what is committed. -/
theorem seen_eq_committed (hs : s.Unlocked t) : s.job.seen t = s.job.committed :=
  Row.seen_of_not_writer fun w hw hwt => hs.job w.2 (hwt ▸ hw)

theorem config_seen_eq_committed (hs : s.Unlocked t) {config : Config}
    (hconfig : s.configs c = some config) : config.row.seen t = config.row.committed :=
  Row.seen_of_not_writer fun w hw hwt => hs.configs c config w.2 hconfig (hwt ▸ hw)

/-- The config that it updates has failed if the trigger resets. -/
theorem failed_of_resets (hs : s.Unlocked t) {config : Config} (hconfig : s.configs c = some config)
    (h : LaunchConfig.Resets { config.row.seen t with retrieved := true }) : s.failed c = true := by
  rw [config_seen_eq_committed hs hconfig] at h
  unfold State.failed
  rw [hconfig, Option.any_some, decide_eq_true_eq]
  exact h

/-- **The flush.** Where the trigger resets the job, nobody holds it. -/
theorem Inv.flush (hs : Inv s) {miner : Miner} (ht : s.txns t = some (.claim c miner .loaded))
    (hok : s.failed c → s.HeldBy c) (h : step s (.flush t) = some s') : Inv s' := by
  simp only [step, ht] at h
  obtain ⟨s₁, hupdate, rfl⟩ := Option.map_eq_some_iff.1 h
  obtain ⟨config, hconfig, -, htxns, hheld, hconfigs, hjob⟩ := updateConfig_cases hupdate
  have hfree : s.Unlocked t :=
    (hs.locked t).unlocked (by simp [State.locks, ht, Txn.locks, Phase.locks])
  have hnone : ∀ v, s₁.job.writer = some (t, v) → s.held = [] := by
    intro v hv
    rcases hjob with ⟨-, hjob⟩ | ⟨hresets, -⟩
    · exact absurd (hjob ▸ hv) (hfree.job v)
    · have hfailed := failed_of_resets hfree hconfig hresets
      rw [List.eq_nil_iff_forall_not_mem]
      intro claim hclaim
      have halive := hs.alive claim hclaim
      rw [hok hfailed claim hclaim, hfailed] at halive
      simp at halive
  have hfailed : ∀ c', (s₁.enter t (some (.claim c miner .verifying))).failed c' = s.failed c' :=
    fun c' => updateConfig_failed hupdate c'
  have hcommitted : s₁.job.committed = s.job.committed := updateConfig_committed hupdate
  refine hs.quiet hheld hcommitted hfailed fun u => ?_
  by_cases hu : u = t
  · subst hu
    have hlocks : (s₁.enter u (some (.claim c miner .verifying))).locks u = some c := by
      simp [State.locks, Txn.locks, Phase.locks]
    refine ⟨fun v hv => ⟨hheld.trans (hnone v hv), by simp [hlocks], ?_⟩,
      fun c' config' v hc hw => ?_, fun c' miner' phase hphase => ?_⟩
    · replace hv : s₁.job.writer = some (u, v) := hv
      replace hcommitted : s₁.job.committed = s.job.committed := hcommitted
      rcases hjob with ⟨-, hjob⟩ | ⟨-, hjob⟩
      · exact absurd (hjob ▸ hv) (hfree.job v)
      · obtain ⟨-, hrow⟩ := Row.update_eq_some.1 hjob
        rw [hrow, seen_eq_committed hfree] at hv
        obtain ⟨-, rfl⟩ := Prod.mk.inj (Option.some.inj hv)
        rw [enter_job, hcommitted]
        exact ⟨rfl, fun _ => rfl⟩
    · rw [enter_configs, hconfigs, Function.update_apply] at hc
      split at hc
      · next hcc => rw [hlocks, hcc]
      · exact absurd hw (hfree.configs c' config' v hc)
    · rw [enter_txns_self, Option.some.injEq, Txn.claim.injEq] at hphase
      rw [← hphase.2.2]
      trivial
  · exact ((hs.locked u).updateConfig hu hupdate).enter hu _

/-- What the request sees of the job's end is committed. -/
theorem State.Locked.seen_finished (hs : s.Locked t) :
    (s.job.seen t).finished = s.job.committed.finished := by
  rcases s.job.writer_cases t with ⟨v, hv⟩ | hv
  · rw [Row.seen_of_writer hv]
    exact (hs.job v hv).2.2.1
  · rw [Row.seen_of_not_writer hv]

/-- A claim that has flushed goes on to an update of the job, while nobody
holds it. -/
theorem Inv.updateJob (hs : Inv s) {g : Job → Job} {job : Row TxnId Job} {miner : Miner}
    {phase phase' : Phase} (ht : s.txns t = some (.claim c miner phase)) (hphase : phase.locks)
    (hphase' : phase'.locks) (hnone : s.held = []) (hjob : s.job.update t g = some job)
    (hg : ∀ job, (g job).finished = job.finished) (hopen : (s.job.seen t).finished = false)
    (hwritten : State.Written { s.enter t (some (.claim c miner phase')) with job } t miner
      phase') :
    Inv { s.enter t (some (.claim c miner phase')) with job } := by
  have hcommitted : job.committed = s.job.committed := by
    obtain ⟨-, rfl⟩ := Row.update_eq_some.1 hjob
    rfl
  refine hs.quiet rfl hcommitted (fun _ => rfl) fun u => ?_
  by_cases hu : u = t
  · subst hu
    have hlocks : State.locks { s.enter u (some (.claim c miner phase')) with job } u =
        s.locks u := by
      simp [State.locks, ht, Txn.locks, hphase, hphase']
    refine ⟨fun v hv => ⟨hnone, ?_, ?_⟩, fun c' config v hc hw => ?_,
      fun c' miner' phase'' h => ?_⟩
    · rw [hlocks]
      simp [State.locks, ht, Txn.locks, hphase]
    · obtain ⟨-, hrow⟩ := Row.update_eq_some.1 hjob
      replace hv : job.writer = some (u, v) := hv
      rw [hrow] at hv
      obtain ⟨-, rfl⟩ := Prod.mk.inj (Option.some.inj hv)
      have hfinished := (hs.locked u).seen_finished
      rw [hg, hcommitted, ← hfinished, hopen]
      exact ⟨rfl, by simp⟩
    · rw [hlocks]
      exact (hs.locked u).configs c' config v hc hw
    · have htxn : some (Txn.claim c miner phase') = some (.claim c' miner' phase'') :=
        (enter_txns_self s u _).symm.trans h
      simp only [Option.some.injEq, Txn.claim.injEq] at htxn
      obtain ⟨-, rfl, rfl⟩ := htxn
      exact hwritten
  · exact (hs.locked u).updateJob hu hjob _

/-- Nobody holds a job that a transaction which may update it sees without
a miner. -/
theorem Inv.held_eq_nil (hs : Inv s) (hlock : s.job.Lockable t)
    (hseen : (s.job.seen t).minerHotkey = none) : s.held = [] := by
  rcases hw : s.job.writer with _ | ⟨u, v⟩
  · rw [Row.seen_of_not_writer (by simp [hw])] at hseen
    rw [List.eq_nil_iff_forall_not_mem]
    intro claim hclaim
    simp [(hs.agreed.assigned claim hclaim).minerHotkey] at hseen
  · obtain rfl : u = t := hlock _ hw
    exact ((hs.locked u).job v hw).1

/-- **The conditional update.** -/
theorem Inv.assign (hs : Inv s) {miner : Miner}
    (ht : s.txns t = some (.claim c miner .verifying))
    (hok : (s.job.seen t).minerHotkey = none → (s.job.seen t).finished = false)
    (h : step s (.assign t) = some s') : Inv s' := by
  simp only [step, ht] at h
  split at h
  · next hseen =>
    obtain ⟨job, hjob, rfl⟩ := Option.map_eq_some_iff.1 h
    obtain ⟨hlock, hrow⟩ := Row.update_eq_some.1 hjob
    refine hs.updateJob ht rfl rfl (hs.held_eq_nil hlock hseen) hjob (fun _ => rfl) (hok hseen) ?_
    exact ⟨s.job.seen t, by rw [hrow], hok hseen⟩
  · -- the claim is lost; it has still what it had locked
    obtain rfl := Option.some.inj h
    refine hs.quiet rfl rfl (fun _ => rfl) fun u => ?_
    by_cases hu : u = t
    · subst hu
      have hlocks : (s.enter u (some (.claim c miner .lost))).locks u = s.locks u := by
        simp [State.locks, ht, Txn.locks, Phase.locks]
      refine ⟨fun v hv => hlocks ▸ (hs.locked u).job v hv,
        fun c' config v hc hw => hlocks ▸ (hs.locked u).configs c' config v hc hw,
        fun c' miner' phase hphase => ?_⟩
      rw [enter_txns_self, Option.some.injEq, Txn.claim.injEq] at hphase
      rw [← hphase.2.2]
      trivial
    · exact (hs.locked u).enter hu _

theorem Inv.attach (hs : Inv s) {miner : Miner} {instanceId : String}
    (ht : s.txns t = some (.claim c miner .assigned))
    (h : step s (.attach t instanceId) = some s') : Inv s' := by
  simp only [step, ht] at h
  obtain ⟨job, hjob, rfl⟩ := Option.map_eq_some_iff.1 h
  obtain ⟨old, hwriter, hfinished⟩ := (hs.locked t).written _ _ _ ht
  obtain ⟨-, hrow⟩ := Row.update_eq_some.1 hjob
  have hseen := Row.seen_of_writer hwriter
  rw [hseen] at hrow
  refine hs.updateJob ht rfl rfl ((hs.locked t).job _ hwriter).1 hjob (fun _ => rfl)
    (by rw [hseen]; exact hfinished) ?_
  exact ⟨(old.assign miner).attach instanceId, by rw [hrow],
    Job.assign_attach_assignedTo old miner instanceId, hfinished⟩

/-- **A new config.** The miner's hotkey joins the history, and the job is
whose it was. -/
theorem Inv.createLaunchConfig (hs : Inv s)
    (h : step s (.createLaunchConfig t c) = some s') : Inv s' := by
  simp only [step] at h
  split at h
  · next miner ht hc =>
    obtain ⟨job, hjob, rfl⟩ := Option.map_eq_some_iff.1 h
    have hlocks : s.locks t = none := by simp [State.locks, ht, Txn.locks]
    have hfree : s.Unlocked t := (hs.locked t).unlocked hlocks
    obtain ⟨-, hrow⟩ := Row.update_eq_some.1 hjob
    have hcommit : job.commit t = .idle (s.job.committed.track miner.hotkey) := by
      rw [hrow, Row.commit_of_writer rfl, seen_eq_committed hfree]
    have halive : ∀ claim ∈ s.held, ∀ config : Config, config.row.committed = {} →
        ((Function.update s.configs c (some config) claim.configId).any fun config =>
          decide config.row.committed.Resets) = false := by
      intro claim hclaim config hconfig
      rw [Function.update_apply]
      split
      · rw [Option.any_some, hconfig]
        decide
      · exact hs.alive claim hclaim
    refine ⟨⟨fun claim hclaim => ?_, hs.agreed.one, fun hfinished => ?_⟩,
      fun claim hclaim => halive claim hclaim _ rfl, fun u => ?_⟩
    · simp only [hcommit, Row.idle_committed]
      exact Job.track_assignedTo.2 (hs.agreed.assigned claim hclaim)
    · simp only [hcommit, Row.idle_committed, Job.track_finished] at hfinished
      exact hs.agreed.finished hfinished
    · by_cases hu : u = t
      · subst hu
        refine ⟨fun v hv => absurd hv (Row.commit_writer_ne job u v), fun c' config v hc' hw => ?_,
          fun c' miner' phase hphase => ?_⟩
        · simp only [Function.update_apply] at hc'
          split at hc'
          · obtain rfl := Option.some.inj hc'
            simp at hw
          · exact absurd hw (hfree.configs c' config v hc')
        · simp at hphase
      · refine (hs.locked u).frame (enter_txns_of_ne s none hu)
          (fun _ => Row.update_commit_of_writer hjob hu) (fun c' config v hc' hw => ?_)
          fun _ _ h => h
        simp only [Function.update_apply] at hc'
        split at hc'
        · obtain rfl := Option.some.inj hc'
          simp at hw
        · exact ⟨config, hc', hw⟩
  · simp at h

/-- The end of the claims. -/
theorem Inv.endClaims (hs : Inv s) (ht : s.txns t = none) {g : Job → Job}
    (h : s.endClaims t g = some s') : Inv s' := by
  obtain ⟨job, hjob, rfl⟩ := Option.map_eq_some_iff.1 h
  have hfree : s.Unlocked t := (hs.locked t).unlocked (by simp [State.locks, ht])
  refine ⟨⟨by simp, by simp, by simp⟩, by simp, fun u => ?_⟩
  by_cases hu : u = t
  · subst hu
    exact ⟨fun v hv => absurd hv (Row.commit_writer_ne job u v),
      fun c config v hc hw => absurd hw (hfree.configs c config v hc), by simp [ht]⟩
  · exact (hs.locked u).frame rfl (fun _ => Row.update_commit_of_writer hjob hu)
      (fun _ config _ hc hw => ⟨config, hc, hw⟩) fun _ _ _ => rfl

/-- **The step lemma.** -/
theorem Inv.step {a : Action} (hs : Inv s) (hok : Orderly s a) (h : step s a = some s') :
    Inv s' := by
  have hconfigOf : ∀ {t c miner phase}, s.txns t = some (.claim c miner phase) →
      c ∈ s.configOf t := fun ht => by simp [State.configOf, ht, Txn.configId]
  cases a with
  | getLaunchConfig t miner =>
    simp only [Launch.step] at h
    split at h
    · next hnew =>
      obtain rfl := Option.some.inj h
      exact hs.enter (by simp [State.locks, hnew.1]) rfl
    · simp at h
  | createLaunchConfig t c => exact hs.createLaunchConfig h
  | loadLaunchConfig t c =>
    simp only [Launch.step] at h
    split at h
    · next config ht hc =>
      split at h
      · obtain rfl := Option.some.inj h
        exact hs.enter (by simp [State.locks, ht]) rfl
      · simp at h
    · simp at h
  | flush t =>
    rcases ht : s.txns t with _ | (miner | ⟨c, miner, phase⟩)
    · simp [Launch.step, ht] at h
    · simp [Launch.step, ht] at h
    · cases phase with
      | loaded => exact hs.flush ht (hok c (hconfigOf ht)) h
      | _ => simp [Launch.step, ht] at h
  | failVerification t error =>
    simp only [Launch.step] at h
    split at h
    · next c miner ht => exact hs.finishWith (fun _ _ _ => hok c (hconfigOf ht)) h
    · simp at h
  | assign t =>
    rcases ht : s.txns t with _ | (miner | ⟨c, miner, phase⟩)
    · simp [Launch.step, ht] at h
    · simp [Launch.step, ht] at h
    · cases phase with
      | verifying => exact hs.assign ht hok h
      | _ => simp [Launch.step, ht] at h
  | failLost t =>
    simp only [Launch.step] at h
    split at h
    · next c miner ht => exact hs.finishWith (fun _ _ _ => hok c (hconfigOf ht)) h
    · simp at h
  | attach t instanceId =>
    rcases ht : s.txns t with _ | (miner | ⟨c, miner, phase⟩)
    · simp [Launch.step, ht] at h
    · simp [Launch.step, ht] at h
    · cases phase with
      | assigned => exact hs.attach ht h
      | _ => simp [Launch.step, ht] at h
  | rollbackNodes t =>
    simp only [Launch.step] at h
    split at h
    · obtain rfl := Option.some.inj h
      exact hs.rollback rfl
    · simp at h
  | failNodes t =>
    simp only [Launch.step] at h
    split at h
    · next c miner ht => exact hs.finishWith (fun _ _ _ => hok c (hconfigOf ht)) h
    · simp at h
  | commit t seed =>
    rcases ht : s.txns t with _ | (miner | ⟨c, miner, phase⟩)
    · simp [Launch.step, ht] at h
    · simp [Launch.step, ht] at h
    · cases phase with
      | attached instanceId => exact hs.commit ht h
      | _ => simp [Launch.step, ht] at h
  | retrieve t =>
    simp only [Launch.step] at h
    split at h
    · next c miner ht =>
      -- A claim that is committed holds no lock, and resets what is committed.
      have hfree : s.Unlocked t :=
        (hs.locked t).unlocked (by simp [State.locks, ht, Txn.locks, Phase.locks])
      exact hs.finishWith (fun config hconfig hresets =>
        hok c (hconfigOf ht) (failed_of_resets hfree hconfig hresets)) h
    · simp at h
  | abort t =>
    simp only [Launch.step] at h
    split at h
    · simp at h
    · obtain rfl := Option.some.inj h
      exact hs.rollback rfl
  | completeJob t =>
    simp only [Launch.step] at h
    split at h
    · next hnew => exact hs.endClaims hnew.1 h
    · simp at h
  | releaseJob t hotkey =>
    simp only [Launch.step] at h
    split at h
    · next hnew => exact hs.endClaims hnew.1 h
    · simp at h
  | failInstance t c error =>
    simp only [Launch.step] at h
    split at h
    · split at h
      · exact hs.finishWith (fun _ _ _ => hok) h
      · simp at h
    · simp at h

/-! ## What a step keeps -/

theorem finishWith_held (h : s.finishWith t c f = some s') {claim : Claim} (hclaim : claim ∈ s.held)
    (halive : ¬ s'.failed claim.configId) : claim ∈ s'.held := by
  obtain ⟨s₁, hupdate, rfl⟩ := Option.map_eq_some_iff.1 h
  obtain ⟨config, -, -, -, hheld, -⟩ := updateConfig_cases hupdate
  rw [enter_failed, Bool.not_eq_true] at halive
  rw [enter_held, commit_held, List.mem_filter, hheld, halive]
  exact ⟨hclaim, rfl⟩

/-- **A claim holds the job until something ends it.** -/
theorem held_of_step {a : Action} (h : step s a = some s') {claim : Claim} (hclaim : claim ∈ s.held)
    (hends : ¬ a.Ends s' claim) : claim ∈ s'.held := by
  cases a with
  | completeJob t => exact absurd trivial hends
  | releaseJob t hotkey => exact absurd trivial hends
  | commit t seed =>
    simp only [step] at h
    split at h
    · next c miner instanceId _ =>
      obtain ⟨s₁, hflushed, rfl⟩ := Option.map_eq_some_iff.1 h
      obtain ⟨config, -, hflushed⟩ := Option.bind_eq_some_iff.1 hflushed
      have hheld : s₁.held = s.held := by
        split at hflushed
        · rw [Option.some.inj hflushed]
        · obtain ⟨_, -, -, -, hheld, -⟩ := updateConfig_cases hflushed
          exact hheld
      replace hends : ¬ (State.commit { s₁ with
          held := s₁.held ++ [⟨c, miner, instanceId⟩] } t).failed claim.configId := hends
      rw [Bool.not_eq_true] at hends
      rw [enter_held, commit_held, List.mem_filter, hends, hheld]
      exact ⟨List.mem_append_left _ hclaim, rfl⟩
    · simp at h
  | failVerification t error | failLost t | failNodes t | retrieve t =>
    simp only [step] at h
    split at h
    · exact finishWith_held h hclaim hends
    · simp at h
  | failInstance t c error =>
    simp only [step] at h
    split at h
    · split at h
      · exact finishWith_held h hclaim hends
      · simp at h
    · simp at h
  | getLaunchConfig t miner | abort t =>
    simp only [step] at h
    split at h
    all_goals simp only [reduceCtorEq, Option.some.injEq] at h
    exact h ▸ hclaim
  | createLaunchConfig t c | attach t instanceId =>
    simp only [step] at h
    split at h
    · obtain ⟨job, -, rfl⟩ := Option.map_eq_some_iff.1 h
      exact hclaim
    · simp at h
  | loadLaunchConfig t c =>
    simp only [step] at h
    split at h
    · split at h
      · exact Option.some.inj h ▸ hclaim
      · simp at h
    · simp at h
  | flush t =>
    simp only [step] at h
    split at h
    · obtain ⟨s₁, hupdate, rfl⟩ := Option.map_eq_some_iff.1 h
      obtain ⟨config, -, -, -, hheld, -⟩ := updateConfig_cases hupdate
      exact hheld ▸ hclaim
    · simp at h
  | assign t =>
    simp only [step] at h
    split at h
    · split at h
      · obtain ⟨job, -, rfl⟩ := Option.map_eq_some_iff.1 h
        exact hclaim
      · exact Option.some.inj h ▸ hclaim
    · simp at h
  | rollbackNodes t =>
    simp only [step] at h
    split at h
    · exact Option.some.inj h ▸ hclaim
    · simp at h

/-- A finished job is assigned in no transaction's view. -/
theorem State.Locked.seen_minerHotkey (hs : s.Locked t) (hfinished : s.job.committed.finished) :
    (s.job.seen t).minerHotkey = none ∨
      (s.job.seen t).minerHotkey = s.job.committed.minerHotkey := by
  rcases s.job.writer_cases t with ⟨v, hv⟩ | hv
  · obtain ⟨-, -, hsame, hnone⟩ := hs.job v hv
    rw [Row.seen_of_writer hv]
    exact .inl (hnone (hsame.trans hfinished))
  · rw [Row.seen_of_not_writer hv]
    exact .inr rfl

theorem finishWith_minerHotkey (hs : Inv s) (hfinished : s.job.committed.finished)
    (h : s.finishWith t c f = some s') : s'.job.committed.minerHotkey = none ∨
      s'.job.committed.minerHotkey = s.job.committed.minerHotkey := by
  obtain ⟨s₁, hupdate, rfl⟩ := Option.map_eq_some_iff.1 h
  obtain ⟨config, -, -, -, -, -, ⟨-, hjob⟩ | ⟨-, hjob⟩⟩ := updateConfig_cases hupdate
  · rw [enter_job, commit_job, Row.commit_committed, hjob]
    exact (hs.locked t).seen_minerHotkey hfinished
  · obtain ⟨-, hjob⟩ := Row.update_eq_some.1 hjob
    rw [enter_job, commit_job, Row.commit_committed, hjob, Row.seen_of_writer rfl]
    exact .inl rfl

/-- **A finished job stays unassigned.** -/
theorem minerHotkey_of_finished {a : Action} (hs : Inv s) (hfinished : s.job.committed.finished)
    (h : step s a = some s') : s'.job.committed.minerHotkey = none ∨
      s'.job.committed.minerHotkey = s.job.committed.minerHotkey := by
  cases a with
  | completeJob t | releaseJob t hotkey => simp [step, hfinished] at h
  | commit t seed =>
    rcases ht : s.txns t with _ | (miner | ⟨c, miner, phase⟩)
    · simp [step, ht] at h
    · simp [step, ht] at h
    · cases phase with
      | attached instanceId =>
        -- the claim has seen the job unfinished, and has had it locked since
        obtain ⟨job, hwriter, -, hopen⟩ := (hs.locked t).written _ _ _ ht
        have hsame := ((hs.locked t).job job hwriter).2.2.1
        rw [hopen, hfinished] at hsame
        simp at hsame
      | _ => simp [step, ht] at h
  | failVerification t error | failLost t | failNodes t | retrieve t =>
    simp only [step] at h
    split at h
    · exact finishWith_minerHotkey hs hfinished h
    · simp at h
  | failInstance t c error =>
    simp only [step] at h
    split at h
    · split at h
      · exact finishWith_minerHotkey hs hfinished h
      · simp at h
    · simp at h
  | createLaunchConfig t c =>
    simp only [step] at h
    split at h
    · obtain ⟨job, hjob, rfl⟩ := Option.map_eq_some_iff.1 h
      obtain ⟨-, hrow⟩ := Row.update_eq_some.1 hjob
      simp only [Row.commit_committed]
      rw [hrow, Row.seen_of_writer rfl, Job.track_minerHotkey]
      exact (hs.locked t).seen_minerHotkey hfinished
    · simp at h
  | getLaunchConfig t miner =>
    simp only [step] at h
    split at h
    all_goals simp only [reduceCtorEq, Option.some.injEq] at h
    exact .inr (h ▸ rfl)
  | abort t =>
    simp only [step] at h
    split at h
    all_goals simp only [reduceCtorEq, Option.some.injEq] at h
    subst h
    exact .inr (by simp)
  | loadLaunchConfig t c =>
    simp only [step] at h
    split at h
    · split at h
      · exact .inr (Option.some.inj h ▸ rfl)
      · simp at h
    · simp at h
  | flush t =>
    simp only [step] at h
    split at h
    · obtain ⟨s₁, hupdate, rfl⟩ := Option.map_eq_some_iff.1 h
      rw [enter_job, updateConfig_committed hupdate]
      exact .inr rfl
    · simp at h
  | assign t =>
    simp only [step] at h
    split at h
    · split at h
      · obtain ⟨job, hjob, rfl⟩ := Option.map_eq_some_iff.1 h
        obtain ⟨-, rfl⟩ := Row.update_eq_some.1 hjob
        exact .inr rfl
      · exact .inr (Option.some.inj h ▸ rfl)
    · simp at h
  | attach t instanceId =>
    simp only [step] at h
    split at h
    · obtain ⟨job, hjob, rfl⟩ := Option.map_eq_some_iff.1 h
      obtain ⟨-, rfl⟩ := Row.update_eq_some.1 hjob
      exact .inr rfl
    · simp at h
  | rollbackNodes t =>
    simp only [step] at h
    split at h
    · obtain rfl := Option.some.inj h
      exact .inr (by simp)
    · simp at h

/-! ## The result -/

theorem inv_of_reach {as : List Action} (h : system.Reach Orderly as s) : Inv s :=
  h.invariant (by rintro s ⟨jobId, rfl⟩; exact inv_start jobId) fun _ _ _ hi hok hstep =>
    hi.step hok hstep

/-- **The miners agree on whose the job is**, in every state that orderly
steps reach, and at every further one. -/
theorem claim_agreement {as : List Action} (h : system.Reach Orderly as s) :
    s.Agreed ∧ ∀ a s', Orderly s a → step s a = some s' → Keeps s a s' := by
  have hs := inv_of_reach h
  refine ⟨hs.agreed, fun a s' hok hstep => ⟨fun claim hclaim hends => ?_, fun hfinished => ?_⟩⟩
  · have hheld := held_of_step hstep hclaim hends
    exact ⟨hheld, (hs.step hok hstep).agreed.assigned claim hheld⟩
  · exact minerHotkey_of_finished hs hfinished hstep

section

private def winner : Miner := ⟨"5Winner", 1, "5WinnerCold"⟩

private def loser : Miner := ⟨"5Loser", 2, "5LoserCold"⟩

/-- Two configs, and the claim of the first. -/
private def won : List Action :=
  [.getLaunchConfig 1 winner, .createLaunchConfig 1 "w", .getLaunchConfig 2 loser,
    .createLaunchConfig 2 "l", .loadLaunchConfig 3 "w", .flush 3, .assign 3, .attach 3 "i",
    .commit 3 7]

/-- The claim of the second, which is lost. -/
private def lose : List Action := [.loadLaunchConfig 4 "l", .flush 4, .assign 4, .failLost 4]

/-- The winner has the job while the loser tries. -/
theorem claim_agreement_won : ∃ s : State,
    system.Reach Orderly (won ++ [.loadLaunchConfig 4 "l"]) s ∧
      s.held = [⟨"w", winner, "i"⟩] ∧ s.job.committed.AssignedTo winner "i" := by
  obtain ⟨s, hs⟩ : ∃ s, system.exec (.start "j") (won ++ [.loadLaunchConfig 4 "l"]) = some s :=
    Option.isSome_iff_exists.1 (by decide +kernel)
  have hheld : s.held = [⟨"w", winner, "i"⟩] := by
    have hsome : (system.exec (.start "j") (won ++ [.loadLaunchConfig 4 "l"])).map State.held =
        some [⟨"w", winner, "i"⟩] := by decide +kernel
    simpa [hs] using hsome
  have hreach : system.Reach Orderly (won ++ [.loadLaunchConfig 4 "l"]) s :=
    Lts.reach_of_exec ⟨"j", rfl⟩ (by decide +kernel) hs
  have hassigned := (claim_agreement hreach).1.assigned ⟨"w", winner, "i"⟩ (by simp [hheld])
  exact ⟨s, hreach, hheld, hassigned⟩

/-- **The loser takes the job from the winner.** -/
theorem not_claim_agreement : ¬ ∀ (as : List Action) (s : State), system.Run as s → s.Agreed := by
  intro h
  obtain ⟨s, hs⟩ : ∃ s, system.exec (.start "j") (won ++ lose) = some s :=
    Option.isSome_iff_exists.1 (by decide +kernel)
  have hreach : system.Run (won ++ lose) s :=
    Lts.reach_of_exec ⟨"j", rfl⟩ (Lts.meets_of_forall (fun _ _ _ => trivial) _) hs
  have hsome : (system.exec (.start "j") (won ++ lose)).map
      (fun s => (s.held, s.job.committed.minerHotkey)) = some ([⟨"w", winner, "i"⟩], none) := by
    decide +kernel
  obtain ⟨hheld, hnone⟩ : s.held = [⟨"w", winner, "i"⟩] ∧ s.job.committed.minerHotkey = none := by
    simpa [hs] using hsome
  have hassigned := (h _ s hreach).assigned ⟨"w", winner, "i"⟩ (by simp [hheld])
  rw [hassigned.minerHotkey] at hnone
  simp at hnone

end

end Launch

end ChutesApi
