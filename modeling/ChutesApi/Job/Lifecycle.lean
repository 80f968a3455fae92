import ChutesApi.Common.Lts
import ChutesApi.Instance.Model
/-!
# Jobs whose instance is gone

A job that is not finished and has a miner should have its instance. Each
deletion of an instance takes the job's reference to it away.
`delete_instance`, `complete_job` and the termination of the user's jobs
finish the job as well. `purge` looks the job up only once the reference is
gone, and the two other deletions of the balance refresher do not look at
all.

The law holds in the runs in which these three delete no instance that such
a job has (`lifecycle`).
-/

namespace ChutesApi

/-! ## What a deletion does to the jobs -/

/-- The job, once an instance is gone; `finishes` if the deletion finishes
the job of the instance. -/
def Job.drop (job : Job) (id : String) (finishes : Bool) : Job :=
  if job.instanceId = some id then
    { job with instanceId := none, finished := job.finished || finishes }
  else job

namespace Job

variable {job : Job} {id : String} {finishes : Bool}

@[simp] theorem drop_jobId : (job.drop id finishes).jobId = job.jobId := by
  unfold drop
  split <;> rfl

@[simp] theorem drop_minerHotkey : (job.drop id finishes).minerHotkey = job.minerHotkey := by
  unfold drop
  split <;> rfl

theorem drop_of_ne (h : job.instanceId ≠ some id) : job.drop id finishes = job := if_neg h

theorem drop_finished_eq_false (h : (job.drop id finishes).finished = false) :
    job.finished = false ∧ (job.instanceId = some id → finishes = false) := by
  unfold drop at h
  split at h
  · simp only [Bool.or_eq_false_iff] at h
    exact ⟨h.1, fun _ => h.2⟩
  · next hne => exact ⟨h, fun heq => absurd heq hne⟩

/-- A reference that is gone stays gone. -/
theorem drop_drop (finishes' : Bool) :
    (job.drop id finishes).drop id finishes' = job.drop id finishes := by
  by_cases h : job.instanceId = some id
  · simp [drop, h]
  · rw [drop_of_ne h, drop_of_ne h]

end Job

namespace Db

variable {db db' : Db} {now : ℚ} {id : String}

theorem unbind_jobs (db : Db) (id : String) :
    (db.unbind id).jobs = db.jobs.map (·.drop id false) := by
  unfold unbind
  refine List.map_congr_left fun job _ => ?_
  simp only [Job.drop, Bool.or_false]

theorem finishJobOf_unbind_jobs (db : Db) (id : String) :
    ((db.finishJobOf id).unbind id).jobs = db.jobs.map (·.drop id true) := by
  rw [unbind_jobs]
  unfold finishJobOf
  rw [List.map_map]
  refine List.map_congr_left fun job _ => ?_
  by_cases h : job.instanceId = some id
  · cases hfinished : job.finished <;> simp [Job.drop, h, hfinished]
  · simp [Job.drop, h]

/-- The trigger changes no job and no instance. -/
theorem updateBalance_frame {old : Instance}
    (h : db.updateBalanceOnInstanceDelete now id old = some db') :
    db'.jobs = db.jobs ∧ db'.instances = db.instances := by
  unfold updateBalanceOnInstanceDelete at h
  split at h
  · cases h
    exact ⟨rfl, rfl⟩
  · split_ifs at h
    · cases h
      exact ⟨rfl, rfl⟩
    · cases h
      exact ⟨rfl, rfl⟩
    · split at h
      · cases h
        exact ⟨rfl, rfl⟩
      · obtain ⟨cost, -, rfl⟩ := Option.map_eq_some_iff.1 h
        exact ⟨rfl, rfl⟩

theorem rawDelete_spec (h : db.rawDelete now id = some db') (hi : (db.instances id).isSome) :
    db'.jobs = db.jobs.map (·.drop id false) ∧
      db'.instances = Function.update db.instances id none := by
  obtain ⟨old, hold⟩ := Option.isSome_iff_exists.1 hi
  unfold rawDelete at h
  rw [hold] at h
  obtain ⟨charged, hcharged, rfl⟩ := Option.map_eq_some_iff.1 h
  obtain ⟨hjobs, hinstances⟩ := updateBalance_frame hcharged
  exact ⟨by rw [← hjobs, ← unbind_jobs], by rw [hinstances]⟩

/-- **A session's deletion**, of an instance whose job may have been
finished in the same transaction. -/
theorem sessionDelete_spec (h : db.sessionDelete now id = some db')
    (hi : (db.instances id).isSome) :
    db'.jobs = (db.unbind id).jobs ∧ db'.instances = Function.update db.instances id none := by
  have hraw : (db.unbind id).rawDelete now id = some db' := h
  obtain ⟨hjobs, hinstances⟩ := rawDelete_spec hraw hi
  refine ⟨?_, hinstances⟩
  rw [hjobs, unbind_jobs, List.map_map]
  exact List.map_congr_left fun job _ => Job.drop_drop false

end Db

namespace Deletion

variable {db db' : Db} {now : ℚ} {id : String} {d : Deletion}

theorem Applies.isSome (h : d.Applies db now id) : (db.instances id).isSome := by
  cases d with
  | purge | deleteInstance => exact h
  | completeJob | terminateJob => exact h.1
  | shutdownStale | terminateInstance =>
    obtain ⟨i, hi, -⟩ := h
    exact Option.isSome_of_mem hi

/-- **What each deletion does**: the row is gone, its job has no instance,
and is finished by the deletions that see to it. -/
theorem run_spec (hi : (db.instances id).isSome) (h : d.run db now id = some db') :
    db'.jobs = db.jobs.map (·.drop id d.finishesJob) ∧
      db'.instances = Function.update db.instances id none := by
  cases d with
  | purge =>
    obtain ⟨deleted, hdeleted, rfl⟩ := Option.map_eq_some_iff.1 h
    obtain ⟨hjobs, hinstances⟩ := Db.rawDelete_spec hdeleted hi
    refine ⟨?_, hinstances⟩
    -- No job refers to the instance by now.
    unfold Db.finishJobOf
    rw [hjobs, List.map_map]
    refine List.map_congr_left fun job _ => ?_
    have hgone : (job.drop id false).instanceId ≠ some id := by
      unfold Job.drop
      split
      · simp
      · assumption
    simp [hgone, finishesJob]
  | deleteInstance | completeJob | terminateJob =>
    have hsession : (db.finishJobOf id).sessionDelete now id = some db' := h
    obtain ⟨hjobs, hinstances⟩ := Db.sessionDelete_spec hsession hi
    exact ⟨by rw [hjobs, Db.finishJobOf_unbind_jobs]; rfl, hinstances⟩
  | shutdownStale | terminateInstance =>
    obtain ⟨hjobs, hinstances⟩ := Db.sessionDelete_spec h hi
    exact ⟨by rw [hjobs, Db.unbind_jobs]; rfl, hinstances⟩

end Deletion

/-! ## The system -/

namespace Lifecycle

structure State where
  db : Db
  /-- The instance that a job was last assigned to. -/
  assigned : String → Option String

/-- A change of one job. -/
def State.updateJob (s : State) (jobId : String) (f : Job → Job) : State :=
  { s with
    db := { s.db with
      jobs := s.db.jobs.map fun job => if job.jobId = jobId then f job else job } }

/-- A new row of `instances`. -/
def State.addInstance (s : State) (id : String) (i : Instance) : State :=
  { s with db := { s.db with instances := Function.update s.db.instances id (some i) } }

/-- A claim that commits: the job is the miner's, with a new instance. -/
def State.claim (s : State) (jobId : String) (miner : Miner) (id : String) (i : Instance) :
    State where
  db := ((s.updateJob jobId fun job => (job.assign miner).attach id).addInstance id i).db
  assigned := Function.update s.assigned jobId (some id)

/-- What commits. -/
inductive Action
  | createJob (jobId : String)
  /-- `claim_launch_config`, of a config without a job. -/
  | launch (id : String) (i : Instance)
  /-- `claim_launch_config`, of a config of a job that nobody has. -/
  | claim (jobId : String) (miner : Miner) (id : String) (i : Instance)
  /-- The failure of a config of the job. -/
  | failClaim (jobId : String)
  | releaseJob (jobId hotkey : String)
  | delete (id : String) (d : Deletion) (now : ℚ)
  /-- `complete_job`, of a job without an instance. -/
  | complete (jobId : String)

instance (d : Deletion) (db : Db) (now : ℚ) (id : String) : Decidable (d.Applies db now id) := by
  cases d <;> unfold Deletion.Applies <;> infer_instance

def step (s : State) : Action → Option State
  | .createJob jobId =>
    if ∃ job ∈ s.db.jobs, job.jobId = jobId then none
    else some { s with db := { s.db with jobs := s.db.jobs ++ [{ jobId }] } }
  | .launch id i => if s.db.instances id = none then some (s.addInstance id i) else none
  | .claim jobId miner id i =>
    if (∃ job ∈ s.db.jobs, job.jobId = jobId ∧ job.minerHotkey = none) ∧
        s.db.instances id = none then
      some (s.claim jobId miner id i)
    else none
  | .failClaim jobId => some (s.updateJob jobId Job.reset)
  | .releaseJob jobId hotkey =>
    if ∃ job ∈ s.db.jobs, job.jobId = jobId ∧ job.minerHotkey = some hotkey ∧
        job.finished = false then
      some (s.updateJob jobId Job.release)
    else none
  | .delete id d now =>
    if d.Applies s.db now id then (d.run s.db now id).map fun db => { s with db } else none
  | .complete jobId =>
    if ∃ job ∈ s.db.jobs, job.jobId = jobId ∧ job.instanceId = none ∧ job.finished = false then
      some (s.updateJob jobId Job.complete)
    else none

/-- Jobs and instances come and go from an empty database. -/
def system : Lts State Action where
  init s := s.db.jobs = [] ∧ ∀ id, s.db.instances id = none
  step := step

/-- **No job waits for an instance that is gone.** -/
def Held (s : State) : Prop :=
  ∀ job ∈ s.db.jobs, job.finished = false → job.minerHotkey ≠ none →
    ∀ id, s.assigned job.jobId = some id → (s.db.instances id).isSome

/-- A deletion that leaves the job alone deletes no instance that the
miner of an unfinished job has. -/
def Orderly (s : State) : Action → Prop
  | .delete id d _ => d.finishesJob = false → ∀ job ∈ s.db.jobs, job.instanceId = some id →
    job.finished = false → job.minerHotkey = none
  | _ => True

instance (s : State) (a : Action) : Decidable (Orderly s a) := by
  cases a <;> unfold Orderly <;> infer_instance

/-! ## The invariant -/

/-- **A miner that has an unfinished job has its instance.** -/
def Inv (s : State) : Prop :=
  ∀ job ∈ s.db.jobs, job.finished = false → job.minerHotkey ≠ none →
    ∃ id, job.instanceId = some id ∧ s.assigned job.jobId = some id ∧ (s.db.instances id).isSome

variable {s s' : State} {as : List Action} {a : Action}

theorem Inv.held (h : Inv s) : Held s := by
  intro job hjob hopen hminer id hid
  obtain ⟨id', -, hassigned, hsome⟩ := h job hjob hopen hminer
  rw [hassigned] at hid
  cases hid
  exact hsome

/-- A change that leaves the job finished or without a miner. -/
theorem Inv.updateJob (h : Inv s) (jobId : String) {f : Job → Job}
    (hf : ∀ job, (f job).finished = true ∨ (f job).minerHotkey = none) :
    Inv (s.updateJob jobId f) := by
  intro job' hjob' hopen hminer
  obtain ⟨job, hjob, rfl⟩ := List.mem_map.1 hjob'
  by_cases hid : job.jobId = jobId
  · rw [if_pos hid] at hopen hminer
    rcases hf job with hdone | hnone
    · rw [hdone] at hopen
      cases hopen
    · exact absurd hnone hminer
  · rw [if_neg hid] at hopen hminer ⊢
    exact h job hjob hopen hminer

theorem addInstance_isSome (s : State) (id : String) (i : Instance) {id' : String}
    (h : (s.db.instances id').isSome) : ((s.addInstance id i).db.instances id').isSome := by
  unfold State.addInstance
  by_cases heq : id' = id
  · subst heq
    simp
  · simpa [heq] using h

theorem Inv.addInstance (h : Inv s) (id : String) (i : Instance) : Inv (s.addInstance id i) := by
  intro job hjob hopen hminer
  obtain ⟨id', hinstance, hassigned, hsome⟩ := h job hjob hopen hminer
  exact ⟨id', hinstance, hassigned, addInstance_isSome s id i hsome⟩

theorem Inv.claim (h : Inv s) (jobId : String) (miner : Miner) (id : String) (i : Instance) :
    Inv (s.claim jobId miner id i) := by
  intro job' hjob' hopen hminer
  obtain ⟨job, hjob, rfl⟩ := List.mem_map.1 hjob'
  by_cases hid : job.jobId = jobId
  · rw [if_pos hid]
    refine ⟨id, rfl, ?_, ?_⟩
    · simp [State.claim, Job.attach, Job.assign, hid]
    · simp [State.claim, State.addInstance]
  · rw [if_neg hid] at hopen hminer ⊢
    obtain ⟨id', hinstance, hassigned, hsome⟩ := h job hjob hopen hminer
    refine ⟨id', hinstance, ?_, addInstance_isSome _ id i hsome⟩
    exact (Function.update_of_ne hid _ _).trans hassigned

/-- **A deletion**: the jobs of other instances keep theirs, and the job of
this one is finished, unless it has no miner. -/
theorem Inv.delete (h : Inv s) {id : String} {d : Deletion} {now : ℚ} {db : Db}
    (hok : Orderly s (.delete id d now)) (hi : (s.db.instances id).isSome)
    (hdb : d.run s.db now id = some db) : Inv { s with db } := by
  obtain ⟨hjobs, hinstances⟩ := Deletion.run_spec hi hdb
  intro job' hjob' hopen hminer
  simp only [hjobs] at hjob'
  obtain ⟨job, hjob, rfl⟩ := List.mem_map.1 hjob'
  rw [Job.drop_minerHotkey] at hminer
  obtain ⟨hopen, hfinishes⟩ := Job.drop_finished_eq_false hopen
  obtain ⟨id', hinstance, hassigned, hsome⟩ := h job hjob hopen hminer
  have hother : job.instanceId ≠ some id := fun heq =>
    hminer (hok (hfinishes heq) job hjob heq hopen)
  have hne : id' ≠ id := by
    rintro rfl
    exact hother hinstance
  rw [Job.drop_of_ne hother]
  refine ⟨id', hinstance, hassigned, ?_⟩
  simp only [hinstances, Function.update_of_ne hne]
  exact hsome

theorem Inv.step (h : Inv s) (hok : Orderly s a) (hs : step s a = some s') : Inv s' := by
  cases a with
  | createJob jobId =>
    obtain ⟨-, hs⟩ := Option.ite_none_left_eq_some.1 hs
    cases hs
    intro job hjob hopen hminer
    rcases List.mem_append.1 hjob with hold | hnew
    · exact h job hold hopen hminer
    · rw [List.mem_singleton.1 hnew] at hminer
      exact absurd rfl hminer
  | launch id i =>
    obtain ⟨-, hs⟩ := Option.ite_none_right_eq_some.1 hs
    cases hs
    exact h.addInstance id i
  | claim jobId miner id i =>
    obtain ⟨-, hs⟩ := Option.ite_none_right_eq_some.1 hs
    cases hs
    exact h.claim jobId miner id i
  | failClaim jobId =>
    cases hs
    exact h.updateJob jobId fun _ => .inr rfl
  | releaseJob jobId hotkey =>
    obtain ⟨-, hs⟩ := Option.ite_none_right_eq_some.1 hs
    cases hs
    exact h.updateJob jobId fun _ => .inr rfl
  | delete id d now =>
    obtain ⟨happlies, hs⟩ := Option.ite_none_right_eq_some.1 hs
    obtain ⟨db, hdb, rfl⟩ := Option.map_eq_some_iff.1 hs
    exact h.delete hok happlies.isSome hdb
  | complete jobId =>
    obtain ⟨-, hs⟩ := Option.ite_none_right_eq_some.1 hs
    cases hs
    exact h.updateJob jobId fun _ => .inl rfl

/-! ## The law -/

/-- **The law of the lifecycle**, in the runs in which no deletion that
leaves the job alone takes a miner's instance away. -/
theorem lifecycle (h : system.Reach Orderly as s) : Held s := by
  refine Inv.held (h.invariant ?_ fun _ _ _ hi => hi.step)
  rintro s ⟨hempty, -⟩ job hjob
  rw [hempty] at hjob
  cases hjob

section

/-- The database before the first job. -/
private def noJobs : State where
  db :=
    { instances := fun _ => none
      jobs := []
      isPublic := fun _ => false
      permissionsBitmask := fun _ => 0
      balance := fun _ => 0
      usageData := fun _ => none }
  assigned _ := none

private theorem noJobs_init : system.init noJobs := ⟨rfl, fun _ => rfl⟩

private def claimed : List Action :=
  [.createJob "j", .claim "j" ⟨"5Miner", 7, "5Cold"⟩ "i" ⟨"c", some "u", none, none, 2⟩]

theorem lifecycle_claimed : ∃ s, system.Reach Orderly
    (claimed ++ [.delete "i" .deleteInstance 10]) s ∧ Held s := by
  have hr : system.Reach Orderly (claimed ++ [.delete "i" .deleteInstance 10]) _ :=
    Lts.reach_of_exec noJobs_init (by decide +kernel) rfl
  exact ⟨_, hr, lifecycle hr⟩

/-- **A job that the watchtower leaves behind.** -/
theorem not_lifecycle : ¬ ∀ as s, system.Run as s → Held s := by
  intro h
  have hr : system.Run (claimed ++ [.delete "i" .purge 10]) _ :=
    Lts.reach_of_exec noJobs_init (Lts.meets_of_forall (fun _ _ _ => trivial) _) rfl
  have hheld := h _ _ hr _ (.head _) rfl (by decide +kernel) "i" rfl
  exact absurd hheld (by decide +kernel)

end

end Lifecycle

end ChutesApi
