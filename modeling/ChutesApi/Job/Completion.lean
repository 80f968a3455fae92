import ChutesApi.Common.Lts
import ChutesApi.Job.Model.Requests
import Mathlib.Logic.Function.Basic
/-!
# The end of a job

`complete_job` should end a job without an error of its own, in a status
that says how it went, and nothing should change afterwards. The last holds
(`finished_frame`). The first two fail where the job was never finished by
its instance, or with a status, a result or a detail that `complete_job`
does not expect; `complete_sound_iff` says exactly where, for one request,
and `completion` is the law of the runs that avoid it.
-/

namespace ChutesApi

open Python

namespace JobRecord

/-- **A finished job says how it ended**: its status is terminal, and
"complete" only if all of its files are there. -/
structure Settled (job : JobRecord) : Prop where
  terminal : job.finished → job.status ≠ "pending" ∧ job.status ≠ "complete_pending_uploads"
  complete : job.finished → job.status = "complete" → ∀ entry ∈ job.files, entry.2.uploaded

/-- **What `complete_job` expects**: the instance has set a status, which
waits for uploads only if there are any; the result is an object or null;
and where a file is missing, the status says "complete" or there is a
detail to append to. -/
structure Completable (job : JobRecord) : Prop where
  started : job.status ≠ "pending"
  uploads : job.status = "complete_pending_uploads" → job.files ≠ []
  result : job.responds
  detail : job.allUploaded = false → startsWith job.status "complete" ∨ job.errorDetail ≠ none

instance (job : JobRecord) : Decidable job.Completable :=
  decidable_of_iff (job.status ≠ "pending" ∧
      (job.status = "complete_pending_uploads" → job.files ≠ []) ∧ job.responds ∧
        (job.allUploaded = false → startsWith job.status "complete" ∨ job.errorDetail ≠ none))
    ⟨fun ⟨h1, h2, h3, h4⟩ => ⟨h1, h2, h3, h4⟩, fun ⟨h1, h2, h3, h4⟩ => ⟨h1, h2, h3, h4⟩⟩

variable {job job' : JobRecord}

theorem allUploaded_iff : job.allUploaded ↔ ∀ entry ∈ job.files, entry.2.uploaded :=
  List.all_eq_true

/-- The status that `complete_job` leaves. -/
def finalStatus (job : JobRecord) : String :=
  if job.files ≠ [] ∧ startsWith job.status "complete" then
    if job.allUploaded then "complete" else "partial_failure"
  else job.status

/-- **What `complete_job` writes**, if it does. -/
theorem complete_spec (h : job.complete = .ok job') :
    job'.finished = true ∧ job'.files = job.files ∧ job'.result = job.result ∧
      job'.status = job.finalStatus ∧ job'.outputFiles = job.outputFiles := by
  unfold complete at h
  split at h
  · next hempty =>
    cases h
    exact ⟨rfl, rfl, rfl, by simp [finalStatus, hempty], rfl⟩
  · next hfiles =>
    split at h
    · next hall =>
      split at h
      · next hstatus =>
        cases h
        exact ⟨rfl, rfl, rfl, by simp [finalStatus, hfiles, hstatus, hall], rfl⟩
      · next hstatus =>
        cases h
        exact ⟨rfl, rfl, rfl, by simp [finalStatus, hstatus], rfl⟩
    · next hall =>
      split at h
      · next hstatus =>
        cases h
        exact ⟨rfl, rfl, rfl, by simp [finalStatus, hfiles, hstatus, hall], rfl⟩
      · next hstatus =>
        split at h
        · cases h
          exact ⟨rfl, rfl, rfl, by simp [finalStatus, hstatus], rfl⟩
        · cases h

/-- It raises where a file is missing, the job has failed and there is no
detail of it. -/
theorem complete_isOk_iff : (∃ job', job.complete = .ok job') ↔
    (job.allUploaded = false → startsWith job.status "complete" ∨ job.errorDetail ≠ none) := by
  unfold complete
  by_cases hempty : job.files = []
  · have hall : job.allUploaded = true := by simp [allUploaded, hempty]
    simp [hempty, hall, pure, Except.pure]
  · cases hall : job.allUploaded with
    | true => by_cases hstatus : startsWith job.status "complete" <;>
        simp [hempty, hstatus, pure, Except.pure]
    | false =>
      by_cases hstatus : startsWith job.status "complete"
      · simp [hempty, hstatus, pure, Except.pure]
      · cases hdetail : job.errorDetail <;>
          simp [hempty, hstatus, pure, Except.pure, throw, throwThe, MonadExceptOf.throw]

theorem ne_pending_of_startsWith {status : String} (h : startsWith status "complete") :
    status ≠ "pending" := by
  rintro rfl
  exact absurd h (by decide +kernel)

theorem finalStatus_ne_iff : (job.finalStatus ≠ "pending" ∧
    job.finalStatus ≠ "complete_pending_uploads") ↔
      (job.status ≠ "pending" ∧ (job.status = "complete_pending_uploads" → job.files ≠ [])) := by
  unfold finalStatus
  by_cases hstatus : startsWith job.status "complete"
  · have hpending := ne_pending_of_startsWith hstatus
    by_cases hempty : job.files = []
    · simp [hempty]
    · cases job.allUploaded <;> simp [hempty, hstatus, hpending]
  · have huploads : job.status ≠ "complete_pending_uploads" := by
      intro heq
      rw [heq] at hstatus
      exact hstatus (by decide +kernel)
    simp [hstatus, huploads]

/-- "complete" is only said of a job whose files are there. -/
theorem allUploaded_of_finalStatus (h : job.finalStatus = "complete") :
    job.allUploaded := by
  unfold finalStatus at h
  by_cases hempty : job.files = []
  · simp [allUploaded, hempty]
  · split_ifs at h with hcond hall
    · exact hall
    · exact absurd h (by decide +kernel)
    · rw [h] at hcond
      exact absurd ⟨hempty, by decide +kernel⟩ hcond

/-- **`complete_job` on an open job** returns, and leaves it settled,
exactly if the job is as it expects. -/
theorem complete_sound_iff :
    (∃ job', job.complete = .ok job' ∧ job'.responds ∧ job'.Settled) ↔ job.Completable := by
  constructor
  · rintro ⟨job', hcomplete, hresponds, hsettled⟩
    obtain ⟨hfinished, -, hresult, hstatus, -⟩ := complete_spec hcomplete
    have hterminal := hsettled.terminal hfinished
    rw [hstatus, finalStatus_ne_iff] at hterminal
    refine ⟨hterminal.1, hterminal.2, ?_, complete_isOk_iff.1 ⟨job', hcomplete⟩⟩
    unfold responds at hresponds ⊢
    rwa [← hresult]
  · rintro ⟨hstarted, huploads, hresponds, hdetail⟩
    obtain ⟨job', hcomplete⟩ := complete_isOk_iff.2 hdetail
    obtain ⟨-, hfiles, hresult, hstatus, -⟩ := complete_spec hcomplete
    refine ⟨job', hcomplete, ?_, fun _ => ?_, fun _ hdone => ?_⟩
    · unfold responds at hresponds ⊢
      rwa [hresult]
    · rw [hstatus]
      exact finalStatus_ne_iff.2 ⟨hstarted, huploads⟩
    · rw [hstatus] at hdone
      rw [hfiles]
      exact allUploaded_iff.1 (allUploaded_of_finalStatus hdone)

end JobRecord

/-! ## The run -/

namespace Completion

structure State where
  jobs : String → Option JobRecord
  /-- A `complete_job` has raised an internal error. -/
  raised : Bool := false

inductive Action
  | create (jobId chuteId createdOn : String)
  | request (jobId : String) (token : Option JobJwt) (r : JobRequest)

/-- The response is an internal error. -/
def internalError : Except Exc Unit → Bool
  | .error (.raised _) => true
  | .ok _ | .error (.http _ _) => false

/-- Whether a request is one to `complete_job`. -/
def isComplete : JobRequest → Bool
  | .complete => true
  | .finish _ | .upload _ => false

variable (uuid5 : String → Option (String → String))

def step (s : State) : Action → Option State
  | .create jobId chuteId createdOn =>
    if s.jobs jobId = none then
      some { s with jobs := Function.update s.jobs jobId (some { chuteId, createdOn }) }
    else none
  | .request jobId token r =>
    let reply := r.handle uuid5 s.jobs jobId token
    some
      { jobs := match reply.commit with
          | none => s.jobs
          | some job => Function.update s.jobs jobId (some job)
        raised := s.raised || (isComplete r && internalError reply.response) }

def system : Lts State Action where
  init s := s = { jobs := fun _ => none }
  step := step uuid5

/-- **The law**: no `complete_job` has raised, and every finished job says
how it ended. -/
structure Lawful (s : State) : Prop where
  silent : s.raised = false
  settled : ∀ jobId, ∀ job ∈ s.jobs jobId, job.Settled

/-- A `complete_job` that is let in finds the job as it expects. -/
def Ready (s : State) : Action → Prop
  | .request jobId token .complete => ∀ job fileId,
    loadJobFromJwt uuid5 s.jobs jobId token none = .ok (job, fileId) → job.finished = false →
      job.Completable
  | _ => True

instance (s : State) (a : Action) : Decidable (Ready uuid5 s a) :=
  match a with
  | .create .. | .request _ _ (.finish _) | .request _ _ (.upload _) => isTrue trivial
  | .request jobId token .complete =>
    match h : loadJobFromJwt uuid5 s.jobs jobId token none with
    | .error _ => isTrue fun _ _ hload => by simp [h] at hload
    | .ok (job, fileId) => decidable_of_iff (job.finished = false → job.Completable) <| by
        simp only [Ready, h, Except.ok.injEq, Prod.mk.injEq, and_imp]
        constructor
        · rintro hready _ _ rfl -
          exact hready
        · intro hready
          exact hready job fileId rfl rfl

variable {uuid5} {s s' : State} {a : Action} {as : List Action}

/-- The writes of `finish_job_and_get_upload_targets` and of
`upload_job_file` do not finish the job. -/
theorem apply_finished {job job' : JobRecord} {jobId : String} {fileId : String → String}
    {r : JobRequest} (hr : isComplete r = false) (h : r.apply job jobId fileId = .ok job') :
    job'.finished = job.finished := by
  cases r with
  | complete => cases hr
  | finish payload =>
    rcases payload with _ | payload
    · cases h
    · exact JobRecord.finish_finished h
  | upload path =>
    obtain ⟨_, -, -, rfl⟩ := JobRecord.upload_eq_ok h
    rfl

/-- An unfinished job has nothing to say yet. -/
theorem settled_of_open {job : JobRecord} (h : job.finished = false) : job.Settled := by
  constructor
  · intro hfinished
    rw [h] at hfinished
    cases hfinished
  · intro hfinished
    rw [h] at hfinished
    cases hfinished

/-- **A request that meets the guard** leaves its job settled. -/
theorem handle_settled {jobId : String} {token : Option JobJwt} {r : JobRequest} {job : JobRecord}
    (hok : Ready uuid5 s (.request jobId token r))
    (h : (r.handle uuid5 s.jobs jobId token).commit = some job) : job.Settled := by
  obtain ⟨job₀, fileId, hload, hopen, happly⟩ := JobRequest.handle_commit.1 h
  cases r with
  | complete =>
    obtain ⟨job', hcomplete, -, hsettled⟩ :=
      JobRecord.complete_sound_iff.2 (hok job₀ fileId hload hopen)
    have heq : job₀.complete = .ok job := happly
    rw [hcomplete] at heq
    cases heq
    exact hsettled
  | finish | upload =>
    refine settled_of_open ?_
    rw [apply_finished rfl happly, hopen]

/-- **`complete_job` raises nothing of its own** under the guard. -/
theorem handle_silent {jobId : String} {token : Option JobJwt}
    (hok : Ready uuid5 s (.request jobId token .complete)) :
    internalError (JobRequest.complete.handle uuid5 s.jobs jobId token).response = false := by
  rw [JobRequest.handle_eq]
  cases hload : loadJobFromJwt uuid5 s.jobs jobId token none with
  | error e =>
    obtain ⟨status, detail, rfl⟩ := loadJobFromJwt_error hload
    simp only [JobRequest.checkedName, hload]
    rfl
  | ok loaded =>
    obtain ⟨job, fileId⟩ := loaded
    simp only [JobRequest.checkedName, hload]
    cases hopen : job.finished with
    | true =>
      simp [JobRecord.open?, ensure, hopen, bind, Except.bind, Reply.of, internalError]
    | false =>
      obtain ⟨job', hcomplete, hresponds, -⟩ :=
        JobRecord.complete_sound_iff.2 (hok job fileId hload hopen)
      simp [JobRecord.open?, ensure, hopen, bind, Except.bind, Reply.of, internalError,
        JobRequest.apply, hcomplete, JobRequest.respond, JobRecord.respond, hresponds]

/-- **What is finished stays as it is**, whatever the request. -/
theorem finished_frame (hs : step uuid5 s a = some s') {jobId : String} {job : JobRecord}
    (hjob : s.jobs jobId = some job) (hfinished : job.finished) : s'.jobs jobId = some job := by
  cases a with
  | create newId chuteId createdOn =>
    obtain ⟨hnew, hs⟩ := Option.ite_none_right_eq_some.1 hs
    cases hs
    have hne : jobId ≠ newId := by
      rintro rfl
      rw [hnew] at hjob
      cases hjob
    exact (Function.update_of_ne hne _ _).trans hjob
  | request otherId token r =>
    cases hs
    cases hcommit : (r.handle uuid5 s.jobs otherId token).commit with
    | none => simpa [hcommit] using hjob
    | some job' =>
      obtain ⟨job₀, fileId, hload, hopen, -⟩ := JobRequest.handle_commit.1 hcommit
      obtain ⟨hjob₀, -⟩ := loadJobFromJwt_ok hload
      have hne : jobId ≠ otherId := by
        rintro rfl
        rw [hjob] at hjob₀
        cases hjob₀
        rw [hopen] at hfinished
        cases hfinished
      exact (Function.update_of_ne hne _ _).trans hjob

theorem Lawful.step (h : Lawful s) (hok : Ready uuid5 s a) (hs : step uuid5 s a = some s') :
    Lawful s' := by
  cases a with
  | create newId chuteId createdOn =>
    obtain ⟨-, hs⟩ := Option.ite_none_right_eq_some.1 hs
    cases hs
    refine ⟨h.silent, fun jobId job hjob => ?_⟩
    by_cases heq : jobId = newId
    · subst heq
      simp only [Function.update_self, Option.mem_def, Option.some.injEq] at hjob
      subst hjob
      exact settled_of_open rfl
    · exact h.settled jobId job ((Function.update_of_ne heq _ _).symm.trans hjob)
  | request otherId token r =>
    cases hs
    refine ⟨?_, fun jobId job hjob => ?_⟩
    · have hreply : (isComplete r &&
          internalError (r.handle uuid5 s.jobs otherId token).response) = false := by
        cases r with
        | complete => exact (Bool.true_and _).trans (handle_silent hok)
        | finish | upload => rfl
      simp only [h.silent, hreply, Bool.or_self]
    · cases hcommit : (r.handle uuid5 s.jobs otherId token).commit with
      | none =>
        simp only [hcommit] at hjob
        exact h.settled jobId job hjob
      | some job' =>
        simp only [hcommit] at hjob
        by_cases heq : jobId = otherId
        · subst heq
          simp only [Function.update_self, Option.mem_def, Option.some.injEq] at hjob
          subst hjob
          exact handle_settled hok hcommit
        · exact h.settled jobId job ((Function.update_of_ne heq _ _).symm.trans hjob)

/-- **The law of completion**, in the runs in which `complete_job` finds
what it expects: it holds in every state, and no step changes a job that is
finished. -/
theorem completion (h : (system uuid5).Reach (Ready uuid5) as s) :
    Lawful s ∧ ∀ a s', step uuid5 s a = some s' → ∀ jobId job, s.jobs jobId = some job →
      job.finished → s'.jobs jobId = some job := by
  refine ⟨h.invariant ?_ fun _ _ _ hi => hi.step, fun _ _ hs _ _ => finished_frame hs⟩
  rintro s rfl
  exact ⟨rfl, fun _ _ hjob => by cases hjob⟩

section

private def jobId : String := "3f2504e0-4f89-41d3-9a0c-0305e82c3301"

/-- The namespace of the job, as far as it is asked for. -/
private def namespaceOf (id : String) : Option (String → String) :=
  if id = jobId then some fun _ => "1caf2f52-330e-5213-a9f1-2b4699ff21e3" else none

private def request (filename : Option String) (r : JobRequest) : Action :=
  .request jobId (some (createJobJwt jobId filename 0)) r

/-- A job with a file, which is uploaded. -/
private def uploads : List Action :=
  [.create jobId "c" "2025-07-08",
    request none (.finish (some (.object
      [("status", .string "complete"), ("output_filenames", .array [.string "out.txt"]),
        ("result", .object [])]))),
    request (some "out.txt") (.upload "out.txt")]

theorem completion_uploaded : ∃ s, (system namespaceOf).Reach (Ready namespaceOf)
    (uploads ++ [request none .complete]) s ∧ Lawful s ∧ ∀ a s', step namespaceOf s a = some s' →
      ∀ id job, s.jobs id = some job → job.finished → s'.jobs id = some job := by
  have hr : (system namespaceOf).Reach (Ready namespaceOf)
      (uploads ++ [request none .complete]) _ :=
    Lts.reach_of_exec rfl (by decide +kernel) rfl
  exact ⟨_, hr, completion hr⟩

/-- **A job that fails without a detail**, and whose file is missing. -/
theorem not_completion : ¬ ∀ as s, (system namespaceOf).Run as s → Lawful s := by
  intro h
  have hr : (system namespaceOf).Run
      [.create jobId "c" "2025-07-08",
        request none (.finish (some (.object
          [("status", .string "error"), ("output_filenames", .array [.string "out.txt"]),
            ("result", .object [])]))),
        request none .complete] _ :=
    Lts.reach_of_exec rfl (Lts.meets_of_forall (fun _ _ _ => trivial) _) rfl
  exact absurd (h _ _ hr).silent (by decide +kernel)

end

end Completion

end ChutesApi
