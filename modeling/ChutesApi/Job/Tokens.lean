import ChutesApi.Common.Lts
import ChutesApi.Job.Model.Requests
import Mathlib.Logic.Function.Basic
/-!
# What a job's token authorises

A token names its job and, at most, a file. It says nothing of the
assignment it was issued for and is never revoked, so a miner that has
released a job can still end it (`not_current`). What holds is that only
those that have had the job can change it, and that an upload marks the file
that its token names (`token_authority`).
-/

namespace ChutesApi

open Python

namespace Tokens

/-- One assignment of a job. -/
structure Assignment where
  hotkey : String
  instanceId : String
  deriving DecidableEq, Repr

structure State where
  jobs : String → Option JobRecord
  /-- The assignment a job has now. -/
  current : String → Option Assignment
  /-- The assignments a job has had. -/
  history : String → List Assignment
  /-- The tokens that were issued, with the assignment each was issued
  for. -/
  issued : List (JobJwt × Assignment)

inductive Action
  | create (jobId chuteId createdOn : String)
  /-- `claim_launch_config`, of a job that nobody has. -/
  | claim (jobId : String) (assignment : Assignment)
  /-- `verify_launch_config_instance`, of an instance that still has the
  job. -/
  | verify (jobId instanceId : String) (now : ℤ)
  | releaseJob (jobId hotkey : String)
  | request (jobId : String) (token : Option JobJwt) (r : JobRequest) (now : ℤ)

/-- The tokens for the uploads, which a `finish` returns with its
response. -/
def uploadTokens (s : State) (jobId : String) (token : Option JobJwt) (reply : Reply) (now : ℤ) :
    JobRequest → List (JobJwt × Assignment)
  | .finish _ =>
    match reply.commit, reply.response with
    | some job, .ok () =>
      (s.issued.filter fun entry => some entry.1 = token).flatMap fun entry =>
        job.files.map fun file => (createJobJwt jobId (some file.2.filename) now, entry.2)
    | _, _ => []
  | .upload _ | .complete => []

variable (uuid5 : String → Option (String → String))

def step (s : State) : Action → Option State
  | .create jobId chuteId createdOn =>
    if s.jobs jobId = none then
      some { s with jobs := Function.update s.jobs jobId (some { chuteId, createdOn }) }
    else none
  | .claim jobId assignment =>
    if (s.jobs jobId).isSome ∧ s.current jobId = none then
      some { s with
        current := Function.update s.current jobId (some assignment)
        history := Function.update s.history jobId (assignment :: s.history jobId) }
    else none
  | .verify jobId instanceId now =>
    match s.current jobId with
    | none => none
    | some assignment =>
      if assignment.instanceId = instanceId then
        some { s with issued := (createJobJwt jobId none now, assignment) :: s.issued }
      else none
  | .releaseJob jobId hotkey =>
    if (s.current jobId).map (·.hotkey) = some hotkey ∧
        (s.jobs jobId).map (·.finished) = some false then
      some { s with current := Function.update s.current jobId none }
    else none
  | .request jobId token r now =>
    let reply := r.handle uuid5 s.jobs jobId token
    some { s with
      jobs := match reply.commit with
        | none => s.jobs
        | some job => Function.update s.jobs jobId (some job)
      issued := uploadTokens s jobId token reply now r ++ s.issued }

/-- Before the first job. -/
def empty : State := ⟨fun _ => none, fun _ => none, fun _ => [], []⟩

def system : Lts State Action where
  init s := s = empty
  step := step uuid5

/-- **Signatures are not forged**: a token for a job that decodes was issued
by `create_job_jwt`. -/
def Unforged (s : State) : Action → Prop
  | .request jobId token _ _ =>
    ∀ t ∈ token, t.sub = jobId → ∃ assignment, (t, assignment) ∈ s.issued
  | _ => True

instance (s : State) (a : Action) : Decidable (Unforged s a) :=
  match a with
  | .create .. | .claim .. | .verify .. | .releaseJob .. => isTrue trivial
  | .request jobId token _ _ => decidable_of_iff
    (∀ t ∈ token, t.sub = jobId → ∃ entry ∈ s.issued, entry.1 = t) <| by
      simp [Unforged]

/-- **A token has the authority of one of the assignments** of its job. -/
structure Inv (s : State) : Prop where
  current : ∀ jobId, ∀ assignment ∈ s.current jobId, assignment ∈ s.history jobId
  issued : ∀ entry ∈ s.issued, entry.2 ∈ s.history entry.1.sub

section

variable {uuid5} {s s' : State} {a : Action} {as : List Action} {jobId : String}
variable {token : Option JobJwt} {r : JobRequest} {now : ℤ}

/-- The tokens for the uploads are for the job, and for the assignment of
the token they were asked for with. -/
theorem mem_uploadTokens {entry : JobJwt × Assignment}
    (h : entry ∈ uploadTokens s jobId token (r.handle uuid5 s.jobs jobId token) now r) :
    ∃ t, token = some t ∧ t.sub = jobId ∧ (t, entry.2) ∈ s.issued ∧ entry.1.sub = jobId := by
  cases r with
  | upload | complete => cases h
  | finish payload =>
    simp only [uploadTokens] at h
    split at h
    · next job hcommit _ =>
      obtain ⟨_, _, hload, -, -⟩ := JobRequest.handle_commit.1 hcommit
      obtain ⟨-, -, t, rfl, hsub, -⟩ := loadJobFromJwt_ok hload
      obtain ⟨old, hold, hentry⟩ := List.mem_flatMap.1 h
      obtain ⟨file, -, rfl⟩ := List.mem_map.1 hentry
      rw [List.mem_filter, decide_eq_true_eq] at hold
      obtain ⟨hmem, heq⟩ := hold
      obtain rfl : old.1 = t := Option.some.inj heq
      exact ⟨_, rfl, hsub, hmem, rfl⟩
    · cases h

/-- The history only grows. -/
theorem mem_history_update {assignment new : Assignment} {id : String}
    (h : assignment ∈ s.history id) :
    assignment ∈ Function.update s.history jobId (new :: s.history jobId) id := by
  by_cases heq : id = jobId
  · subst heq
    rw [Function.update_self]
    exact List.mem_cons_of_mem _ h
  · rw [Function.update_of_ne heq]
    exact h

theorem Inv.step (h : Inv s) (hs : step uuid5 s a = some s') : Inv s' := by
  cases a with
  | create newId chuteId createdOn =>
    obtain ⟨-, hs⟩ := Option.ite_none_right_eq_some.1 hs
    cases hs
    exact ⟨h.current, h.issued⟩
  | claim claimedId assignment =>
    obtain ⟨-, hs⟩ := Option.ite_none_right_eq_some.1 hs
    cases hs
    refine ⟨fun id asg hasg => ?_, fun entry hentry => mem_history_update (h.issued entry hentry)⟩
    by_cases heq : id = claimedId
    · subst heq
      simp only [Function.update_self, Option.mem_def, Option.some.injEq] at hasg ⊢
      exact hasg ▸ List.mem_cons_self
    · simp only [Option.mem_def, Function.update_of_ne heq] at hasg
      exact mem_history_update (h.current id asg hasg)
  | verify verifiedId instanceId now =>
    simp only [Tokens.step] at hs
    split at hs
    · cases hs
    · next assignment hcurrent =>
      obtain ⟨-, hs⟩ := Option.ite_none_right_eq_some.1 hs
      cases hs
      refine ⟨h.current, fun entry hentry => ?_⟩
      rcases List.mem_cons.1 hentry with rfl | hold
      · exact h.current verifiedId assignment hcurrent
      · exact h.issued entry hold
  | releaseJob releasedId hotkey =>
    obtain ⟨-, hs⟩ := Option.ite_none_right_eq_some.1 hs
    cases hs
    refine ⟨fun id asg hasg => ?_, h.issued⟩
    by_cases heq : id = releasedId
    · subst heq
      simp at hasg
    · simp only [Option.mem_def, Function.update_of_ne heq] at hasg
      exact h.current id asg hasg
  | request requestedId token r now =>
    cases hs
    refine ⟨h.current, fun entry hentry => ?_⟩
    rcases List.mem_append.1 hentry with hnew | hold
    · obtain ⟨t, -, hsub, hissued, hjob⟩ := mem_uploadTokens hnew
      have hhistory := h.issued _ hissued
      rw [hsub] at hhistory
      rw [hjob]
      exact hhistory
    · exact h.issued entry hold

theorem Inv.of_reach {ok : State → Action → Prop} (h : (system uuid5).Reach ok as s) : Inv s := by
  refine h.invariant ?_ fun _ _ _ hi _ hs => hi.step hs
  rintro s rfl
  exact ⟨fun _ _ hnone => (by cases hnone), fun _ hnil => (by cases hnil)⟩

/-- **What stands behind a change** of a job by a request: the job is open,
the token was issued for it, on behalf of an assignment that it has or has
had, and an upload marks the file that the token names and nothing else. -/
structure Authorised (uuid5 : String → Option (String → String)) (s s' : State) (jobId : String)
    (t : JobJwt) (r : JobRequest) (assignment : Assignment) (job : JobRecord) : Prop where
  sub : t.sub = jobId
  issued : (t, assignment) ∈ s.issued
  assigned : assignment ∈ s.history jobId
  found : s.jobs jobId = some job
  unfinished : job.finished = false
  upload : ∀ path, r = .upload path → path ≠ "" → t.filename = some path ∧
    ∃ fileId files, uuid5 jobId = some fileId ∧ job.outputFiles = some files ∧
      s'.jobs jobId = some { job with
        outputFiles := some <| files.map fun (key, file) =>
          if key = fileId path then (key, { file with uploaded := true }) else (key, file) }

/-- **Only those that have had a job can change it**, in every run in which
no token is forged. -/
theorem token_authority (h : (system uuid5).Reach Unforged as s)
    (hok : Unforged s (.request jobId token r now))
    (hs : step uuid5 s (.request jobId token r now) = some s') (id : String)
    (hchange : s'.jobs id ≠ s.jobs id) :
    id = jobId ∧ ∃ t assignment job, token = some t ∧
      Authorised uuid5 s s' jobId t r assignment job := by
  cases hs
  cases hcommit : (r.handle uuid5 s.jobs jobId token).commit with
  | none => simp [hcommit] at hchange
  | some job' =>
    simp only [hcommit] at hchange
    have hid : id = jobId := by
      by_contra hne
      exact hchange (Function.update_of_ne hne _ _)
    obtain ⟨job, fileId, hload, hopen, happly⟩ := JobRequest.handle_commit.1 hcommit
    obtain ⟨hjob, huuid, t, rfl, hsub, hname⟩ := loadJobFromJwt_ok hload
    obtain ⟨assignment, hissued⟩ := hok t rfl hsub
    have hassigned := (Inv.of_reach h).issued _ hissued
    simp only [hsub] at hassigned
    refine ⟨hid, t, assignment, job, rfl, hsub, hissued, hassigned, hjob, hopen, ?_⟩
    rintro path rfl hpath
    obtain ⟨files, hfiles, -, rfl⟩ := JobRecord.upload_eq_ok happly
    refine ⟨(hname (by simpa [JobRequest.checkedName, truthy] using hpath)).symm, fileId, files,
      huuid, hfiles, ?_⟩
    simp

end

section

private def theJob : String := "3f2504e0-4f89-41d3-9a0c-0305e82c3301"

/-- The namespace of the job, as far as it is asked for. -/
private def namespaceOf (id : String) : Option (String → String) :=
  if id = theJob then some fun _ => "1caf2f52-330e-5213-a9f1-2b4699ff21e3" else none

private def failed : JobRequest := .finish (some (.object [("result", .null)]))

private def firstToken : JobJwt := createJobJwt theJob none 0

/-- A miner takes the job and gets its token. -/
private def taken : List Action :=
  [.create theJob "c" "2025-07-08", .claim theJob ⟨"5First", "i"⟩, .verify theJob "i" 0]

private def atWork : State := ((system namespaceOf).exec empty taken).getD empty

/-- The same, and the job is released and taken by another. -/
private def retaken : List Action :=
  taken ++ [.releaseJob theJob "5First", .claim theJob ⟨"5Second", "k"⟩]

private theorem status_changes {jobs jobs' : String → Option JobRecord}
    (h : (jobs theJob).map (·.status) ≠ (jobs' theJob).map (·.status)) :
    jobs theJob ≠ jobs' theJob := fun heq => h (congrArg _ heq)

theorem token_authority_taken : ∃ s s', (system namespaceOf).Reach Unforged taken s ∧
    step namespaceOf s (.request theJob (some firstToken) failed 1) = some s' ∧
      ∃ t assignment job, some firstToken = some t ∧
        Authorised namespaceOf s s' theJob t failed assignment job := by
  have hr : (system namespaceOf).Reach Unforged taken atWork :=
    Lts.reach_of_exec rfl (by decide +kernel) rfl
  have hok : Unforged atWork (.request theJob (some firstToken) failed 1) := by decide +kernel
  exact ⟨_, _, hr, rfl, (token_authority hr hok rfl theJob
    (status_changes (by decide +kernel))).2⟩

/-- **A token outlives its assignment**: the job is released and taken by
another miner, and the first one fails it. -/
theorem not_current : ¬ ∀ as s jobId t r now s', (system namespaceOf).Reach Unforged as s →
    Unforged s (.request jobId (some t) r now) →
      step namespaceOf s (.request jobId (some t) r now) = some s' →
        s'.jobs jobId ≠ s.jobs jobId →
          (∃ assignment, (t, assignment) ∈ s.issued ∧ s.current jobId = some assignment) ∧
            ∀ path ∈ t.filename, r = .upload path := by
  intro h
  have hr : (system namespaceOf).Reach Unforged retaken _ :=
    Lts.reach_of_exec rfl (by decide +kernel) rfl
  obtain ⟨⟨assignment, hissued, hcurrent⟩, -⟩ := h _ _ theJob firstToken failed 1 _ hr
    (by decide +kernel) rfl (status_changes (by decide +kernel))
  obtain rfl : ⟨"5Second", "k"⟩ = assignment := Option.some.inj hcurrent
  exact absurd hissued (by decide +kernel)

end

end Tokens

end ChutesApi
