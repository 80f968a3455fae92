import ChutesApi.Python.Exc
import ChutesApi.Python.Json
import ChutesApi.Python.Str
/-!
# The requests of a running job

`finish_job_and_get_upload_targets`, `upload_job_file` and `complete_job`,
which the instance of a job calls with a token of the job. A request commits
once, if it gets that far, and may still raise over the response it is to
give. Requests do not overlap: `upload_job_file` awaits the upload between
its check of the job and its `UPDATE`, and is one step nevertheless.
-/

namespace ChutesApi

open Python

/-- The payload of a job's JWT that the server has signed. -/
structure JobJwt where
  sub : String
  filename : Option String
  iat : ℤ
  deriving DecidableEq, Repr

/-- `create_job_jwt`. -/
def createJobJwt (jobId : String) (filename : Option String) (now : ℤ) : JobJwt where
  sub := jobId
  filename := if truthy filename then filename else none
  iat := now

/-- An entry of `output_files`. -/
structure OutputFile where
  filename : String
  path : String
  uploaded : Bool
  deriving DecidableEq, Repr

/-- The columns of `jobs` about how a job ends. -/
structure JobRecord where
  chuteId : String
  /-- The day of `created_at`, in the form `%Y-%m-%d`. -/
  createdOn : String
  status : String := "pending"
  result : Option Json := none
  errorDetail : Option String := none
  /-- By the id of the file; `none` is a null. -/
  outputFiles : Option (List (String × OutputFile)) := none
  /-- `finished_at` is not null. -/
  finished : Bool := false

/-- A new entry of `output_files`, whose keys `jsonb` keeps in order. -/
def putFile (fileId : String) (file : OutputFile) :
    List (String × OutputFile) → List (String × OutputFile)
  | [] => [(fileId, file)]
  | (key, other) :: files =>
    if fileId = key then (fileId, file) :: files
    else if fileId < key then (fileId, file) :: (key, other) :: files
    else (key, other) :: putFile fileId file files

namespace JobRecord

/-- `output_files`, where nothing is left out for a null. -/
def files (job : JobRecord) : List (String × OutputFile) := job.outputFiles.getD []

/-- `all(file_info["uploaded"] for file_info in …)`. -/
def allUploaded (job : JobRecord) : Bool := job.files.all (·.2.uploaded)

/-- The names of the files that are not uploaded, joined. -/
def failedFiles (job : JobRecord) : String :=
  ", ".intercalate ((job.files.filter fun entry => !entry.2.uploaded).map (·.2.filename))

/-- The job passes as a `JobResponse`, which takes a `dict` for its result.
The requests do not write the other columns that it checks, nor delete the
chute, which it has to have as well. -/
def responds (job : JobRecord) : Bool := job.result.all Json.isOptionalObject

/-- `JobResponse.from_orm`, or the response model of the route. -/
def respond (job : JobRecord) : Except Exc Unit := ensure job.responds (.raised .valueError)

end JobRecord

/-- What a request leaves in the row, if it commits, and what it returns. -/
structure Reply where
  commit : Option JobRecord
  response : Except Exc Unit

/-- The transaction of a request, and the response once it is committed. -/
def Reply.of (commit : Except Exc JobRecord) (respond : JobRecord → Except Exc Unit) : Reply :=
  match commit with
  | .ok job => ⟨some job, respond job⟩
  | .error e => ⟨none, .error e⟩

/-! ## The loader -/

section

-- `uuid.UUID` of a job's id, and `uuid.uuid5` in that namespace.
variable (uuid5 : String → Option (String → String)) (jobs : String → Option JobRecord)
variable (jobId : String) (token : Option JobJwt)

/-- `load_job_from_jwt`, of a token that decodes to the payload given, if it
decodes. With the job it returns how the ids of its files are made. -/
def loadJobFromJwt (filename : Option String) : Except Exc (JobRecord × (String → String)) :=
  let detail := Exc.http 401 "Missing or invalid JWT"
  match token with
  | none => throw detail
  | some payload => do
    ensure (jobId = payload.sub) detail
    ensure (truthy filename → filename = payload.filename) detail
    match uuid5 jobId with
    | none => throw detail
    | some fileId =>
      match jobs jobId with
      | none => throw (.http 401 s!"job_id={Python.repr jobId} not found!")
      | some job =>
        let name := filename.getD ""
        ensure (truthy filename → job.files = [] ∨ (job.files.lookup (fileId name)).isSome)
          (.http 401 (s!"job_id={Python.repr jobId} did not have any output file with " ++
            s!"filename={Python.repr name}"))
        return (job, fileId)

/-! ## The requests -/

/-- The job is not finished. -/
def JobRecord.open? (job : JobRecord) : Except Exc Unit :=
  ensure (job.finished = false) (.http 400 "Job already finished")

/-- What `finish_job_and_get_upload_targets` writes. -/
def JobRecord.finish (job : JobRecord) (jobId : String) (fileId : String → String) :
    Json → Except Exc JobRecord
  | .object payload => do
    let status := Json.pop payload "status" (.string "error")
    let outputFilenames := Json.pop payload "output_filenames" (.array [])
    let some items := outputFilenames.iterate | throw (.raised .typeError)
    let some filenames := items.mapM Json.text? | throw (.raised .typeError)
    -- The columns are of type `String`; the driver takes nothing else.
    let some status := status.text? | throw (.raised .other)
    let some errorDetail := (Json.pop payload "detail" .null).optionalText?
      | throw (.raised .other)
    return { job with
      status :=
        if status = "complete" ∧ filenames ≠ [] then "complete_pending_uploads" else status
      result := some (Json.pop payload "result" (.string "error"))
      errorDetail
      outputFiles := some <| filenames.foldl
        (fun files filename => putFile (fileId filename)
          { filename
            path := s!"jobs/{job.chuteId}/{job.createdOn}/{jobId}/outputs/{filename}"
            uploaded := false } files) [] }
  | .array _ => throw (.raised .typeError)
  | _ => throw (.raised .attributeError)

/-- What `upload_job_file` writes: the file is marked, and nothing else. -/
def JobRecord.upload (job : JobRecord) (fileId path : String) : Except Exc JobRecord :=
  match job.outputFiles with
  | none => throw (.raised .typeError)
  | some files => do
    ensure (files.lookup fileId).isSome
      (.http 404 s!"File {path} not found in job output files")
    return { job with
      outputFiles := some <| files.map fun (key, file) =>
        if key = fileId then (key, { file with uploaded := true }) else (key, file) }

/-- What `complete_job` writes. -/
def JobRecord.complete (job : JobRecord) : Except Exc JobRecord := do
  if job.files = [] then return { job with finished := true }
  else if job.allUploaded then
    if startsWith job.status "complete" then
      return { job with status := "complete", finished := true }
    else return { job with finished := true }
  else if startsWith job.status "complete" then
    return { job with
      status := "partial_failure"
      errorDetail := some s!"Failed to upload files: {job.failedFiles}"
      finished := true }
  else
    let some errorDetail := job.errorDetail | throw (.raised .typeError)
    return { job with
      errorDetail := some (errorDetail ++ s!"\nFailed to upload files: {job.failedFiles}")
      finished := true }

/-- `finish_job_and_get_upload_targets`; the payload is `none` for a body
that is not JSON. -/
def finishJobAndGetUploadTargets (payload : Option Json) : Reply :=
  Reply.of
    (do
      let (job, fileId) ← loadJobFromJwt uuid5 jobs jobId token none
      job.open?
      let some payload := payload | throw (.raised .valueError)
      job.finish jobId fileId payload)
    JobRecord.respond

/-- `upload_job_file`. -/
def uploadJobFile (path : String) : Reply :=
  Reply.of
    (do
      let (job, fileId) ← loadJobFromJwt uuid5 jobs jobId token (some path)
      job.open?
      job.upload (fileId path) path)
    fun _ => .ok ()

/-- `complete_job`. -/
def completeJob : Reply :=
  Reply.of
    (do
      let (job, _) ← loadJobFromJwt uuid5 jobs jobId token none
      job.open?
      job.complete)
    JobRecord.respond

end

/-- A request to one of the routes of a job. -/
inductive JobRequest
  | finish (payload : Option Json)
  | upload (path : String)
  | complete

/-- The handler of a request. -/
def JobRequest.handle (uuid5 : String → Option (String → String))
    (jobs : String → Option JobRecord) (jobId : String) (token : Option JobJwt) :
    JobRequest → Reply
  | .finish payload => finishJobAndGetUploadTargets uuid5 jobs jobId token payload
  | .upload path => uploadJobFile uuid5 jobs jobId token path
  | .complete => completeJob uuid5 jobs jobId token

/-! ## One request -/

section

variable {uuid5 : String → Option (String → String)} {jobs : String → Option JobRecord}
variable {jobId : String} {token : Option JobJwt} {filename : Option String}
variable {job job' : JobRecord} {fileId : String → String}

/-- **What a token must say** for its job to be loaded. -/
theorem loadJobFromJwt_ok
    (h : loadJobFromJwt uuid5 jobs jobId token filename = .ok (job, fileId)) :
    jobs jobId = some job ∧ uuid5 jobId = some fileId ∧
      ∃ payload, token = some payload ∧ payload.sub = jobId ∧
        (truthy filename → filename = payload.filename) := by
  unfold loadJobFromJwt at h
  cases token with
  | none => cases h
  | some payload =>
    simp only [bind_eq_ok, ensure_eq_ok] at h
    obtain ⟨-, hsub, -, hname, h⟩ := h
    split at h
    · cases h
    · next fileId' huuid =>
      split at h
      · cases h
      · next job₀ hjob =>
        simp only [bind_eq_ok, ensure_eq_ok, return_eq_ok] at h
        obtain ⟨-, -, h⟩ := h
        cases h
        exact ⟨hjob, huuid, payload, rfl, hsub.symm, hname⟩

/-- The loader raises no internal error. -/
theorem loadJobFromJwt_error {e : Exc}
    (h : loadJobFromJwt uuid5 jobs jobId token filename = .error e) :
    ∃ status detail, e = .http status detail := by
  unfold loadJobFromJwt at h
  cases token with
  | none =>
    cases h
    exact ⟨_, _, rfl⟩
  | some payload =>
    simp only [bind_eq_error, ensure_eq_error] at h
    obtain ⟨-, rfl⟩ | ⟨-, -, ⟨-, rfl⟩ | ⟨-, -, h⟩⟩ := h
    · exact ⟨_, _, rfl⟩
    · exact ⟨_, _, rfl⟩
    · split at h
      · cases h
        exact ⟨_, _, rfl⟩
      · split at h
        · cases h
          exact ⟨_, _, rfl⟩
        · simp only [bind_eq_error, ensure_eq_error] at h
          obtain ⟨-, rfl⟩ | ⟨-, -, h⟩ := h
          · exact ⟨_, _, rfl⟩
          · cases h

/-- **`finish_job_and_get_upload_targets` does not finish the job.** -/
theorem JobRecord.finish_finished {payload : Json}
    (h : job.finish jobId fileId payload = .ok job') : job'.finished = job.finished := by
  cases payload with
  | object entries =>
    simp only [JobRecord.finish] at h
    split at h
    · split at h
      · split at h
        · split at h
          · cases h
            rfl
          · cases h
        · cases h
      · cases h
    · cases h
  | null | bool | number | string | array => cases h

/-- An upload marks the file of that id, and changes nothing else. -/
theorem JobRecord.upload_eq_ok {id path : String} (h : job.upload id path = .ok job') :
    ∃ files, job.outputFiles = some files ∧ (files.lookup id).isSome ∧
      job' = { job with
        outputFiles := some <| files.map fun (key, file) =>
          if key = id then (key, { file with uploaded := true }) else (key, file) } := by
  unfold JobRecord.upload at h
  split at h
  · cases h
  · next files hfiles =>
    simp only [bind_eq_ok, ensure_eq_ok, return_eq_ok] at h
    obtain ⟨-, hfile, rfl⟩ := h
    exact ⟨files, hfiles, hfile, rfl⟩

namespace JobRequest

variable {r : JobRequest}

/-- The name that the request's token must carry. -/
def checkedName : JobRequest → Option String
  | .upload path => some path
  | .finish _ | .complete => none

/-- What the request writes to an open job. -/
def apply (job : JobRecord) (jobId : String) (fileId : String → String) :
    JobRequest → Except Exc JobRecord
  | .finish none => .error (.raised .valueError)
  | .finish (some payload) => job.finish jobId fileId payload
  | .upload path => job.upload (fileId path) path
  | .complete => job.complete

/-- The response to a request that has committed. -/
def respond : JobRequest → JobRecord → Except Exc Unit
  | .finish _ | .complete => JobRecord.respond
  | .upload _ => fun _ => .ok ()

/-- **The three requests are one**: the job is loaded, must not be finished,
and is written. -/
theorem handle_eq (r : JobRequest) : r.handle uuid5 jobs jobId token =
    Reply.of
      (do
        let (job, fileId) ← loadJobFromJwt uuid5 jobs jobId token r.checkedName
        job.open?
        r.apply job jobId fileId)
      r.respond := by
  cases r with
  | finish payload => cases payload <;> rfl
  | upload path => rfl
  | complete => rfl

theorem handle_commit : (r.handle uuid5 jobs jobId token).commit = some job' ↔
    ∃ job fileId, loadJobFromJwt uuid5 jobs jobId token r.checkedName = .ok (job, fileId) ∧
      job.finished = false ∧ r.apply job jobId fileId = .ok job' := by
  have hof : ∀ x : Except Exc JobRecord, (Reply.of x r.respond).commit = some job' ↔
      x = .ok job' := by
    intro x
    rcases x with e | job <;> simp [Reply.of]
  rw [handle_eq, hof]
  simp only [bind_eq_ok, JobRecord.open?, ensure_eq_ok, Prod.exists, exists_const]

end JobRequest

end

end ChutesApi
