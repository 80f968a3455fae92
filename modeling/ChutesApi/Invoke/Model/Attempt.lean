import ChutesApi.Chute.Model
/-!
# One attempt at an invocation

`_invoke_one` posts the request to one instance, sends on what comes back
and keeps account of the tokens in the metrics of the request. It may raise
at any point, with what it has sent and changed so far left as it is, so
each part returns what it leaves and what it raises, if anything.

The instance's answer is an input, as are the clock and what the trackers
of performance return. A chunk is its bytes, decrypted where the instance
encrypts, each as one character.
-/

namespace ChutesApi

namespace Invoke

open Python

/-- What an attempt raises, as far as `invoke` tells it apart. -/
inductive Failure
  | instanceRateLimit
  | badRequest (detail : String)
  | keyExchangeRequired
  | emptyLlmResponse
  | other (message : String)
  /-- The caller is gone, and the generator is closed or cancelled where it
  waits: no `except Exception` catches that. -/
  | cancelled
  deriving DecidableEq, Repr

/-! ## Metrics -/

/-- What `update_invocation_metrics` returns. -/
structure Perf where
  p : Option Bool := none
  masps : Option ℚ := none
  maspt : Option ℚ := none
  ptps : Option ℚ := none
  otps : Option ℚ := none
  nc : Option ℚ := none
  deriving DecidableEq

/-- `metrics.update(ma_updates)`. -/
def Perf.update (old new : Perf) : Perf :=
  ⟨new.p <|> old.p, new.masps <|> old.masps, new.maspt <|> old.maspt, new.ptps <|> old.ptps,
    new.otps <|> old.otps, new.nc <|> old.nc⟩

/-- The metrics of a request to an LLM. -/
structure LlmMetrics where
  ttft : Option ℚ := none
  tps : ℚ := 0
  tokens : ℚ := 0
  it : ℚ
  ot : ℚ := 0
  ctps : Option ℚ := none
  tt : Option ℚ := none
  mc : Option ℕ := none
  perf : Perf := {}
  deriving DecidableEq

/-- The metrics of a diffusion request. -/
structure DiffusionMetrics where
  sps : ℚ := 0
  steps : ℤ
  perf : Perf := {}
  deriving DecidableEq

/-- The dictionary, where there is one. -/
inductive Metrics
  | llm (m : LlmMetrics)
  | diffusion (m : DiffusionMetrics)
  deriving DecidableEq

/-! ## Requests -/

/-- What `invoke` is called with. -/
structure Request where
  chute : Chute
  userId : UserId
  path : String
  stream : Bool
  reroll : Bool
  /-- `request.state.free_invocation`. -/
  freeInvocation : Bool
  /-- The public path begins with `v1/chat` or `v1/completion`. -/
  completions : Bool
  /-- `count_prompt_tokens(request_body)`. -/
  promptTokens : ℕ
  /-- `num_inference_steps`. -/
  steps : ℤ
  deriving DecidableEq

/-- The metrics `_invoke` initializes. -/
def Request.metrics (req : Request) : Option Metrics :=
  match req.chute.standardTemplate with
  | some .vllm => if req.completions then some (.llm { it := req.promptTokens }) else none
  | some .diffusion => some (.diffusion { steps := req.steps })
  | _ => none

def llmPaths : List String := ["chat_stream", "completion_stream", "chat", "completion"]

/-- `path.lstrip("/")`. -/
def lstripPath (path : String) : String := .ofList (path.toList.dropWhile (· = '/'))

/-- `path.lstrip("/").rstrip("/")`. -/
def plainPath (path : String) : String :=
  .ofList ((path.toList.dropWhile (· = '/')).reverse.dropWhile (· = '/')).reverse

/-- Tokens are counted. -/
def Request.isLlm (req : Request) : Bool :=
  req.chute.standardTemplate = some .vllm && llmPaths.contains (plainPath req.path)

/-! ## What an instance answers -/

/-- A field of a JSON object that should be a number; `null` also where
it is missing. -/
inductive Claim
  | null
  | number (q : ℚ)
  /-- Empty, and not a number. -/
  | empty
  | other
  deriving DecidableEq

/-- The fields read of a `usage` object. -/
structure UsageClaim where
  promptTokens : Claim
  completionTokens : Claim
  deriving DecidableEq

/-- The field `usage`. -/
inductive UsageField
  | absent
  | object (usage : UsageClaim)
  | malformed
  deriving DecidableEq

/-- What is read of the object in a chunk. -/
structure ChunkObject where
  /-- `id`, `created` and `error` are there and not empty. -/
  id : Bool
  created : Bool
  error : Bool
  usage : UsageField
  deriving DecidableEq

/-- A chunk, and the time since the request started. -/
structure Chunk where
  bytes : String
  elapsed : ℚ
  deriving DecidableEq

/-- The JSON body of an answer that is not streamed: the estimate of its
tokens, and its usage. -/
structure Answer where
  outputTokens : ℕ
  usage : UsageField
  deriving DecidableEq

/-- A body: what is sent on, and its JSON if it is some and not empty. -/
structure Body where
  data : String
  json : Option Answer
  deriving DecidableEq

/-- The answer to the post, with what the accounting meets. -/
structure Response where
  status : ℕ
  /-- The text of a bad request. -/
  detail : String := ""
  chunks : List Chunk := []
  /-- What ends the chunks, if not their end. -/
  broken : Option Failure := none
  body : Except Failure Body := .ok ⟨"", none⟩
  totalTime : ℚ
  /-- `manager.mean_count`. -/
  meanCount : Option ℕ := none
  perf : Except Failure Perf := .ok {}
  trackUsage : Option Failure := none

/-- The routed instance: whether it encrypts, and whether its paths are
encrypted. -/
structure Target where
  instanceId : String
  encrypts : Bool := false
  encryptsPath : Bool := false
  deriving DecidableEq

/-- `bytes.decode`, and `json.loads` of bytes that are an object. -/
structure Codec where
  decode : String → Option String
  loads : String → Option ChunkObject

/-! ## A streamed answer -/

/-- What the loop over the chunks carries. -/
structure Sending where
  metrics : Option Metrics
  lastChunk : Option String := none
  anyChunks : Bool := false
  sent : List String := []

/-- The chunk counts as a token. -/
def Request.counts (req : Request) (bytes : String) : Bool :=
  req.isLlm && startsWith bytes "data: \x7b" && !contains bytes "content\":\"\"" &&
    !contains bytes "content\": \"\""

/-- `metrics["ttft"]` and `metrics["tokens"]`. -/
def countToken (metrics : Option Metrics) (elapsed : ℚ) : Except Failure (Option Metrics) :=
  match metrics with
  | some (.llm m) =>
    .ok (some (.llm { m with ttft := m.ttft <|> some (round elapsed 3), tokens := m.tokens + 1 }))
  | some (.diffusion _) => .error (.other "'ttft'")
  | none => .error (.other "'NoneType' object is not subscriptable")

/-- The prefix of an answer of a failed backend. -/
def backendError : String :=
  "data: \x7b\"error\": \x7b\"object\": \"error\", \"message\": \"input_ids cannot be empty.\""

/-- A line of data. -/
def isData (bytes : String) : Bool :=
  startsWith bytes "data:" && !startsWith bytes "data: [DONE]"

/-- A chunk that fails the check on the chutes of one vendor. -/
def Request.badResponse (req : Request) (codec : Codec) (bytes : String) : Bool :=
  req.chute.standardTemplate = some .vllm && startsWith bytes "data: \x7b" &&
    startsWith req.chute.name "deepseek-ai" &&
    (codec.loads (slice bytes 6 bytes.length)).any fun object =>
      (!object.id || !object.created) && !object.error

/-- The loop body, once the chunk is counted. -/
def accept (req : Request) (codec : Codec) (s : Sending) (bytes : String) :
    Sending × Option Failure :=
  if req.chute.standardTemplate = some .vllm ∧ s.lastChunk = none ∧
      startsWith bytes backendError then
    (s, some (.other "SGLang backend failure, input_ids null error response produced."))
  else if isData bytes ∧ req.badResponse codec bytes then (s, some .emptyLlmResponse)
  else
    let s := { s with
      lastChunk := if isData bytes then some bytes else s.lastChunk
      anyChunks := s.anyChunks || contains bytes "data:" }
    match codec.decode bytes with
    | none => (s, some (.other "'utf-8' codec can't decode bytes"))
    | some text => ({ s with sent := s.sent ++ [text] }, none)

/-- The loop body. -/
def receive (req : Request) (codec : Codec) (s : Sending) (chunk : Chunk) :
    Sending × Option Failure :=
  match if req.counts chunk.bytes then countToken s.metrics chunk.elapsed else .ok s.metrics with
  | .error f => (s, some f)
  | .ok metrics => accept req codec { s with metrics } chunk.bytes

/-- The loop. -/
def receiveAll (req : Request) (codec : Codec) (s : Sending) :
    List Chunk → Sending × Option Failure
  | [] => (s, none)
  | chunk :: chunks =>
    match receive req codec s chunk with
    | (s, some f) => (s, some f)
    | (s, none) => receiveAll req codec s chunks

/-- A claim of more than ten times the estimate is not believed. -/
def checkedTokens (claimed prompt completion : ℚ) (usage : Claim) : ℚ × ℚ :=
  let prompt := if claimed > prompt * 10 then prompt else min claimed prompt
  match usage with
  | .number q => (prompt, if q > completion * 10 then completion else q)
  | _ => (prompt, completion)

/-- The tokens, by the estimates and the usage in the last chunk. What the
check raises is caught. -/
def streamedTokens (codec : Codec) (lastChunk : Option String) (prompt completion : ℚ) : ℚ × ℚ :=
  match lastChunk with
  | none => (prompt, completion)
  | some bytes =>
    if !contains bytes "\"usage\"" then (prompt, completion)
    else
      let object := slice bytes 6 bytes.length
      match (codec.decode object).bind fun _ => codec.loads object with
      | some ⟨_, _, _, .object usage⟩ =>
        match usage.promptTokens with
        | .number claimed => checkedTokens claimed prompt completion usage.completionTokens
        | _ => (prompt, completion)
      | _ => (prompt, completion)

/-- The metrics that follow from the token counts. -/
def LlmMetrics.rates (m : LlmMetrics) (response : Response) : LlmMetrics × Option Failure :=
  if response.totalTime = 0 then (m, some (.other "division by zero"))
  else
    let m := { m with
      ctps := some (round ((m.it + m.ot) / response.totalTime) 3)
      tps := round (m.ot / response.totalTime) 3
      tt := some (round response.totalTime 3)
      mc := response.meanCount <|> m.mc }
    match response.perf with
    | .error f => (m, some f)
    | .ok perf => ({ m with perf := m.perf.update perf }, response.trackUsage)

/-- The estimate for a request that has none divides the length of a
length. -/
def noEstimate : Failure := .other "object of type 'int' has no len()"

/-- The accounting after the loop. -/
def accountStream (req : Request) (codec : Codec) (response : Response) (s : Sending) :
    Option Metrics × Option Failure :=
  match s.metrics with
  | some (.llm m) =>
    if !req.isLlm then (s.metrics, none)
    else if !s.anyChunks then (s.metrics, some .emptyLlmResponse)
    else if m.it = 0 then (s.metrics, some noEstimate)
    else
      let (prompt, completion) := streamedTokens codec s.lastChunk m.it m.tokens
      let (m, f) := { m with it := max 0 prompt, ot := max 0 completion }.rates response
      (some (.llm m), f)
  | some (.diffusion _) =>
    if !req.isLlm then (s.metrics, none)
    else if !s.anyChunks then (s.metrics, some .emptyLlmResponse)
    else (s.metrics, some (.other "'it'"))
  | none => (none, none)

/-! ## An answer that is not streamed -/

/-- What a claim counts for, if anything. -/
def Claim.tokens : Claim → Except Failure (Option ℚ)
  | .null => .ok none
  | .empty => .ok none
  | .number q => .ok (if q = 0 then none else some q)
  | .other => .error (.other "'>' not supported between these instances")

/-- A claim that is believed stands for the estimate. -/
def believed (estimate : ℚ) : Option ℚ → ℚ
  | some claimed => if claimed > estimate * 10 then estimate else claimed
  | none => estimate

/-- The prompt and completion tokens of a plain answer. -/
def plainTokens (usage : UsageField) (prompt completion : ℚ) : Except Failure (ℚ × ℚ) :=
  match usage with
  | .absent => .ok (prompt, completion)
  | .malformed => .error (.other "object has no attribute 'get'")
  | .object usage => do
    let completion := believed completion (← usage.completionTokens.tokens)
    let prompt := believed prompt (← usage.promptTokens.tokens)
    return (prompt, completion)

/-- The accounting of a plain answer. -/
def accountPlain (req : Request) (target : Target) (response : Response) (body : Body)
    (metrics : Option Metrics) : Option Metrics × Option Failure :=
  if req.isLlm then
    match body.json, metrics with
    | none, _ => (metrics, none)
    | some answer, some (.llm m) =>
      if m.it = 0 then (metrics, some noEstimate)
      else match plainTokens answer.usage m.it answer.outputTokens with
        | .error f => (metrics, some f)
        | .ok (prompt, completion) =>
          let (m, f) :=
            { m with tokens := completion, it := prompt, ot := completion }.rates response
          (some (.llm m), f)
    | some _, some (.diffusion _) => (metrics, some noEstimate)
    | some _, none => (none, some (.other "'NoneType' object has no attribute 'get'"))
  else if req.chute.standardTemplate = some .diffusion ∧
      !target.encryptsPath ∧ lstripPath req.path = "generate" then
    match metrics with
    | some (.diffusion m) =>
      if m.steps = 0 then (metrics, none)
      else if response.totalTime = 0 then (metrics, some (.other "division by zero"))
      else
        let m := { m with sps := m.steps / response.totalTime }
        match response.perf with
        | .error f => (some (.diffusion m), some f)
        | .ok perf => (some (.diffusion { m with perf := m.perf.update perf }), none)
    | _ => (metrics, none)
  else (metrics, none)

/-! ## The attempt -/

/-- What the status raises. -/
def checkStatus (target : Target) (response : Response) : Option Failure :=
  if response.status = 426 ∧ target.encrypts then some .keyExchangeRequired
  else if response.status = 429 then some .instanceRateLimit
  else if response.status = 400 then some (.badRequest s!"Invalid request: {response.detail}")
  else if 400 ≤ response.status then some (.other "raise_for_status")
  else none

/-- What an attempt has sent, the metrics it leaves, and what it raised. -/
structure Sent where
  sent : List String
  metrics : Option Metrics
  raised : Option Failure

/-- **`_invoke_one`**, with what the connection came to. -/
def invokeOne (req : Request) (codec : Codec) (target : Target) (post : Except Failure Response)
    (metrics : Option Metrics) : Sent :=
  match post with
  | .error f => ⟨[], metrics, some f⟩
  | .ok response =>
    match checkStatus target response with
    | some f => ⟨[], metrics, some f⟩
    | none =>
      if req.stream then
        match receiveAll req codec { metrics } response.chunks with
        | (s, some f) => ⟨s.sent, s.metrics, some f⟩
        | (s, none) =>
          match response.broken with
          | some f => ⟨s.sent, s.metrics, some f⟩
          | none =>
            let (metrics, f) := accountStream req codec response s
            ⟨s.sent, metrics, f⟩
      else
        match response.body with
        | .error f => ⟨[], metrics, some f⟩
        | .ok body =>
          match accountPlain req target response body metrics with
          | (metrics, some f) => ⟨[], metrics, some f⟩
          | (metrics, none) => ⟨[body.data], metrics, none⟩

end Invoke

end ChutesApi
