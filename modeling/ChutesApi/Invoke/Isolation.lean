import ChutesApi.Invoke.Model.Retry
/-!
# Attempts and their streams

The attempts of a streamed invocation share one dictionary of metrics and
one generator. What a failed attempt has sent stays with the caller, and
what it has counted stays in the metrics of the attempt that succeeds.

`invoke_isolated_iff` says exactly when the attempts are isolated: no
attempt sends anything after another one has, and none succeeds after a
token has been counted by one before it. The prompt tokens, which an
attempt may lower when it has received its whole stream, need no condition
of their own: such an attempt has sent something.
-/

namespace ChutesApi

namespace Invoke

variable (settings : Settings) (codec : Codec) (req : Request)

/-- What the charge is computed from and the row is judged by: the tokens,
counted and accounted, the time of the first, and the steps. -/
def Metrics.account : Metrics → Metrics
  | .llm m => .llm { ttft := m.ttft, tokens := m.tokens, it := m.it, ot := m.ot }
  | .diffusion m => .diffusion { steps := m.steps }

/-- What `_buffered_stream_response` passes on: the results, up to the
first error. -/
def received : List Event → List (ℕ × String)
  | [] => []
  | .trace :: events => received events
  | .result i data :: events => (i, data) :: received events
  | .error _ :: _ => []

/-- The metrics an attempt leaves that is made alone. -/
def alone (e : Attempt) (target : Target) : Option Metrics :=
  (invokeOne req codec target e.post req.metrics).metrics

/-- **Attempts are isolated**, of which the first has the row `n`: the
caller receives the results of one attempt only, and the metrics of the one
that succeeds, and its charge, are as if it had been made alone. -/
structure Isolated (n : ℕ) (es : List Attempt) (s : State) : Prop where
  results : ∀ c ∈ received s.events, ∀ c' ∈ received s.events, c.1 = c'.1
  metrics : ∀ k e target metrics bounty, es[k]? = some e → e.target = .ok target →
    s.rows[n + k]? = some (.completed metrics bounty) →
      metrics.map Metrics.account = (alone codec req e target).map Metrics.account
  charge : ∀ k e target metrics bounty invocation, es[k]? = some e → e.target = .ok target →
    s.rows[n + k]? = some (.completed metrics bounty) → (n + k, invocation) ∈ s.charges →
      usage settings req e (alone codec req e target) = .ok invocation

/-- The attempt sends something: it comes to its first chunk, and that one
is not rejected. -/
def Sends (e : Attempt) : Prop :=
  ∃ target response chunk chunks, e.target = .ok target ∧ e.track = none ∧
    e.post = .ok response ∧ checkStatus target response = none ∧
    response.chunks = chunk :: chunks ∧
    (receive req codec { metrics := req.metrics } chunk).2 = none

/-- A token has been counted. -/
def State.Counted (s : State) : Prop := ∃ m, s.metrics = some (.llm m) ∧ m.tokens ≠ 0

/-- The attempt succeeds. -/
def Succeeds (s : State) (e : Attempt) : Prop :=
  ∃ metrics bounty, (attempt settings codec req s e).1.rows = s.rows ++ [.completed metrics bounty]

/-- **The condition**: of the attempts that are made, none sends anything
after another has, and none succeeds after a token has been counted. -/
def Apart (s : State) : List Attempt → Prop
  | [] => True
  | e :: es =>
    (received s.events ≠ [] → ¬ Sends codec req e) ∧
      (s.Counted → ¬ Succeeds settings codec req s e) ∧
      ((attempt settings codec req s e).2 = .retry → Apart (attempt settings codec req s e).1 es)

/-! ## What the charge depends on -/

theorem tokensOf_account (metrics : Option Metrics) :
    tokensOf (metrics.map Metrics.account) = tokensOf metrics := by
  rcases metrics with _ | m | m <;> rfl

theorem stepsOf_account (metrics : Option Metrics) :
    stepsOf (metrics.map Metrics.account) = stepsOf metrics := by
  rcases metrics with _ | m | m <;> rfl

/-- **The charge depends on the account only.** -/
theorem usage_congr {metrics metrics' : Option Metrics} (e : Attempt)
    (h : metrics.map Metrics.account = metrics'.map Metrics.account) :
    usage settings req e metrics = usage settings req e metrics' := by
  have hself : ∀ metrics : Option Metrics,
      usage settings req e (metrics.map Metrics.account) = usage settings req e metrics := by
    intro metrics
    simp only [usage, balanceUsed, overridden, standardPrice, tokenPrice, tokensOf_account,
      stepsOf_account, Option.isSome_map, Option.isNone_map]
  rw [← hself metrics, h, hself metrics']

/-! ## Events -/

@[simp] theorem received_append_trace (events : List Event) :
    received (events ++ [.trace]) = received events := by
  induction events with
  | nil => rfl
  | cons event events ih => cases event <;> simp [received, ih]

/-- An error is the outcome, and nothing is received from there on. -/
@[simp] theorem received_append_error (events : List Event) (error : String) :
    received (events ++ [.error error]) = received events := by
  induction events with
  | nil => rfl
  | cons event events ih => cases event <;> simp [received, ih]

/-- Results after no error are received. -/
theorem received_append_results {events : List Event} (h : ∀ error, .error error ∉ events)
    (n : ℕ) (sent : List String) :
    received (events ++ .trace :: sent.map (.result n)) =
      received events ++ sent.map fun data => (n, data) := by
  induction events with
  | nil =>
    induction sent with
    | nil => rfl
    | cons data sent ih => simpa [received] using ih
  | cons event events ih =>
    have hrest := ih fun error he => h error (List.mem_cons_of_mem _ he)
    cases event with
    | trace => exact hrest
    | result i data => simp [received, hrest]
    | error error => exact absurd (List.mem_cons_self ..) (h error)

/-! ## The loop over the chunks -/

/-- The metrics when tokens have been counted at these times. -/
def LlmMetrics.counted (m : LlmMetrics) (times : List ℚ) : LlmMetrics :=
  times.foldl (fun m time =>
    { m with ttft := m.ttft <|> some (Python.round time 3), tokens := m.tokens + 1 }) m

theorem counted_append (m : LlmMetrics) (times times' : List ℚ) :
    (m.counted times).counted times' = m.counted (times ++ times') := by
  simp [LlmMetrics.counted]

theorem counted_spec (m : LlmMetrics) (times : List ℚ) :
    (m.counted times).tokens = m.tokens + times.length ∧ (m.counted times).it = m.it ∧
      ∀ m' : LlmMetrics, m'.ttft = m.ttft → (m'.counted times).ttft = (m.counted times).ttft := by
  induction times generalizing m with
  | nil => exact ⟨by simp [LlmMetrics.counted], rfl, fun m' h => h⟩
  | cons time times ih =>
    obtain ⟨htokens, hit, httft⟩ := ih
      { m with ttft := m.ttft <|> some (Python.round time 3), tokens := m.tokens + 1 }
    refine ⟨?_, hit, fun m' h => httft _ (by simp [h])⟩
    simp only [LlmMetrics.counted, List.foldl_cons, List.length_cons] at htokens ⊢
    rw [htokens]
    push_cast
    ring

/-- Accepting a chunk reads no metrics and changes none; it sends one text
or raises. -/
theorem accept_spec (s : Sending) (metrics : Option Metrics) (bytes : String) :
    accept req codec { s with metrics } bytes =
        ({ (accept req codec s bytes).1 with metrics }, (accept req codec s bytes).2) ∧
      ((accept req codec s bytes).2 = none →
        ∃ text, (accept req codec s bytes).1.sent = s.sent ++ [text]) ∧
      ∀ f, (accept req codec s bytes).2 = some f →
        (accept req codec s bytes).1.sent = s.sent := by
  unfold accept
  dsimp only
  split
  · exact ⟨rfl, by simp, by simp⟩
  · split
    · exact ⟨rfl, by simp, by simp⟩
    · cases codec.decode bytes with
      | none => exact ⟨rfl, by simp, by simp⟩
      | some text => exact ⟨rfl, fun _ => ⟨text, rfl⟩, by simp⟩

/-- **One chunk, whatever the counts are.** -/
theorem receive_llm (s : Sending) (chunk : Chunk) :
    ∃ times, (req.isLlm = false → times = []) ∧
      ∀ m, receive req codec { s with metrics := some (.llm m) } chunk =
        ({ (accept req codec s chunk.bytes).1 with metrics := some (.llm (m.counted times)) },
          (accept req codec s chunk.bytes).2) := by
  by_cases hc : req.counts chunk.bytes
  · refine ⟨[chunk.elapsed], fun h => ?_, fun m => ?_⟩
    · simp [Request.counts, h] at hc
    · rw [receive, if_pos hc]
      exact (accept_spec codec req s _ chunk.bytes).1
  · refine ⟨[], fun _ => rfl, fun m => ?_⟩
    rw [receive, if_neg hc]
    exact (accept_spec codec req s _ chunk.bytes).1

/-- **All the chunks, whatever the counts are**: the same is sent, the same
raised, and the same tokens are counted. -/
theorem receiveAll_llm (s : Sending) (chunks : List Chunk) :
    ∃ times s' raised, (req.isLlm = false → times = []) ∧
      (raised = none → s'.sent.length = s.sent.length + chunks.length) ∧
      (chunks = [] → s' = s) ∧
      ∀ m, receiveAll req codec { s with metrics := some (.llm m) } chunks =
        ({ s' with metrics := some (.llm (m.counted times)) }, raised) := by
  induction chunks generalizing s with
  | nil => exact ⟨[], s, none, fun _ => rfl, fun _ => rfl, fun _ => rfl, fun m => rfl⟩
  | cons chunk chunks ih =>
    obtain ⟨times, htimes, hone⟩ := receive_llm codec req s chunk
    obtain ⟨-, hsent, -⟩ := accept_spec codec req s s.metrics chunk.bytes
    rcases hacc : accept req codec s chunk.bytes with ⟨s₁, _ | f⟩
    · obtain ⟨text, htext⟩ := hsent (by rw [hacc])
      rw [hacc] at htext
      obtain ⟨times', s', raised, htimes', hlength, -, hrest⟩ := ih s₁
      refine ⟨times ++ times', s', raised, fun h => by rw [htimes h, htimes' h]; rfl, fun h => ?_,
        by simp, fun m => ?_⟩
      · rw [hlength h, htext]
        simp
        omega
      · rw [receiveAll, hone, hacc]
        simp only
        rw [hrest, counted_append]
    · refine ⟨times, s₁, some f, htimes, by simp, by simp, fun m => ?_⟩
      rw [receiveAll, hone, hacc]

/-! ### What is sent -/

/-- A chunk that does not raise is sent. -/
theorem receive_sent (s : Sending) (chunk : Chunk) :
    ((receive req codec s chunk).2 = none →
        ∃ text, (receive req codec s chunk).1.sent = s.sent ++ [text]) ∧
      (∀ f, (receive req codec s chunk).2 = some f →
        (receive req codec s chunk).1.sent = s.sent) := by
  unfold receive
  cases (if req.counts chunk.bytes then countToken s.metrics chunk.elapsed else .ok s.metrics) with
  | error f => exact ⟨by simp, fun _ _ => rfl⟩
  | ok metrics => exact (accept_spec codec req { s with metrics } none chunk.bytes).2

theorem receiveAll_prefix (s : Sending) (chunks : List Chunk) :
    s.sent <+: (receiveAll req codec s chunks).1.sent := by
  induction chunks generalizing s with
  | nil => exact List.prefix_rfl
  | cons chunk chunks ih =>
    obtain ⟨hnone, hsome⟩ := receive_sent codec req s chunk
    unfold receiveAll
    rcases h : receive req codec s chunk with ⟨s', _ | f⟩
    · obtain ⟨text, htext⟩ := hnone (by rw [h])
      rw [h] at htext
      exact (List.prefix_append s.sent [text]).trans (htext ▸ ih s')
    · have hsame := hsome f (by rw [h])
      rw [h] at hsame
      exact hsame ▸ List.prefix_rfl

/-- **An attempt sends something exactly where its first chunk is not
rejected.** -/
theorem sent_ne_nil_iff (hstream : req.stream) {target : Target} {response : Response}
    (hstatus : checkStatus target response = none) (metrics : Option Metrics) :
    (invokeOne req codec target (.ok response) metrics).sent ≠ [] ↔
      ∃ chunk chunks, response.chunks = chunk :: chunks ∧
        (receive req codec { metrics } chunk).2 = none := by
  have hsent : (invokeOne req codec target (.ok response) metrics).sent =
      (receiveAll req codec { metrics } response.chunks).1.sent := by
    unfold invokeOne
    simp only [hstatus, hstream, if_true]
    rcases receiveAll req codec { metrics } response.chunks with ⟨s', _ | f⟩
    · cases response.broken <;> rfl
    · rfl
  rw [hsent]
  cases response.chunks with
  | nil => simp [receiveAll]
  | cons chunk chunks =>
    obtain ⟨hnone, hsome⟩ := receive_sent codec req { metrics } chunk
    unfold receiveAll
    rcases h : receive req codec { metrics } chunk with ⟨s', _ | f⟩
    · obtain ⟨text, htext⟩ := hnone (by rw [h])
      rw [h] at htext
      have hsent := receiveAll_prefix codec req s' chunks
      have hne : (receiveAll req codec s' chunks).1.sent ≠ [] := by
        intro hnil
        rw [hnil, List.prefix_nil] at hsent
        simp [hsent] at htext
      simpa [h] using hne
    · have hsame : s'.sent = [] := by simpa [h] using hsome f (by rw [h])
      simp [h, hsame]

/-! ## The accounting -/

theorem rates_account (m : LlmMetrics) (response : Response) :
    (Metrics.llm (m.rates response).1).account = (Metrics.llm m).account := by
  unfold LlmMetrics.rates
  split
  · rfl
  · cases response.perf <;> rfl

/-- The accounting counts no tokens. Without a chunk of data it fails, and
leaves the prompt tokens. -/
theorem accountStream_llm (hllm : req.isLlm) (response : Response) (s : Sending) (m : LlmMetrics) :
    ∃ m', (accountStream req codec response { s with metrics := some (.llm m) }).1 =
        some (.llm m') ∧ m'.tokens = m.tokens ∧ m'.ttft = m.ttft ∧
      (s.anyChunks = false → m'.it = m.it ∧
        (accountStream req codec response { s with metrics := some (.llm m) }).2 ≠ none) := by
  unfold accountStream
  simp only [hllm, Bool.not_true, Bool.false_eq_true, if_false]
  cases hany : s.anyChunks with
  | false => exact ⟨m, by simp⟩
  | true =>
    by_cases hit : m.it = 0
    · exact ⟨m, by simp [hit]⟩
    · simp only [Bool.not_true, Bool.false_eq_true, if_false, hit]
      have hacc := rates_account { m with
        it := max 0 (streamedTokens codec s.lastChunk m.it m.tokens).1
        ot := max 0 (streamedTokens codec s.lastChunk m.it m.tokens).2 } response
      simp only [Metrics.account, Metrics.llm.injEq, LlmMetrics.mk.injEq] at hacc
      obtain ⟨httft, -, htokens, -⟩ := hacc
      exact ⟨_, rfl, htokens, httft, by simp⟩

/-- **Where the accounting gets through, it depends on the tokens counted,
their first time and the prompt tokens only.** -/
theorem accountStream_congr (hllm : req.isLlm) (response : Response) (s : Sending)
    {m m' : LlmMetrics} (htokens : m'.tokens = m.tokens) (httft : m'.ttft = m.ttft)
    (hit : m'.it = m.it)
    (hok : (accountStream req codec response { s with metrics := some (.llm m) }).2 = none) :
    (accountStream req codec response { s with metrics := some (.llm m') }).1.map Metrics.account =
      (accountStream req codec response { s with metrics := some (.llm m) }).1.map
        Metrics.account := by
  unfold accountStream at hok ⊢
  simp only [hllm, Bool.not_true, Bool.false_eq_true, if_false, hit, htokens] at hok ⊢
  cases hany : s.anyChunks with
  | false => simp [hany] at hok
  | true =>
    by_cases hzero : m.it = 0
    · simp [hany, hzero] at hok
    · simp only [Bool.not_true, Bool.false_eq_true, if_false, hzero, Option.map_some,
        rates_account]
      simp [Metrics.account, httft]

/-! ## One attempt -/

/-- **An attempt, whatever the metrics are that it starts from.** It adds
to the tokens what it counts; it leaves the prompt tokens, unless it sends
something; and if it gets through, its account depends on the tokens, their
first time and the prompt tokens that it started from. -/
theorem invokeOne_llm (hstream : req.stream) (target : Target) (post : Except Failure Response) :
    ∃ times : List ℚ, (req.isLlm = false → times = []) ∧ ∀ m, ∃ m',
      (invokeOne req codec target post (some (.llm m))).metrics = some (.llm m') ∧
      m'.tokens = m.tokens + times.length ∧
      (m'.ttft = (m.counted times).ttft) ∧
      (req.isLlm = false → m' = m) ∧
      ((invokeOne req codec target post (some (.llm m))).sent = [] → m'.it = m.it ∧
        (req.isLlm → (invokeOne req codec target post (some (.llm m))).raised ≠ none)) ∧
      (req.isLlm → (invokeOne req codec target post (some (.llm m))).raised = none →
        ∀ m₂ : LlmMetrics, m₂.tokens = m.tokens → m₂.ttft = m.ttft → m₂.it = m.it →
          (invokeOne req codec target post (some (.llm m₂))).metrics.map Metrics.account =
            some (Metrics.llm m').account) := by
  unfold invokeOne
  cases post with
  | error f => exact ⟨[], fun _ => rfl, fun m => ⟨m, by simp [LlmMetrics.counted]⟩⟩
  | ok response =>
    cases hstatus : checkStatus target response with
    | some f => exact ⟨[], fun _ => rfl, fun m => ⟨m, by simp [hstatus, LlmMetrics.counted]⟩⟩
    | none =>
      obtain ⟨times, s', raised, htimes, hlength, hnil, hall⟩ :=
        receiveAll_llm codec req { metrics := none } response.chunks
      refine ⟨times, htimes, fun m => ?_⟩
      have hcounted : ∀ m : LlmMetrics, receiveAll req codec { metrics := some (.llm m) }
          response.chunks = ({ s' with metrics := some (.llm (m.counted times)) }, raised) := hall
      obtain ⟨htokens, hit, httft⟩ := counted_spec m times
      have hsame : req.isLlm = false → m.counted times = m := fun h => by rw [htimes h]; rfl
      simp only [hstatus, hstream, if_true, hcounted]
      cases raised with
      | some f => exact ⟨m.counted times, rfl, htokens, rfl, hsame, by simp [hit], by simp⟩
      | none =>
        cases response.broken with
        | some f => exact ⟨m.counted times, rfl, htokens, rfl, hsame, by simp [hit], by simp⟩
        | none =>
          cases hllm : req.isLlm with
          | false =>
            refine ⟨m, ?_, ?_, ?_, fun _ => rfl, by simp, by simp⟩
            · simp [accountStream, hllm, hsame hllm]
            · simp [htimes hllm]
            · simp [hsame hllm]
          | true =>
            obtain ⟨m', hm', htokens', httft', hempty⟩ :=
              accountStream_llm codec req hllm response s' (m.counted times)
            refine ⟨m', hm', htokens'.trans htokens, httft', by simp, fun hsent => ?_, ?_⟩
            · -- nothing sent means that no chunk came at all
              have hchunks : response.chunks = [] := by
                have hsum : s'.sent.length = 0 + response.chunks.length := hlength rfl
                rw [show s'.sent = [] from hsent, List.length_nil] at hsum
                exact List.length_eq_zero_iff.1 (by omega)
              obtain ⟨hit', hfails⟩ := hempty (by rw [hnil hchunks])
              exact ⟨hit'.trans hit, fun _ => hfails⟩
            · intro _ hok m₂ h1 h2 h3
              obtain ⟨htokens₂, hit₂, -⟩ := counted_spec m₂ times
              have hmap := congrArg (Option.map Metrics.account) hm'
              refine Eq.trans ?_ hmap
              exact accountStream_congr codec req hllm response s' (by rw [htokens₂, htokens, h1])
                (httft m₂ h2) (by rw [hit₂, hit, h3]) hok

theorem accountStream_other (response : Response) {s : Sending}
    (h : ∀ m, s.metrics ≠ some (.llm m)) :
    (accountStream req codec response s).1 = s.metrics := by
  obtain ⟨_ | m | m, lastChunk, anyChunks, sent⟩ := s
  · rfl
  · exact absurd rfl (h m)
  · unfold accountStream
    dsimp only
    split
    · rfl
    · split <;> rfl

/-- Metrics that are not an LLM's stay as they are. -/
theorem invokeOne_other (hstream : req.stream) (target : Target) (post : Except Failure Response)
    {metrics : Option Metrics} (h : ∀ m, metrics ≠ some (.llm m)) :
    (invokeOne req codec target post metrics).metrics = metrics := by
  have hreceive : ∀ (s : Sending) (chunk : Chunk), s.metrics = metrics →
      (receive req codec s chunk).1.metrics = metrics := by
    intro s chunk hs
    unfold receive
    have haccept := (accept_spec codec req s s.metrics chunk.bytes).1
    split
    · exact hs
    · next metrics' hcount =>
      have hsame : metrics' = s.metrics := by
        split at hcount
        · rcases hm : s.metrics with _ | m | m
          · simp [hm, countToken] at hcount
          · exact absurd (hs.symm.trans hm) (h m)
          · simp [hm, countToken] at hcount
        · exact (Except.ok.inj hcount).symm
      rw [hsame, haccept, hs]
  have hall : ∀ (chunks : List Chunk) (s : Sending), s.metrics = metrics →
      (receiveAll req codec s chunks).1.metrics = metrics := by
    intro chunks
    induction chunks with
    | nil => exact fun s hs => hs
    | cons chunk chunks ih =>
      intro s hs
      have hone := hreceive s chunk hs
      unfold receiveAll
      rcases hr : receive req codec s chunk with ⟨s', _ | f⟩
      · rw [hr] at hone
        exact ih s' hone
      · rw [hr] at hone
        exact hone
  unfold invokeOne
  cases post with
  | error f => rfl
  | ok response =>
    cases hstatus : checkStatus target response with
    | some f => simp [hstatus]
    | none =>
      have hm := hall response.chunks { metrics } rfl
      simp only [hstatus, hstream, if_true]
      rcases hr : receiveAll req codec { metrics } response.chunks with ⟨s', _ | f⟩
      · rw [hr] at hm
        cases response.broken with
        | some f => exact hm
        | none =>
          replace hm : s'.metrics = metrics := hm
          exact (accountStream_other codec req response fun m => hm ▸ h m).trans hm
      · rw [hr] at hm
        exact hm

/-! ## The state between attempts -/

/-- **What failed attempts leave.** The metrics are the request's but for
the tokens counted and, where something was sent, the prompt tokens; the
results and the charges are of attempts that have their rows; and no error
has been sent. -/
structure Left (s : State) : Prop where
  metrics : (s.metrics = req.metrics ∧ ∀ m, req.metrics ≠ some (.llm m)) ∨
    ∃ m m₀ : LlmMetrics, s.metrics = some (.llm m) ∧ req.metrics = some (.llm m₀) ∧
      (∃ n : ℕ, m.tokens = m₀.tokens + n ∧ (n = 0 → m.ttft = m₀.ttft)) ∧
      (req.isLlm = false → m = m₀) ∧ (received s.events = [] → m.it = m₀.it)
  results : ∀ c ∈ received s.events, c.1 < s.rows.length
  charges : ∀ c ∈ s.charges, c.1 < s.rows.length
  errors : ∀ error, .error error ∉ s.events

theorem req_tokens {req : Request} {m : LlmMetrics} (h : req.metrics = some (.llm m)) :
    m.tokens = 0 := by
  unfold Request.metrics at h
  split at h
  · split at h
    · obtain rfl := Metrics.llm.inj (Option.some.inj h)
      rfl
    · simp at h
  · simp at h
  · simp at h

theorem left_start : Left req req.start := by
  refine ⟨?_, by simp [Request.start, received], by simp [Request.start], by simp [Request.start]⟩
  rcases h : req.metrics with _ | m | m
  · exact .inl ⟨h, by simp⟩
  · exact .inr ⟨m, m, h, rfl, ⟨0, by simp⟩, fun _ => rfl, fun _ => rfl⟩
  · exact .inl ⟨h, by simp⟩

/-- **Whether an attempt sends something does not depend on the attempts
before it.** -/
theorem Left.sends_iff {s : State} {e : Attempt} {target : Target} (hs : Left req s)
    (hstream : req.stream) (htarget : e.target = .ok target) (htrack : e.track = none) :
    (invokeOne req codec target e.post s.metrics).sent ≠ [] ↔ Sends codec req e := by
  have hreceive : ∀ chunk, (receive req codec { metrics := s.metrics } chunk).2 =
      (receive req codec { metrics := req.metrics } chunk).2 := by
    intro chunk
    obtain ⟨hm, -⟩ | ⟨m, m₀, hm, hm₀, -⟩ := hs.metrics
    · rw [hm]
    · obtain ⟨times, -, hall⟩ := receive_llm codec req { metrics := none } chunk
      have h := hall m
      have h₀ := hall m₀
      simp only at h h₀
      rw [hm, hm₀, h, h₀]
  unfold Sends
  cases hpost : e.post with
  | error f => simp [invokeOne]
  | ok response =>
    cases hstatus : checkStatus target response with
    | some f =>
      have hnone : ¬ (checkStatus target response = none) := by simp [hstatus]
      simp only [invokeOne, hstatus, ne_eq, not_true_eq_false, false_iff]
      rintro ⟨target', response', chunk, chunks, h1, -, h2, h3, -⟩
      rw [htarget] at h1
      obtain rfl := Except.ok.inj h1
      obtain rfl := Except.ok.inj h2
      exact hnone h3
    | none =>
      rw [sent_ne_nil_iff codec req hstream hstatus]
      constructor
      · rintro ⟨chunk, chunks, hchunks, hok⟩
        exact ⟨target, response, chunk, chunks, htarget, htrack, rfl, hstatus, hchunks,
          hreceive chunk ▸ hok⟩
      · rintro ⟨target', response', chunk, chunks, -, -, h2, -, hchunks, hok⟩
        obtain rfl := Except.ok.inj h2
        exact ⟨chunk, chunks, hchunks, (hreceive chunk).trans hok⟩

/-- Where no instance is routed to, an error is sent. -/
theorem noTarget_eq_error (s : State) (errorMessage : Option String) :
    ∃ error, noTarget s errorMessage = .error error := by
  unfold noTarget
  split
  · exact ⟨_, rfl⟩
  · split <;> exact ⟨_, rfl⟩

/-- **What the handling of an error leaves** after a stream: the metrics and
what was sent are the stream's, and the row is not completed. -/
theorem Left.fail {s s' : State} (hs : Left req s) (e : Attempt) (target : Target) (f : Failure)
    {sent : List String} (hrows : s'.rows = s.rows)
    (hevents : s'.events = s.events ++ .trace :: sent.map (.result s.rows.length)) :
    received (fail settings s' e target f).1.events =
        received s.events ++ sent.map (fun data => (s.rows.length, data)) ∧
      ((fail settings s' e target f).2 = .retry →
        ∀ error, .error error ∉ (fail settings s' e target f).1.events) ∧
      ∃ row, (fail settings s' e target f).1.rows = s.rows ++ [row] ∧
        ∀ metrics bounty, row ≠ .completed metrics bounty := by
  obtain ⟨-, row, hrow, hnot⟩ := fail_spec settings s' e target f
  obtain ⟨-, hretry, htail⟩ := fail_events settings s' e target f
  refine ⟨?_, fun h error => ?_, row, hrows ▸ hrow, hnot⟩
  · rw [← received_append_results hs.errors, ← hevents]
    rcases htail with h | h | ⟨error, h⟩ <;> rw [h] <;> simp
  · rw [hretry h, hevents]
    simp [hs.errors error]

/-- **What an attempt does**: it is not made, and ends the invocation; or
it is, sends what its stream sends, leaves the metrics its stream leaves,
has its row, and ships its usage or not. -/
theorem attempt_cases {s : State} (hs : Left req s) (e : Attempt) :
    ((attempt settings codec req s e).2 ≠ .retry ∧ ¬ Sends codec req e ∧
      (attempt settings codec req s e).1.rows = s.rows ∧
      received (attempt settings codec req s e).1.events = received s.events) ∨
    ∃ target, e.target = .ok target ∧ e.track = none ∧
      (attempt settings codec req s e).1.metrics =
        (invokeOne req codec target e.post s.metrics).metrics ∧
      received (attempt settings codec req s e).1.events = received s.events ++
        (invokeOne req codec target e.post s.metrics).sent.map (fun data => (s.rows.length, data)) ∧
      ((attempt settings codec req s e).2 = .retry →
        ∀ error, .error error ∉ (attempt settings codec req s e).1.events) ∧
      ((attempt settings codec req s e).1.charges = s.charges ∨
        ∃ invocation, usage settings req e (invokeOne req codec target e.post s.metrics).metrics =
            .ok invocation ∧
          (attempt settings codec req s e).1.charges = s.charges ++ [(s.rows.length, invocation)]) ∧
      ∃ row, (attempt settings codec req s e).1.rows = s.rows ++ [row] ∧
        ∀ metrics bounty, row = .completed metrics bounty →
          metrics = (invokeOne req codec target e.post s.metrics).metrics ∧
          (invokeOne req codec target e.post s.metrics).raised = none ∧
          (attempt settings codec req s e).2 = .returned := by
  cases htarget : e.target with
  | error errorMessage =>
    refine .inl ⟨by simp [attempt_of_noTarget htarget], ?_, by simp [attempt_of_noTarget htarget],
      ?_⟩
    · rintro ⟨target, -, -, -, h, -⟩
      simp [htarget] at h
    · obtain ⟨error, herror⟩ := noTarget_eq_error s errorMessage
      simp [attempt_of_noTarget htarget, herror]
  | ok target =>
    cases htrack : e.track with
    | some f =>
      rw [attempt_of_untracked htarget htrack]
      refine .inl ⟨by simp, ?_, rfl, rfl⟩
      rintro ⟨target', -, -, -, -, h, -⟩
      simp [htrack] at h
    | none =>
      refine .inr ⟨target, rfl, rfl, ?_⟩
      have hevents := received_append_results hs.errors s.rows.length
        (invokeOne req codec target e.post s.metrics).sent
      cases hone : (invokeOne req codec target e.post s.metrics).raised with
      | some f =>
        rw [attempt_of_raised htarget htrack hone]
        obtain ⟨hsent, hretry, row, hrow, hnot⟩ := hs.fail settings req e target f
          (s.stream_rows (invokeOne req codec target e.post s.metrics)) rfl
        exact ⟨(fail_events ..).1, hsent, hretry, .inl (fail_spec ..).1, row, hrow,
          fun m b h => absurd h (hnot m b)⟩
      | none =>
        cases husage : usage settings req e
            (invokeOne req codec target e.post s.metrics).metrics with
        | error f =>
          rw [attempt_of_unpriced htarget htrack hone husage]
          obtain ⟨hsent, hretry, row, hrow, hnot⟩ := hs.fail settings req e target f
            (s.stream_rows (invokeOne req codec target e.post s.metrics)) rfl
          exact ⟨(fail_events ..).1, hsent, hretry, .inl (fail_spec ..).1, row, hrow,
            fun m b h => absurd h (hnot m b)⟩
        | ok invocation =>
          rw [attempt_of_usage htarget htrack hone husage]
          generalize hshipped : (s.stream (invokeOne req codec target e.post s.metrics)).ship
            e.pipeline.executes invocation = shipped
          have hmetrics : shipped.metrics =
              (invokeOne req codec target e.post s.metrics).metrics := by simp [← hshipped]
          have hrows : shipped.rows = s.rows := by simp [← hshipped]
          have hsame : shipped.events = s.events ++ .trace ::
              (invokeOne req codec target e.post s.metrics).sent.map (.result s.rows.length) := by
            rw [← hshipped, State.ship_events]
            rfl
          have hcharges : shipped.charges = s.charges ∨
              ∃ i, (Except.ok invocation : Except Failure _) = .ok i ∧
                shipped.charges = s.charges ++ [(s.rows.length, i)] := by
            rw [← hshipped, State.ship_charges]
            cases e.pipeline.executes with
            | false => exact .inl (by simp)
            | true => exact .inr ⟨invocation, rfl, rfl⟩
          rcases afterCharge settings req e with ⟨used, _ | f⟩
          · dsimp only
            refine ⟨hmetrics, ?_, by simp, hcharges, _, by rw [hrows], ?_⟩
            · rw [received_append_trace, hsame, hevents]
            · intro metrics bounty h
              obtain ⟨rfl, -⟩ := InvocationRow.completed.inj h
              exact ⟨hmetrics, rfl, rfl⟩
          · obtain ⟨hsent, hretry, row, hrow, hnot⟩ := hs.fail settings req e target f
              (show State.rows { shipped with quotaUsed := shipped.quotaUsed + used } = s.rows
                from hrows) hsame
            refine ⟨(fail_events ..).1.trans hmetrics, hsent, hretry, ?_, row, hrow,
              fun m b h => absurd h (hnot m b)⟩
            rw [(fail_spec ..).1]
            exact hcharges

/-- An attempt that is followed by another leaves what failed attempts
leave. -/
theorem Left.attempt {s s' : State} {e : Attempt} (hs : Left req s) (hstream : req.stream)
    (h : attempt settings codec req s e = (s', .retry)) : Left req s' := by
  obtain ⟨hnot, -⟩ | ⟨target, -, -, hmetrics, hevents, herrors, hcharges, row, hrows, -⟩ :=
    attempt_cases settings codec req hs e
  · simp [h] at hnot
  · rw [h] at hmetrics hevents herrors hcharges hrows
    replace hrows : s'.rows = s.rows ++ [row] := hrows
    have hlength : s'.rows.length = s.rows.length + 1 := by simp [hrows]
    refine ⟨?_, fun c hc => ?_, fun c hc => ?_, herrors rfl⟩
    · replace hmetrics : s'.metrics = (invokeOne req codec target e.post s.metrics).metrics :=
        hmetrics
      obtain ⟨hm, hother⟩ | ⟨m, m₀, hm, hm₀, ⟨n, hn, httft⟩, hsame, hit⟩ := hs.metrics
      · refine .inl ⟨?_, hother⟩
        rw [hmetrics, hm, invokeOne_other codec req hstream target e.post hother]
      · obtain ⟨times, htimes, hall⟩ :=
          invokeOne_llm codec req hstream target e.post
        obtain ⟨m', hm', htokens', httft', hsame', hsent', -⟩ := hall m
        rw [hm] at hmetrics hevents
        refine .inr ⟨m', m₀, hmetrics.trans hm', hm₀, ⟨n + times.length, ?_, ?_⟩, ?_, ?_⟩
        · rw [htokens', hn]
          push_cast
          ring
        · intro hzero
          have htimes' : times = [] := List.length_eq_zero_iff.1 (by omega)
          rw [httft', htimes']
          exact httft (by omega)
        · exact fun hllm => (hsame' hllm).trans (hsame hllm)
        · intro hnone
          rw [hevents, List.append_eq_nil_iff, List.map_eq_nil_iff] at hnone
          rw [(hsent' hnone.2).1, hit hnone.1]
    · rw [hevents, List.mem_append, List.mem_map] at hc
      rcases hc with hc | ⟨data, -, rfl⟩
      · have := hs.results c hc
        omega
      · rw [hlength]
        exact Nat.lt_succ_self _
    · rcases hcharges with hsame | ⟨invocation, -, hmore⟩
      · have := hs.charges c (hsame ▸ hc)
        omega
      · rw [hmore, List.mem_append, List.mem_singleton] at hc
        rcases hc with hc | rfl
        · have := hs.charges c hc
          omega
        · rw [hlength]
          exact Nat.lt_succ_self _

/-! ## The loop -/

/-- What the caller has received stays so, and so do the rows. -/
theorem attempts_received {s : State} (hs : Left req s) (hstream : req.stream)
    (es : List Attempt) :
    received s.events <+: received (attempts settings codec req s es).events ∧
      s.rows <+: (attempts settings codec req s es).rows := by
  induction es generalizing s with
  | nil =>
    exact ⟨by simp [attempts, exhausted], List.prefix_rfl⟩
  | cons e es ih =>
    have hone : received s.events <+: received (attempt settings codec req s e).1.events ∧
        s.rows <+: (attempt settings codec req s e).1.rows := by
      obtain ⟨-, -, hrows, hevents⟩ | ⟨target, -, -, -, hevents, -, -, row, hrows, -⟩ :=
        attempt_cases settings codec req hs e
      · rw [hrows, hevents]
        exact ⟨List.prefix_rfl, List.prefix_rfl⟩
      · rw [hrows, hevents]
        exact ⟨List.prefix_append .., List.prefix_append ..⟩
    unfold attempts
    rcases h : attempt settings codec req s e with ⟨s', flow⟩
    rw [h] at hone
    cases flow with
    | retry =>
      obtain ⟨hreceived, hrows⟩ := ih (hs.attempt settings codec req hstream h)
      exact ⟨hone.1.trans hreceived, hone.2.trans hrows⟩
    | returned => exact hone
    | raised => exact hone

/-- **The attempt that succeeds.** Its account is as if it had been made
alone exactly where no token has been counted before it. -/
theorem account_iff {s : State} (hs : Left req s) (hstream : req.stream) {e : Attempt}
    {target : Target} (htarget : e.target = .ok target) (htrack : e.track = none)
    (hok : (invokeOne req codec target e.post s.metrics).raised = none)
    (hapart : received s.events ≠ [] → ¬ Sends codec req e) :
    (invokeOne req codec target e.post s.metrics).metrics.map Metrics.account =
        (alone codec req e target).map Metrics.account ↔ ¬ s.Counted := by
  have hsends := hs.sends_iff codec req hstream htarget htrack
  unfold alone
  obtain ⟨hm, hother⟩ | ⟨m, m₀, hm, hm₀, ⟨n, hn, httft⟩, hsame, hit⟩ := hs.metrics
  · have hcounted : ¬ s.Counted := by
      rintro ⟨m, h, -⟩
      exact hother m (hm ▸ h)
    rw [hm]
    exact ⟨fun _ => hcounted, fun _ => rfl⟩
  · have hzero : m₀.tokens = 0 := req_tokens hm₀
    -- `n` tokens were counted before; the request's own metrics have none.
    have hcounted : s.Counted ↔ n ≠ 0 := by
      constructor
      · rintro ⟨m', h, h'⟩ rfl
        obtain rfl : m = m' := by simpa [hm] using h
        exact h' (by rw [hn, hzero]; norm_num)
      · intro h
        refine ⟨m, hm, ?_⟩
        rw [hn, hzero, zero_add]
        exact_mod_cast h
    obtain ⟨times, -, hall⟩ := invokeOne_llm codec req hstream target e.post
    obtain ⟨m', hm', htokens', -, hsame', hsent', hcongr⟩ := hall m
    obtain ⟨m₀', hm₀', htokens₀', -⟩ := hall m₀
    rw [hm] at hok hsends
    rw [hm, hm₀, hm', hm₀', hcounted, ne_eq, not_not]
    constructor
    · intro h
      have htokens : m'.tokens = m₀'.tokens := by
        simp only [Option.map_some, Metrics.account, Option.some.injEq, Metrics.llm.injEq,
          LlmMetrics.mk.injEq] at h
        exact h.2.2.1
      rw [htokens', htokens₀', hn] at htokens
      have hcast : (n : ℚ) = 0 := by linarith
      exact_mod_cast hcast
    · rintro rfl
      cases hllm : req.isLlm with
      | false =>
        have heq : m = m₀ := hsame hllm
        rw [← hm', ← hm₀', heq]
      | true =>
        -- An attempt that succeeds has sent something, so none before it has.
        have hsent : (invokeOne req codec target e.post (some (.llm m))).sent ≠ [] := fun hnil =>
          (hsent' hnil).2 hllm hok
        have hnone : received s.events = [] := by
          by_contra hne
          exact hapart hne (hsends.1 hsent)
        have h := hcongr hllm hok m₀ (by rw [hn]; norm_num) (httft rfl).symm (hit hnone).symm
        rw [hm₀'] at h
        exact h.symm

/-- What the caller has after an attempt stays so. -/
theorem attempt_received {s : State} (hs : Left req s) (hstream : req.stream) (e : Attempt)
    (es : List Attempt) :
    received (attempt settings codec req s e).1.events <+:
      received (attempts settings codec req s (e :: es)).events := by
  unfold attempts
  rcases h : attempt settings codec req s e with ⟨s', flow⟩
  cases flow with
  | retry =>
    have hleft := hs.attempt settings codec req hstream h
    exact (attempts_received settings codec req hleft hstream es).1
  | returned => exact List.prefix_rfl
  | raised => exact List.prefix_rfl

/-- An invocation whose caller has results of one attempt only, and which
has no completed row from `n` on. -/
theorem isolated_of_rows {n : ℕ} {es : List Attempt} {s : State}
    (hone : ∀ c ∈ received s.events, ∀ c' ∈ received s.events, c.1 = c'.1)
    (hrows : ∀ k metrics bounty, s.rows[n + k]? ≠ some (.completed metrics bounty)) :
    Isolated settings codec req n es s :=
  ⟨hone, fun k _ _ metrics bounty _ _ h => absurd h (hrows k metrics bounty),
    fun k _ _ metrics bounty _ _ _ h => absurd h (hrows k metrics bounty)⟩

/-- An attempt that failed is not looked at any more. -/
theorem isolated_cons_iff {n : ℕ} {e : Attempt} {es : List Attempt} {s : State}
    (hrow : ∀ metrics bounty, s.rows[n]? ≠ some (.completed metrics bounty)) :
    Isolated settings codec req n (e :: es) s ↔ Isolated settings codec req (n + 1) es s := by
  have hshift : ∀ k, n + (k + 1) = n + 1 + k := by omega
  constructor
  · rintro ⟨hresults, hmetrics, hcharge⟩
    refine ⟨hresults, fun k e' target metrics bounty he htarget h => ?_,
      fun k e' target metrics bounty invocation he htarget h hc => ?_⟩
    · exact hmetrics (k + 1) e' target metrics bounty he htarget (hshift k ▸ h)
    · exact hcharge (k + 1) e' target metrics bounty invocation he htarget (hshift k ▸ h)
        (hshift k ▸ hc)
  · rintro ⟨hresults, hmetrics, hcharge⟩
    refine ⟨hresults, fun k e' target metrics bounty he htarget h => ?_,
      fun k e' target metrics bounty invocation he htarget h hc => ?_⟩
    · cases k with
      | zero => exact absurd h (hrow metrics bounty)
      | succ k => exact hmetrics k e' target metrics bounty he htarget (hshift k ▸ h)
    · cases k with
      | zero => exact absurd h (hrow metrics bounty)
      | succ k =>
        exact hcharge k e' target metrics bounty invocation he htarget (hshift k ▸ h)
          (hshift k ▸ hc)

/-- The last attempt that is made. -/
theorem isolated_last_iff {s s' : State} {e : Attempt} {es : List Attempt} (hs : Left req s)
    (hstream : req.stream) (h : (attempt settings codec req s e).1 = s')
    (hone : ∀ c ∈ received s'.events, ∀ c' ∈ received s'.events, c.1 = c'.1)
    (hapart : received s.events ≠ [] → ¬ Sends codec req e) :
    Isolated settings codec req s.rows.length (e :: es) s' ↔
      (s.Counted → ¬ Succeeds settings codec req s e) := by
  subst h
  obtain ⟨-, -, hrows, -⟩ | ⟨target, htarget, htrack, -, -, -, hcharges, row, hrows, hrow⟩ :=
    attempt_cases settings codec req hs e
  · refine iff_of_true (isolated_of_rows settings codec req hone fun k metrics bounty => ?_) ?_
    · simp [hrows]
    · rintro - ⟨metrics, bounty, h⟩
      simp [hrows] at h
  -- The law speaks of completed rows only.
  · by_cases hcompleted : ∃ metrics bounty, row = .completed metrics bounty
    · obtain ⟨metrics, bounty, rfl⟩ := hcompleted
      obtain ⟨rfl, hok, -⟩ := hrow metrics bounty rfl
      have hsucceeds : Succeeds settings codec req s e := ⟨_, bounty, hrows⟩
      have hget : ∀ k m b, (attempt settings codec req s e).1.rows[s.rows.length + k]? =
          some (.completed m b) →
            k = 0 ∧ m = (invokeOne req codec target e.post s.metrics).metrics := by
        intro k m b hk
        rw [hrows] at hk
        cases k with
        | zero =>
          rw [add_zero, List.getElem?_concat_length, Option.some.injEq,
            InvocationRow.completed.injEq] at hk
          exact ⟨rfl, hk.1.symm⟩
        | succ k => simp at hk
      have haccount := account_iff codec req hs hstream htarget htrack hok hapart
      constructor
      · intro hisolated hcounted _
        refine haccount.1 ?_ hcounted
        exact hisolated.metrics 0 e target _ bounty rfl htarget (by simp [hrows])
      · intro hcounted
        have hsame := haccount.2 fun hc => hcounted hc hsucceeds
        refine ⟨hone, fun k e' target' m b he htarget' hk => ?_,
          fun k e' target' m b invocation he htarget' hk hc => ?_⟩
        · obtain ⟨rfl, rfl⟩ := hget k m b hk
          obtain rfl : e = e' := by simpa using he
          obtain rfl : target = target' := by simpa [htarget] using htarget'
          exact hsame
        · obtain ⟨rfl, rfl⟩ := hget k m b hk
          obtain rfl : e = e' := by simpa using he
          obtain rfl : target = target' := by simpa [htarget] using htarget'
          rw [← usage_congr settings req e hsame]
          rcases hcharges with hnone | ⟨shipped, hshipped, hmore⟩
          · have := hs.charges _ (hnone ▸ hc)
            omega
          · rw [hmore, List.mem_append, List.mem_singleton] at hc
            rcases hc with hc | hc
            · have := hs.charges _ hc
              omega
            · rw [hshipped, (Prod.mk.inj hc).2]
    · refine iff_of_true (isolated_of_rows settings codec req hone fun k metrics bounty => ?_) ?_
      · rw [hrows]
        cases k with
        | zero => simpa using fun h => hcompleted ⟨metrics, bounty, h⟩
        | succ k => simp
      · rintro - ⟨metrics, bounty, h⟩
        rw [hrows, List.append_cancel_left_eq, List.singleton_inj] at h
        exact hcompleted ⟨metrics, bounty, h⟩

/-- **The loop's law.** -/
theorem attempts_isolated_iff {s : State} (hs : Left req s) (hstream : req.stream)
    (hone : ∀ c ∈ received s.events, ∀ c' ∈ received s.events, c.1 = c'.1) (es : List Attempt) :
    Isolated settings codec req s.rows.length es (attempts settings codec req s es) ↔
      Apart settings codec req s es := by
  induction es generalizing s with
  | nil =>
    refine ⟨fun _ => trivial, fun _ => ⟨?_, by simp, by simp⟩⟩
    simpa [attempts, exhausted] using hone
  | cons e es ih =>
    have hmade := attempt_cases settings codec req hs e
    by_cases hapart : received s.events ≠ [] → ¬ Sends codec req e
    · -- what the caller has after the attempt is of one attempt still
      have hone' : ∀ c ∈ received (attempt settings codec req s e).1.events,
          ∀ c' ∈ received (attempt settings codec req s e).1.events, c.1 = c'.1 := by
        obtain ⟨-, -, -, hevents⟩ | ⟨target, htarget, htrack, -, hevents, -⟩ := hmade
        · rwa [hevents]
        · rw [hevents]
          by_cases hsent : (invokeOne req codec target e.post s.metrics).sent = []
          · simpa [hsent] using hone
          · have hnone : received s.events = [] := by
              by_contra hne
              exact hapart hne ((hs.sends_iff codec req hstream htarget htrack).1 hsent)
            simp [hnone]
      unfold attempts Apart
      rw [and_iff_right hapart]
      rcases h : attempt settings codec req s e with ⟨s', flow⟩
      rw [h] at hone'
      cases flow with
      | retry =>
        have hleft := hs.attempt settings codec req hstream h
        obtain ⟨hnot, -⟩ | ⟨target, -, -, -, -, -, -, row, hrows, hrow⟩ := hmade
        · simp [h] at hnot
        · rw [h] at hrows hrow
          have hfailed : ∀ metrics bounty, row ≠ .completed metrics bounty := by
            rintro metrics bounty rfl
            cases (hrow metrics bounty rfl).2.2
          have hfails : ¬ Succeeds settings codec req s e := by
            rintro ⟨metrics, bounty, hsucceeds⟩
            rw [h, hrows, List.append_cancel_left_eq, List.singleton_inj] at hsucceeds
            exact hfailed metrics bounty hsucceeds
          replace hrows : s'.rows = s.rows ++ [row] := hrows
          have hlength : s'.rows.length = s.rows.length + 1 := by simp [hrows]
          have hloop := ih hleft hone'
          rw [hlength] at hloop
          rw [isolated_cons_iff settings codec req, hloop]
          · simp [hfails]
          · intro metrics bounty hget
            obtain ⟨later, hlater⟩ := (attempts_received settings codec req hleft hstream es).2
            rw [← hlater, hrows, List.append_assoc, List.getElem?_append_right le_rfl] at hget
            simp only [Nat.sub_self, List.singleton_append, List.getElem?_cons_zero,
              Option.some.injEq] at hget
            exact hfailed metrics bounty hget
      | returned =>
        have hlast : Isolated settings codec req s.rows.length (e :: es) s' ↔
            (s.Counted → ¬ Succeeds settings codec req s e) :=
          isolated_last_iff settings codec req hs hstream (by rw [h]) hone' hapart
        simpa using hlast
      | raised =>
        have hlast : Isolated settings codec req s.rows.length (e :: es) s' ↔
            (s.Counted → ¬ Succeeds settings codec req s e) :=
          isolated_last_iff settings codec req hs hstream (by rw [h]) hone' hapart
        simpa using hlast
    · -- the caller has results of two attempts, and will keep them
      refine iff_of_false (fun hisolated => ?_) fun h => hapart h.1
      simp only [not_forall, not_not] at hapart
      obtain ⟨hne, hsends⟩ := hapart
      obtain ⟨-, hnot, -⟩ | ⟨target, htarget, htrack, -, hevents, -⟩ := hmade
      · exact hnot hsends
      · have hsent := (hs.sends_iff codec req hstream htarget htrack).2 hsends
        obtain ⟨data, hdata⟩ := List.exists_mem_of_ne_nil _ hsent
        obtain ⟨c, hc⟩ := List.exists_mem_of_ne_nil _ hne
        have hkept := attempt_received settings codec req hs hstream e es
        have hnew : (s.rows.length, data) ∈ received (attempt settings codec req s e).1.events := by
          rw [hevents]
          exact List.mem_append_right _ (List.mem_map_of_mem hdata)
        have hold : c ∈ received (attempt settings codec req s e).1.events := by
          rw [hevents]
          exact List.mem_append_left _ hc
        have hindex : c.1 = s.rows.length :=
          hisolated.results c (hkept.subset hold) _ (hkept.subset hnew)
        have hlt := hs.results c hc
        omega

/-- **Attempts are isolated** exactly where they are apart. -/
theorem invoke_isolated_iff (hstream : req.stream) (env : Fin 5 → Attempt) :
    Isolated settings codec req 0 (List.ofFn env) (invoke settings codec req env) ↔
      Apart settings codec req req.start (List.ofFn env) :=
  attempts_isolated_iff settings codec req (left_start req) hstream
    (by simp [Request.start, received]) (List.ofFn env)

section

/-- A streamed chat with a language model. -/
private def chat : Request :=
  ⟨⟨"c", "o", "demo", true, some .vllm, none, some (.finite 1), 1800000000⟩,
    "u", "chat_stream", true, false, true, true, 2, 0⟩

private def utf8 : Codec := ⟨some, fun _ => none⟩

/-- An attempt that gets this answer, and nothing else that raises. -/
private def answered (post : Except Failure Response) : Attempt :=
  { target := .ok { instanceId := "i" }
    post
    update := .ok (some 1)
    quotes := { hourlyPrice := .ok 1 }
    chargeOwner := .ok none
    quotaOwner := .ok none
    shutdownOwner := .ok none
    timestamp := 0 }

/-- A stream of one token, which breaks after it or not. -/
private def hello (broken : Option Failure) : Response :=
  { status := 200
    chunks := [⟨"data: \x7b\"content\": \"Hello\"\x7d", 1 / 2⟩]
    broken
    totalTime := 1 }

/-- The first instance cannot be reached, and the second answers. -/
private def unreached : Fin 5 → Attempt
  | 0 => answered (.error (.other "Cannot connect to host"))
  | _ => answered (.ok (hello none))

/-- The first stream breaks after its token, and the second does not. -/
private def broken : Fin 5 → Attempt
  | 0 => answered (.ok (hello (some (.other "Connection closed"))))
  | _ => answered (.ok (hello none))

theorem invoke_isolated_unreached :
    Isolated {} utf8 chat 0 (List.ofFn unreached) (invoke {} utf8 chat unreached) := by
  refine (invoke_isolated_iff {} utf8 chat rfl unreached).2 ?_
  have hnone : ∀ s : State, s.metrics = chat.metrics → ¬ s.Counted := by
    rintro s hs ⟨m, h, h'⟩
    exact h' (req_tokens (hs.symm.trans h))
  refine ⟨fun h => absurd rfl h, fun h => absurd h (hnone _ rfl), fun _ => ?_⟩
  refine ⟨fun h => absurd (by decide +kernel) h, fun h => absurd h (hnone _ rfl), fun h => ?_⟩
  exact absurd h (by decide +kernel)

/-- **Two beginnings.** The caller receives the token of the attempt that
broke, and again that of the one that succeeds, to which both are
counted. -/
theorem not_invoke_isolated : ¬ ∀ (settings : Settings) (codec : Codec) (req : Request)
    (env : Fin 5 → Attempt), req.stream →
      Isolated settings codec req 0 (List.ofFn env) (invoke settings codec req env) := by
  intro h
  have hresults := (h {} utf8 chat broken rfl).results
  exact absurd hresults (by decide +kernel)

end

end Invoke

end ChutesApi
