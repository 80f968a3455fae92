import ChutesApi.Invoke.Lockstep
import Mathlib.Tactic.NormNum
/-!
# Requests that can be billed

A streamed request to an LLM without an estimate of its prompt raises on
every answer (`invokeOne_starved`), so that it is never billed. Any other
request has an answer that suits it: `answering` gets it, and `bill_answered`
has what it is billed.
-/

namespace ChutesApi

namespace Invoke

open Python

variable {settings : Settings} {codec : Codec} {r r' : Request} {s s' : State} {m : Option Metrics}

/-! ## Streams without an estimate -/

/-- A streamed request to an LLM whose prompt has no tokens: there is no
answer that its accounting does not raise on. -/
def Request.Starved (req : Request) : Prop :=
  req.stream ∧ req.isLlm ∧ req.completions ∧ req.promptTokens = 0

def NoEstimate (m : Option Metrics) : Prop := ∃ x, m = some (.llm x) ∧ x.it = 0

theorem accept_metrics (r : Request) (t : Sending) (bytes : String) :
    (accept r codec t bytes).1.metrics = t.metrics := by
  unfold accept
  split
  · rfl
  · split
    · rfl
    · dsimp only
      split <;> rfl

/-- A chunk does not change the count of the prompt. -/
theorem receive_it (r : Request) (codec : Codec) {t : Sending} {x : LlmMetrics}
    (h : t.metrics = some (.llm x)) (chunk : Chunk) :
    ∃ x', (receive r codec t chunk).1.metrics = some (.llm x') ∧ x'.it = x.it := by
  have hcounted : ∃ x', (if r.counts chunk.bytes then countToken t.metrics chunk.elapsed
      else .ok t.metrics) = .ok (some (.llm x')) ∧ x'.it = x.it := by
    split_ifs
    · rw [h]
      exact ⟨_, rfl, rfl⟩
    · exact ⟨x, congrArg Except.ok h, rfl⟩
  obtain ⟨x', hcounted, hit⟩ := hcounted
  unfold receive
  rw [hcounted]
  exact ⟨x', accept_metrics r _ chunk.bytes, hit⟩

theorem receiveAll_it (r : Request) (codec : Codec) {t : Sending} {x : LlmMetrics}
    (h : t.metrics = some (.llm x)) (chunks : List Chunk) :
    ∃ x', (receiveAll r codec t chunks).1.metrics = some (.llm x') ∧ x'.it = x.it := by
  induction chunks generalizing t x with
  | nil => exact ⟨x, h, rfl⟩
  | cons chunk chunks ih =>
    obtain ⟨x', hnext, hit⟩ := receive_it r codec h chunk
    unfold receiveAll
    rcases hreceive : receive r codec t chunk with ⟨t', _ | f⟩
    · rw [hreceive] at hnext
      obtain ⟨x'', hlast, hit'⟩ := ih hnext
      exact ⟨x'', hlast, hit'.trans hit⟩
    · rw [hreceive] at hnext
      exact ⟨x', hnext, hit⟩

theorem accountStream_noEstimate (codec : Codec) {t : Sending} (hllm : r.isLlm)
    (h : NoEstimate t.metrics) (response : Response) :
    (accountStream r codec response t).1 = t.metrics ∧
      (accountStream r codec response t).2 ≠ none := by
  obtain ⟨x, hx, hit⟩ := h
  by_cases hany : t.anyChunks
  · simp [accountStream, hx, hllm, hany, hit]
  · simp [accountStream, hx, hllm, hany]

/-- **A starved request always raises.** -/
theorem invokeOne_starved (h : r.Starved) (hm : NoEstimate m) (target : Target)
    (post : Except Failure Response) : NoEstimate (invokeOne r codec target post m).metrics ∧
      (invokeOne r codec target post m).raised ≠ none := by
  obtain ⟨hstream, hllm, -, -⟩ := h
  have hm₀ := hm
  obtain ⟨x, hx, hit⟩ := hm₀
  unfold invokeOne
  cases post with
  | error f => exact ⟨hm, by simp⟩
  | ok response =>
    dsimp only
    cases checkStatus target response with
    | some f => exact ⟨hm, by simp⟩
    | none =>
      dsimp only
      rw [if_pos hstream]
      have hreceived :
          NoEstimate (receiveAll r codec { metrics := m } response.chunks).1.metrics := by
        obtain ⟨x', hx', hit'⟩ := receiveAll_it r codec (t := { metrics := m }) hx response.chunks
        exact ⟨x', hx', hit'.trans hit⟩
      rcases hall : receiveAll r codec { metrics := m } response.chunks with ⟨t, _ | f⟩
      · rw [hall] at hreceived
        cases response.broken with
        | some f => exact ⟨hreceived, by simp⟩
        | none =>
          obtain ⟨hsame, hraised⟩ := accountStream_noEstimate codec hllm hreceived response
          rw [← hsame] at hreceived
          exact ⟨hreceived, hraised⟩
      · rw [hall] at hreceived
        exact ⟨hreceived, by simp⟩

theorem Request.Starved.start (h : r.Starved) : NoEstimate r.start.metrics := by
  obtain ⟨-, hllm, hcompletions, hnone⟩ := h
  have htemplate : r.chute.standardTemplate = some .vllm := by
    unfold Request.isLlm at hllm
    simp only [Bool.and_eq_true, decide_eq_true_eq] at hllm
    exact hllm.1
  refine ⟨{ it := r.promptTokens }, ?_, by simp [hnone]⟩
  simp [Request.start, Request.metrics, htemplate, hcompletions]

/-- **A starved request** is not billed. -/
theorem bill_of_starved (h : r.Starved) (env : Fin 5 → Attempt) :
    bill settings codec (.ok r) env = (0, 0) := by
  refine Unbilled.bill_eq (Unbilled.attempts NoEstimate
    (fun target post m hm => (invokeOne_starved h hm target post).1)
    (fun e target m hm hone => absurd hone (invokeOne_starved h hm target e.post).2)
    _ ⟨?_, rfl⟩ h.start)
  exact fun c hc => nomatch hc

/-! ## An answer -/

/-- Bytes are text, and no chunk is an object. -/
def plainCodec : Codec := ⟨some, fun _ => none⟩

/-- An answer without tokens, in whose chunk there is a usage. -/
def answer (json : Option Answer) : Response where
  status := 200
  chunks := [⟨"data:\"usage\"", 0⟩]
  body := .ok ⟨"", json⟩
  totalTime := 1

/-- These prices. -/
def quoted (priceOverride : Option PriceOverride) : Quotes where
  hourlyPrice := .ok 1
  priceOverride := .ok priceOverride

/-- An attempt that gets this answer, at these prices. -/
def answering (r : Request) (response : Response) (priceOverride : Option PriceOverride) :
    Attempt where
  target := .ok { instanceId := "i" }
  post := .ok response
  update := .ok (some 1)
  quotes := quoted priceOverride
  chargeOwner := .ok (some r.chute.userId)
  quotaOwner := .ok (some r.chute.userId)
  shutdownOwner := .ok none
  timestamp := 0

theorem receiveAll_answer (r : Request) (loads : String → Option ChunkObject)
    (json : Option Answer) (m : Option Metrics) :
    receiveAll r ⟨some, loads⟩ { metrics := m } (answer json).chunks =
      ({ metrics := m, lastChunk := some "data:\"usage\"", anyChunks := true,
         sent := ["data:\"usage\""] }, none) := by
  have hcounts : r.counts "data:\"usage\"" = false := by
    simp [Request.counts, show startsWith "data:\"usage\"" "data: \x7b" = false by decide]
  have herror : startsWith "data:\"usage\"" backendError = false := by decide
  have hdata : isData "data:\"usage\"" = true := by decide
  have hbad (codec : Codec) : r.badResponse codec "data:\"usage\"" = false := by
    simp [Request.badResponse, show startsWith "data:\"usage\"" "data: \x7b" = false by decide]
  have hany : contains "data:\"usage\"" "data:" = true := by decide
  simp [answer, receiveAll, receive, accept, hcounts, herror, hdata, hbad, hany]

theorem metrics_eq_llm {x : LlmMetrics} (h : r.metrics = some (.llm x)) :
    r.completions ∧ x = { it := r.promptTokens } := by
  unfold Request.metrics at h
  split at h
  · split_ifs at h with hcompletions
    rw [Option.some.injEq, Metrics.llm.injEq] at h
    exact ⟨hcompletions, h.symm⟩
  · exact nomatch h
  · exact nomatch h

theorem metrics_eq_diffusion {x : DiffusionMetrics} (h : r.metrics = some (.diffusion x)) :
    r.isLlm = false := by
  unfold Request.metrics at h
  split at h
  · split_ifs at h
    exact nomatch h
  · next htemplate => simp [Request.isLlm, htemplate]
  · exact nomatch h

/-- The accounting of the answer as a stream, where its usage is no object. -/
theorem accountStream_answer (h : ¬(r.isLlm ∧ r.completions ∧ r.promptTokens = 0))
    (json : Option Answer) {t : Sending} (hany : t.anyChunks = true) (hm : t.metrics = r.metrics) :
    (accountStream r plainCodec (answer json) t).2 = none ∧
      SameCounts r.metrics (accountStream r plainCodec (answer json) t).1 := by
  cases hmetrics : r.metrics with
  | none => simpa [accountStream, hm, hmetrics] using SameCounts.refl none
  | some metrics =>
    by_cases hllm : r.isLlm
    · cases metrics with
      | diffusion x => simp [metrics_eq_diffusion hmetrics] at hllm
      | llm x =>
        obtain ⟨hcompletions, rfl⟩ := metrics_eq_llm hmetrics
        have hpos : (r.promptTokens : ℚ) ≠ 0 :=
          Nat.cast_ne_zero.2 fun h0 => h ⟨hllm, hcompletions, h0⟩
        have htokens (p : ℚ) : streamedTokens plainCodec t.lastChunk p 0 = (p, 0) := by
          unfold streamedTokens
          split
          · rfl
          · split <;> rfl
        simp [accountStream, hm, hmetrics, hllm, hany, hpos, htokens, LlmMetrics.rates, answer,
          SameCounts, tokensOf, stepsOf]
    · have hleft : accountStream r plainCodec (answer json) t = (r.metrics, none) := by
        cases metrics <;> simp [accountStream, hm, hmetrics, hllm]
      rw [hleft, hmetrics]
      exact ⟨rfl, .refl _⟩

/-- The accounting of the answer as a plain one without JSON. -/
theorem accountPlain_answer (r : Request) (target : Target) :
    (accountPlain r target (answer none) ⟨"", none⟩ r.metrics).2 = none ∧
      SameCounts r.metrics (accountPlain r target (answer none) ⟨"", none⟩ r.metrics).1 := by
  unfold accountPlain
  split
  · exact ⟨rfl, .refl _⟩
  · split
    · cases hmetrics : r.metrics with
      | none => exact ⟨rfl, .refl _⟩
      | some metrics =>
        cases metrics with
        | llm x => exact ⟨rfl, .refl _⟩
        | diffusion x =>
          by_cases hsteps : x.steps = 0
          · simp [hsteps, SameCounts.refl]
          · simp [hsteps, answer, SameCounts, tokensOf, stepsOf]
    · exact ⟨rfl, .refl _⟩

theorem checkStatus_answer (target : Target) (json : Option Answer) :
    checkStatus target (answer json) = none := by simp [checkStatus, answer]

/-- **The answer suits every stream that is not starved**: it raises nothing
and leaves the counts as they were at first. -/
theorem invokeOne_answer_stream (hstream : r.stream) (h : ¬r.Starved) (target : Target)
    (json : Option Answer) :
    (invokeOne r plainCodec target (.ok (answer json)) r.metrics).raised = none ∧
      SameCounts r.metrics
        (invokeOne r plainCodec target (.ok (answer json)) r.metrics).metrics := by
  unfold invokeOne
  dsimp only
  rw [checkStatus_answer]
  dsimp only
  rw [if_pos hstream, plainCodec, receiveAll_answer]
  exact accountStream_answer (fun hr => h ⟨hstream, hr⟩) json rfl rfl

/-- What an answer that is not streamed leaves is its accounting. -/
theorem invokeOne_plain (codec : Codec) (m : Option Metrics) (hstream : ¬r.stream)
    {target : Target} {response : Response} {body : Body}
    (hstatus : checkStatus target response = none) (hbody : response.body = .ok body) :
    (invokeOne r codec target (.ok response) m).metrics =
        (accountPlain r target response body m).1 ∧
      (invokeOne r codec target (.ok response) m).raised =
        (accountPlain r target response body m).2 := by
  unfold invokeOne
  dsimp only
  rw [hstatus]
  dsimp only
  rw [if_neg hstream, hbody]
  dsimp only
  rcases accountPlain r target response body m with ⟨metrics, _ | f⟩ <;> exact ⟨rfl, rfl⟩

/-- And without JSON every request that is none. -/
theorem invokeOne_answer_plain (hstream : ¬r.stream) (codec : Codec) (target : Target) :
    (invokeOne r codec target (.ok (answer none)) r.metrics).raised = none ∧
      SameCounts r.metrics (invokeOne r codec target (.ok (answer none)) r.metrics).metrics := by
  obtain ⟨hmetrics, hraised⟩ :=
    invokeOne_plain codec r.metrics hstream (checkStatus_answer target none) rfl
  rw [hmetrics, hraised]
  exact accountPlain_answer r target

theorem invokeOne_answer (h : ¬r.Starved) (target : Target) :
    (invokeOne r plainCodec target (.ok (answer none)) r.metrics).raised = none ∧
      SameCounts r.metrics
        (invokeOne r plainCodec target (.ok (answer none)) r.metrics).metrics := by
  by_cases hstream : r.stream
  · exact invokeOne_answer_stream hstream h target none
  · exact invokeOne_answer_plain hstream plainCodec target

/-! ## What the answer is billed -/

/-- There is one instance, and it is asked once. -/
def once (e : Attempt) (i : Fin 5) : Attempt :=
  if i = 0 then e else { e with target := .error none }

/-- The part of a re-roll. -/
def Request.part (settings : Settings) (req : Request) : ℚ :=
  if req.reroll then settings.rerollMultiplier else 1

variable {response : Response} {priceOverride : Option PriceOverride} {used : ℚ}

/-- The answer is counted against the quota just when it is free. -/
theorem countsQuota_answering (h : r.freeInvocation → r.chute.discount.any (·.lt 1))
    (response : Response) (priceOverride : Option PriceOverride) :
    countsQuota r (answering r response priceOverride) = .ok r.freeInvocation := by
  unfold countsQuota
  by_cases hfree : r.freeInvocation
  · obtain ⟨discount, hdiscount, hlt⟩ := (Option.any_eq_true _ _).1 (h hfree)
    rw [if_pos hfree, hdiscount, hfree]
    by_cases hprivate : r.isPrivate
    · simp [hlt, hprivate, answering, Except.map]
    · simp [hlt, hprivate]
  · simp [hfree]

theorem afterCharge_answered (h : r.freeInvocation → r.chute.discount.any (·.lt 1))
    (response : Response) (priceOverride : Option PriceOverride) :
    afterCharge settings r (answering r response priceOverride) =
      (if r.freeInvocation then r.part settings else 0, none) := by
  have hshutdown : (if r.isPrivate then (answering r response priceOverride).shutdownOwner
      else .ok none) = .ok none := ite_self _
  unfold afterCharge
  rw [countsQuota_answering h]
  dsimp only
  rw [hshutdown]
  simp [answering, Request.part]

theorem usage_answered (response : Response)
    (h : balanceUsed settings.rerollMultiplier r m (some 1) (quoted priceOverride) = .ok used) :
    ∃ invocation, usage settings r (answering r response priceOverride) m = .ok invocation ∧
      invocation.balanceUsed = used := by
  have hupdate : (answering r response priceOverride).update = .ok (some 1) := rfl
  have hquotes : (answering r response priceOverride).quotes = quoted priceOverride := rfl
  have howner : (answering r response priceOverride).chargeOwner = .ok (some r.chute.userId) := rfl
  unfold usage
  rw [hupdate, hquotes]
  -- of a private chute too nobody is credited: its owner is the one looked up
  by_cases hprivate : r.isPrivate
  · simp only [h, bind, Except.bind, if_pos hprivate, howner, Except.map]
    exact ⟨_, rfl, by simp⟩
  · simp only [h, bind, Except.bind, if_neg hprivate, pure, Except.pure]
    exact ⟨_, rfl, by simp⟩

/-- **The bill of an answer**, in a run that has none so far. -/
theorem attempts_answered (hcharges : s.charges = []) (hquota : s.quotaUsed = 0)
    (hone : (invokeOne r codec { instanceId := "i" } (.ok response) s.metrics).raised = none)
    (hcounts : SameCounts m
      (invokeOne r codec { instanceId := "i" } (.ok response) s.metrics).metrics)
    (hdiscount : r.freeInvocation → r.chute.discount.any (·.lt 1))
    (hused : balanceUsed settings.rerollMultiplier r m (some 1) (quoted priceOverride) = .ok used)
    (es : List Attempt) :
    (attempts settings codec r s (answering r response priceOverride :: es)).bill =
      (used, if r.freeInvocation then r.part settings else 0) := by
  obtain ⟨invocation, husage, hamount⟩ := usage_answered response hused
  have hterms : SameTerms r r := ⟨rfl, rfl, rfl⟩
  have husage' : usage settings r (answering r response priceOverride) _ = _ :=
    usage_of_sameTerms hterms hcounts (.inl rfl) (answering r response priceOverride)
  have hattempt := attempt_of_usage (s := s) (e := answering r response priceOverride) rfl rfl hone
    (husage'.trans husage)
  rw [attempts, hattempt, afterCharge_answered hdiscount]
  simp [State.bill, State.ship, State.stream, answering, hcharges, hquota, hamount]

/-- A price override for the request is the price, a re-roll or not. -/
theorem balanceUsed_overridden (hfree : r.freeInvocation = false) :
    balanceUsed settings.rerollMultiplier r r.metrics (some 1)
      (quoted (some { perRequest := some 1 })) = .ok 1 := by
  have hover : overridden r r.metrics 1 { perRequest := some 1 } = .ok (some 1) := by
    unfold overridden
    rw [if_neg (by simp)]
    split
    · next h => exact nomatch h
    · rfl
  simp [balanceUsed, hfree, quoted, hover, bind, Except.bind, pure, Except.pure]

theorem metrics_isSome (h : r.chute.standardTemplate = some .diffusion) : r.metrics.isSome := by
  simp [Request.metrics, h]

/-- Without one, there is a price unless the discount takes all of it. -/
theorem standardPrice_ne_zero (hdiscount : r.chute.discounted < 1)
    (hsome : r.metrics.isSome = m.isSome) :
    ∃ price, standardPrice r m 1 1 = .ok price ∧ price ≠ 0 := by
  have hless : (1 : ℚ) * computeUnitPriceBasis / 3600 -
      1 * computeUnitPriceBasis / 3600 * r.chute.discounted ≠ 0 := by
    have hbasis : (0 : ℚ) < 1 * computeUnitPriceBasis / 3600 := by
      norm_num [computeUnitPriceBasis]
    have hlt : 1 * computeUnitPriceBasis / 3600 * r.chute.discounted <
        1 * computeUnitPriceBasis / 3600 := mul_lt_of_lt_one_right hbasis hdiscount
    exact (sub_pos.2 hlt).ne'
  have hfinal (price : ℚ) : (if price = 0 then (1 : ℚ) * computeUnitPriceBasis / 3600 -
      1 * computeUnitPriceBasis / 3600 * r.chute.discounted else price) ≠ 0 := by
    split_ifs with h0
    · exact hless
    · exact h0
  unfold standardPrice
  rw [if_pos hdiscount]
  by_cases hllm : r.chute.standardTemplate = some .vllm ∧ m.isSome
  · rw [if_pos hllm]
    exact ⟨_, rfl, hfinal _⟩
  · rw [if_neg hllm]
    by_cases hdiffusion : r.chute.standardTemplate = some .diffusion
    · have hnone : m.isNone = false := by
        rw [← Option.not_isSome, ← hsome, metrics_isSome hdiffusion, Bool.not_true]
      rw [if_pos hdiffusion, hnone]
      exact ⟨_, rfl, hfinal _⟩
    · rw [if_neg hdiffusion]
      exact ⟨_, rfl, hfinal _⟩

theorem balanceUsed_answered (hfree : r.freeInvocation = false) {price : ℚ}
    (hprice : standardPrice r m 1 1 = .ok price) :
    balanceUsed settings.rerollMultiplier r m (some 1) (quoted none) =
      .ok (price * r.part settings) := by
  by_cases hreroll : r.reroll <;> by_cases hzero : price * settings.rerollMultiplier = 0 <;>
    by_cases h0 : price = 0 <;>
    simp_all [balanceUsed, quoted, Request.part, bind, Except.bind, pure, Except.pure]

/-- What is free is not priced. -/
theorem balanceUsed_free (hfree : r.freeInvocation = true) :
    balanceUsed settings.rerollMultiplier r m (some 1) (quoted priceOverride) = .ok 0 := by
  simp [balanceUsed, hfree, pure, Except.pure]

/-- The bill of the answer, if there is one instance. -/
theorem bill_answered (h : ¬r.Starved)
    (hdiscount : r.freeInvocation → r.chute.discount.any (·.lt 1))
    (hused : balanceUsed settings.rerollMultiplier r r.metrics (some 1) (quoted priceOverride) =
      .ok used) :
    bill settings plainCodec (.ok r) (once (answering r (answer none) priceOverride)) =
      (used, if r.freeInvocation then r.part settings else 0) := by
  obtain ⟨hone, hcounts⟩ := invokeOne_answer h { instanceId := "i" }
  unfold bill invoke
  rw [List.ofFn_succ]
  exact attempts_answered rfl rfl hone hcounts hdiscount hused _

end Invoke

end ChutesApi
