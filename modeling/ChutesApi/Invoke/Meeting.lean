import ChutesApi.Invoke.Answered
import Mathlib.Tactic.Linarith
/-!
# Where the counts of two modes meet

The two modes of a call have estimates of the prompt of their own. A stream
is counted by its estimate or less, a plain answer by up to ten times what
the attempt before it left, and what is no path of a language model stays at
its estimate. `Request.CountsMeet` has the requests that instances can bring
to the same count: no answer counts the others alike (`not_sameCounts`), and
these have answers that do (`exists_sameCounts`).
-/

namespace ChutesApi

namespace Invoke

open Python

variable {settings : Settings} {codec : Codec} {r r' : Request} {s s' : State}

/-- **The counts can meet**, of a stream and of a request that is none. -/
def Request.CountsMeet (r r' : Request) : Prop :=
  r.chute.standardTemplate = some .vllm → r.completions →
    r.promptTokens = r'.promptTokens ∨
    r.isLlm ∧ r'.promptTokens < r.promptTokens ∨
    r'.isLlm ∧ 0 < r.promptTokens ∧ r.promptTokens ≤ 10 ^ 5 * r'.promptTokens

/-! ## What an attempt makes of a count -/

/-- The count of a stream. -/
structure StreamCount (r : Request) (x : LlmMetrics) : Prop where
  nonneg : 0 ≤ x.it
  le : x.it ≤ r.promptTokens
  uncounted : r.isLlm = false → x.it = r.promptTokens

/-- The count of a request that is none, with so many attempts left. -/
structure PlainCount (r : Request) (n : ℕ) (x : LlmMetrics) : Prop where
  le : x.it * 10 ^ n ≤ 10 ^ 5 * r.promptTokens
  ne : r.promptTokens ≠ 0 → x.it ≠ 0
  uncounted : r.isLlm = false → x.it = r.promptTokens

theorem LlmMetrics.rates_it (m : LlmMetrics) (response : Response) :
    (m.rates response).1.it = m.it ∧ (m.rates response).1.ot = m.ot := by
  unfold LlmMetrics.rates
  split
  · exact ⟨rfl, rfl⟩
  · dsimp only
    split <;> exact ⟨rfl, rfl⟩

theorem streamedTokens_le (codec : Codec) (lastChunk : Option String) (prompt completion : ℚ) :
    (streamedTokens codec lastChunk prompt completion).1 ≤ prompt := by
  have hchecked (claimed : ℚ) (usage : Claim) :
      (checkedTokens claimed prompt completion usage).1 ≤ prompt := by
    have hprompt : (if claimed > prompt * 10 then prompt else min claimed prompt) ≤ prompt := by
      split_ifs
      · exact le_rfl
      · exact min_le_right _ _
    unfold checkedTokens
    dsimp only
    split <;> exact hprompt
  unfold streamedTokens
  split
  · exact le_rfl
  · split
    · exact le_rfl
    · dsimp only
      split
      · split
        · exact hchecked _ _
        · exact le_rfl
      · exact le_rfl

theorem accountStream_count {t : Sending} {x : LlmMetrics} (h : t.metrics = some (.llm x))
    (hx : StreamCount r x) (codec : Codec) (response : Response) :
    ∃ y, (accountStream r codec response t).1 = some (.llm y) ∧ StreamCount r y := by
  unfold accountStream
  rw [h]
  dsimp only
  split_ifs with hllm hchunks hit
  · exact ⟨x, rfl, hx⟩
  · exact ⟨x, rfl, hx⟩
  · exact ⟨x, rfl, hx⟩
  · refine ⟨_, rfl, ?_⟩
    have hle := streamedTokens_le codec t.lastChunk x.it x.tokens
    generalize streamedTokens codec t.lastChunk x.it x.tokens = tokens at hle
    have heq := (LlmMetrics.rates_it
      { x with it := max 0 tokens.1, ot := max 0 tokens.2 } response).1
    refine ⟨?_, ?_, fun hfalse => ?_⟩
    · rw [heq]
      exact le_max_left _ _
    · rw [heq]
      exact max_le (hx.nonneg.trans hx.le) (hle.trans hx.le)
    · simp [hfalse] at hllm

/-- **A stream is counted by its estimate or less.** -/
theorem invokeOne_streamCount (hstream : r.stream) {x : LlmMetrics} (hx : StreamCount r x)
    (target : Target) (post : Except Failure Response) :
    ∃ y, (invokeOne r codec target post (some (.llm x))).metrics = some (.llm y) ∧
      StreamCount r y := by
  unfold invokeOne
  cases post with
  | error f => exact ⟨x, rfl, hx⟩
  | ok response =>
    dsimp only
    cases checkStatus target response with
    | some f => exact ⟨x, rfl, hx⟩
    | none =>
      dsimp only
      rw [if_pos hstream]
      obtain ⟨y, hy, hit⟩ := receiveAll_it r codec (t := { metrics := some (.llm x) }) rfl
        response.chunks
      have hcount : StreamCount r y :=
        ⟨hit ▸ hx.nonneg, hit ▸ hx.le, fun h => hit.trans (hx.uncounted h)⟩
      rcases hall : receiveAll r codec { metrics := some (.llm x) } response.chunks with ⟨t, _ | f⟩
      · rw [hall] at hy
        cases response.broken with
        | some f => exact ⟨y, hy, hcount⟩
        | none => exact accountStream_count hy hcount codec response
      · rw [hall] at hy
        exact ⟨y, hy, hcount⟩

/-- What a claim counts for is not zero. -/
theorem Claim.tokens_ne_zero {claim : Claim} {q : ℚ} (h : claim.tokens = .ok (some q)) : q ≠ 0 := by
  unfold Claim.tokens at h
  cases claim with
  | number p =>
    dsimp only at h
    by_cases hp : p = 0
    · rw [if_pos hp] at h
      exact nomatch h
    · rw [if_neg hp] at h
      obtain rfl := Option.some.inj (Except.ok.inj h)
      exact hp
  | _ => exact nomatch h

theorem plainTokens_prompt {field : UsageField} {prompt completion : ℚ} {counts : ℚ × ℚ}
    (h : plainTokens field prompt completion = .ok counts) :
    counts.1 = prompt ∨ counts.1 ≠ 0 ∧ counts.1 ≤ prompt * 10 := by
  cases field with
  | absent =>
    obtain rfl := Except.ok.inj h
    exact .inl rfl
  | malformed => exact nomatch h
  | object usage =>
    obtain ⟨claimed, -, h⟩ := bind_eq_ok.1 h
    obtain ⟨claim, hclaim, h⟩ := bind_eq_ok.1 h
    rw [← return_eq_ok.1 h]
    cases claim with
    | none => exact .inl rfl
    | some q =>
      dsimp only [believed]
      split_ifs with hq
      · exact .inl rfl
      · exact .inr ⟨Claim.tokens_ne_zero hclaim, not_lt.1 hq⟩

/-- What an attempt may make of a count is within the bound of the next. -/
theorem PlainCount.le_next {n : ℕ} {x : LlmMetrics} (hx : PlainCount r (n + 1) x) {q : ℚ}
    (hq : q = x.it ∨ q ≤ x.it * 10) : q * 10 ^ n ≤ 10 ^ 5 * r.promptTokens := by
  have hpow : (0 : ℚ) ≤ 10 ^ n := by positivity
  have hbound := hx.le
  rw [pow_succ] at hbound
  rcases hq with rfl | hq
  · rcases le_or_gt 0 x.it with hpos | hneg
    · nlinarith [mul_nonneg hpos hpow]
    · exact (mul_nonpos_of_nonpos_of_nonneg hneg.le hpow).trans (by positivity)
  · nlinarith [mul_le_mul_of_nonneg_right hq hpow]

theorem PlainCount.next {n : ℕ} {x : LlmMetrics} (hx : PlainCount r (n + 1) x) :
    PlainCount r n x := ⟨hx.le_next (.inl rfl), hx.ne, hx.uncounted⟩

theorem accountPlain_count (htemplate : r.chute.standardTemplate = some .vllm) {n : ℕ}
    {x : LlmMetrics} (hx : PlainCount r (n + 1) x) (target : Target) (response : Response)
    (body : Body) :
    ∃ y, (accountPlain r target response body (some (.llm x))).1 = some (.llm y) ∧
      PlainCount r n y := by
  unfold accountPlain
  by_cases hllm : r.isLlm
  · rw [if_pos hllm]
    cases body.json with
    | none => exact ⟨x, rfl, hx.next⟩
    | some answer =>
      dsimp only
      by_cases hit : x.it = 0
      · rw [if_pos hit]
        exact ⟨x, rfl, hx.next⟩
      · rw [if_neg hit]
        cases hcounts : plainTokens answer.usage x.it answer.outputTokens with
        | error f => exact ⟨x, rfl, hx.next⟩
        | ok counts =>
          have heq := (LlmMetrics.rates_it
            { x with tokens := counts.2, it := counts.1, ot := counts.2 } response).1
          refine ⟨_, rfl, ?_, fun _ => ?_, fun hfalse => ?_⟩
          · rw [heq]
            exact hx.le_next ((plainTokens_prompt hcounts).imp_right And.right)
          · rw [heq]
            rcases plainTokens_prompt hcounts with h | h
            · exact h ▸ hit
            · exact h.1
          · simp [hfalse] at hllm
  · rw [if_neg hllm, if_neg (by simp [htemplate])]
    exact ⟨x, rfl, hx.next⟩

/-- **A plain answer is counted by up to ten times what was there.** -/
theorem invokeOne_plainCount (hstream : ¬r.stream)
    (htemplate : r.chute.standardTemplate = some .vllm) {n : ℕ} {x : LlmMetrics}
    (hx : PlainCount r (n + 1) x) (target : Target) (post : Except Failure Response) :
    ∃ y, (invokeOne r codec target post (some (.llm x))).metrics = some (.llm y) ∧
      PlainCount r n y := by
  unfold invokeOne
  cases post with
  | error f => exact ⟨x, rfl, hx.next⟩
  | ok response =>
    dsimp only
    cases checkStatus target response with
    | some f => exact ⟨x, rfl, hx.next⟩
    | none =>
      dsimp only
      rw [if_neg hstream]
      cases response.body with
      | error f => exact ⟨x, rfl, hx.next⟩
      | ok body =>
        obtain ⟨y, hy, hcount⟩ := accountPlain_count htemplate hx target response body
        dsimp only
        rcases haccount : accountPlain r target response body (some (.llm x)) with ⟨metrics, _ | f⟩
        · rw [haccount] at hy
          exact ⟨y, hy, hcount⟩
        · rw [haccount] at hy
          exact ⟨y, hy, hcount⟩

/-! ## Counts that never meet -/

/-- The counts of two modes, with so many attempts left. -/
def Counted (r r' : Request) (n : ℕ) (m m' : Option Metrics) : Prop :=
  ∃ x x', m = some (.llm x) ∧ m' = some (.llm x') ∧ StreamCount r x ∧ PlainCount r' n x'

theorem metrics_of_completions (htemplate : r.chute.standardTemplate = some .vllm)
    (hcompletions : r.completions) : r.metrics = some (.llm { it := r.promptTokens }) := by
  simp [Request.metrics, htemplate, hcompletions]

/-- Five attempts are left at first. -/
theorem counted_start (hchute : r'.chute = r.chute) (hsame : r'.completions = r.completions)
    (htemplate : r.chute.standardTemplate = some .vllm) (hcompletions : r.completions) :
    Counted r r' 5 r.start.metrics r'.start.metrics := by
  refine ⟨_, _, metrics_of_completions htemplate hcompletions,
    metrics_of_completions (hchute ▸ htemplate) (hsame ▸ hcompletions), ⟨?_, le_rfl, fun _ => rfl⟩,
    ⟨?_, fun h => Nat.cast_ne_zero.2 h, fun _ => rfl⟩⟩
  · exact Nat.cast_nonneg _
  · rw [mul_comm]

theorem Counted.invokeOne (hstream : r.stream) (hstream' : ¬r'.stream)
    (htemplate : r'.chute.standardTemplate = some .vllm) {n : ℕ} {m m' : Option Metrics}
    (h : Counted r r' (n + 1) m m') (target : Target) (post post' : Except Failure Response) :
    Counted r r' n (invokeOne r codec target post m).metrics
      (invokeOne r' codec target post' m').metrics := by
  obtain ⟨x, x', rfl, rfl, hx, hx'⟩ := h
  obtain ⟨y, hy, hcount⟩ := invokeOne_streamCount hstream hx target post
  obtain ⟨y', hy', hcount'⟩ := invokeOne_plainCount hstream' htemplate hx' target post'
  exact ⟨y, y', hy, hy', hcount, hcount'⟩

/-- **Counts that cannot meet are never the same.** -/
theorem Counted.not_sameCounts (hstarved : ¬r.Starved) (hstream : r.stream)
    (hmeet : ¬r.CountsMeet r') {n : ℕ} {m m' : Option Metrics} (h : Counted r r' n m m') :
    ¬SameCounts m m' := by
  rintro ⟨-, htokens, -⟩
  obtain ⟨x, x', rfl, rfl, hx, hx'⟩ := h
  unfold Request.CountsMeet at hmeet
  push Not at hmeet
  obtain ⟨-, hcompletions, hne, hless, hmore⟩ := hmeet
  have hit : x.it = x'.it := congrArg Prod.fst htokens
  by_cases hllm : r.isLlm
  · have hpos : 0 < r.promptTokens :=
      Nat.pos_of_ne_zero fun h0 => hstarved ⟨hstream, hllm, hcompletions, h0⟩
    have hlt : r.promptTokens < r'.promptTokens := lt_of_le_of_ne (hless hllm) hne
    have hother : r'.isLlm = false := by
      by_contra hnot
      have := hmore (by simpa using hnot) hpos
      omega
    have hle := hx.le
    rw [hit, hx'.uncounted hother, Nat.cast_le] at hle
    omega
  · have heq : x'.it = r.promptTokens := hit ▸ hx.uncounted (by simpa using hllm)
    by_cases hllm' : r'.isLlm
    · rcases Nat.eq_zero_or_pos r.promptTokens with h0 | hpos
      · exact hx'.ne (fun h0' => hne (h0.trans h0'.symm)) (by rw [heq, h0, Nat.cast_zero])
      · have hbound := hx'.le
        have hone : (1 : ℚ) ≤ 10 ^ n := one_le_pow₀ (by norm_num)
        have hgt : (10 : ℚ) ^ 5 * r'.promptTokens < r.promptTokens := by
          exact_mod_cast hmore hllm' hpos
        rw [heq] at hbound
        have := le_mul_of_one_le_right (Nat.cast_nonneg (α := ℚ) r.promptTokens) hone
        linarith
    · rw [hx'.uncounted (by simpa using hllm'), Nat.cast_inj] at heq
      exact hne heq.symm

/-! ## Answers that bring the counts together -/

/-- Billed by these counts. -/
def BilledBy (settings : Settings) (r : Request) (m : Option Metrics) (bill : ℚ × ℚ) : Prop :=
  ∀ used, balanceUsed settings.rerollMultiplier r m (some 1) (quoted none) = .ok used →
    bill = (used, if r.freeInvocation then r.part settings else 0)

/-- **Answers that count for the same** in both runs, each of which is billed
by them. -/
structure Meeting (settings : Settings) (codec : Codec) (r r' : Request) (s s' : State)
    (es : List (Attempt × Attempt)) : Prop where
  same : SameUpstream settings codec r r' s s' es
  billed : ∃ m m', r.metrics.isSome = m.isSome ∧ SameCounts m m' ∧
    BilledBy settings r m (attempts settings codec r s (es.map Prod.fst)).bill ∧
    BilledBy settings r' m' (attempts settings codec r' s' (es.map Prod.snd)).bill

/-- Nothing is charged so far. -/
structure Fresh (s : State) : Prop where
  charges : s.charges = []
  quotaUsed : s.quotaUsed = 0

/-- No instance is routed to. -/
def unrouted (e : Attempt) : Attempt := { e with target := .error none }

theorem sameUpstream_unrouted (e : Attempt) (n : ℕ) (s s' : State) :
    SameUpstream settings codec r r' s s' (List.replicate n (unrouted e, unrouted e)) := by
  induction n generalizing s s' with
  | zero => trivial
  | succ n ih =>
    refine ⟨⟨⟨_, rfl⟩, fun target htarget => ?_, fun target htarget => ?_⟩, ih _ _⟩
    · exact nomatch htarget
    · exact nomatch htarget

/-- An answer that raises leaves a run as fresh, and is followed by the next. -/
theorem Fresh.refused (settings : Settings) (hs : Fresh s) {response : Response} {message : String}
    (hone : (invokeOne r codec { instanceId := "i" } (.ok response) s.metrics).raised =
      some (.other message)) (owner : Request) :
    ∃ t, attempt settings codec r s (answering owner response none) = (t, .retry) ∧ Fresh t ∧
      t.metrics = (invokeOne r codec { instanceId := "i" } (.ok response) s.metrics).metrics := by
  refine ⟨_, attempt_of_raised (e := answering owner response none) rfl rfl hone, ?_, rfl⟩
  exact ⟨hs.charges, hs.quotaUsed⟩

section

variable (hterms : SameTerms r r') (hdiscount : r.freeInvocation → r.chute.discount.any (·.lt 1))
include hterms hdiscount

/-- One answer suffices, if it counts for the same at once. -/
theorem meeting_of_answer (hs : Fresh s) (hs' : Fresh s') {response : Response}
    (hone : (invokeOne r codec { instanceId := "i" } (.ok response) s.metrics).raised = none)
    (hone' : (invokeOne r' codec { instanceId := "i" } (.ok response) s'.metrics).raised = none)
    (hsome : r.metrics.isSome =
      (invokeOne r codec { instanceId := "i" } (.ok response) s.metrics).metrics.isSome)
    (hcounts : SameCounts (invokeOne r codec { instanceId := "i" } (.ok response) s.metrics).metrics
      (invokeOne r' codec { instanceId := "i" } (.ok response) s'.metrics).metrics) (n : ℕ) :
    Meeting settings codec r r' s s'
      ((answering r response none, answering r response none) ::
        List.replicate n (unrouted (answering r response none),
          unrouted (answering r response none))) := by
  have hanswering : answering r response none = answering r' response none := by
    unfold answering
    rw [hterms.chute]
  have hdiscount' : r'.freeInvocation → r'.chute.discount.any (·.lt 1) := by
    rw [hterms.free, hterms.chute]
    exact hdiscount
  refine ⟨⟨⟨⟨_, rfl⟩, fun target htarget => ?_, fun target htarget _ => ?_⟩,
    sameUpstream_unrouted _ _ _ _⟩, _, _, hsome, hcounts, fun used hused => ?_,
    fun used hused => ?_⟩
  · obtain rfl := Except.ok.inj htarget
    exact hone'.trans hone.symm
  · obtain rfl := Except.ok.inj htarget
    exact hcounts
  · exact attempts_answered hs.charges hs.quotaUsed hone (.refl _) hdiscount hused _
  · rw [List.map_cons, hanswering]
    exact attempts_answered hs'.charges hs'.quotaUsed hone' (.refl _) hdiscount' hused _

end

/-- An answer that both runs raise on is followed by the next. -/
theorem Meeting.refused {response : Response} {message : String}
    (hone : (invokeOne r codec { instanceId := "i" } (.ok response) s.metrics).raised =
      some (.other message))
    (hone' : (invokeOne r' codec { instanceId := "i" } (.ok response) s'.metrics).raised =
      some (.other message))
    (hs : Fresh s) (hs' : Fresh s') {n : ℕ}
    (hnext : ∀ t t' : State, Fresh t → Fresh t' →
      t.metrics = (invokeOne r codec { instanceId := "i" } (.ok response) s.metrics).metrics →
      t'.metrics = (invokeOne r' codec { instanceId := "i" } (.ok response) s'.metrics).metrics →
      ∃ es, es.length = n ∧ Meeting settings codec r r' t t' es) :
    ∃ es, es.length = n + 1 ∧ Meeting settings codec r r' s s' es := by
  obtain ⟨t, ht, hfresh, hm⟩ := hs.refused settings hone r
  obtain ⟨t', ht', hfresh', hm'⟩ := hs'.refused settings hone' r
  obtain ⟨es, hlength, hsame, m, m', hsome, hcounts, hbill, hbill'⟩ :=
    hnext t t' hfresh hfresh' hm hm'
  refine ⟨(answering r response none, answering r response none) :: es, by rw [List.length_cons,
    hlength], ⟨⟨⟨_, rfl⟩, fun target htarget => ?_, fun target htarget hnone => ?_⟩, ?_⟩,
    m, m', hsome, hcounts, ?_, ?_⟩
  · obtain rfl := Except.ok.inj htarget
    exact hone'.trans hone.symm
  · obtain rfl := Except.ok.inj htarget
    exact nomatch hone.symm.trans hnone
  · rw [ht, ht']
    exact hsame
  · rw [List.map_cons, attempts, ht]
    exact hbill
  · rw [List.map_cons, attempts, ht']
    exact hbill'

/-! ### From the plain answer's estimate to the stream's -/

/-- A usage that claims so many prompt tokens. -/
def claim (prompt : ℚ) : Answer := ⟨0, .object ⟨.number prompt, .null⟩⟩

/-- A claim that is believed, of an answer that raises in the end or not. -/
theorem accountPlain_claim (hllm : r.isLlm) {x : LlmMetrics} (hit : 0 < x.it) {prompt : ℚ}
    (hprompt : 0 < prompt) (hle : prompt ≤ x.it * 10) (target : Target) (response : Response)
    (htime : response.totalTime ≠ 0) {perf : Perf} (hperf : response.perf = .ok perf) :
    ∃ y, accountPlain r target response ⟨"", some (claim prompt)⟩ (some (.llm x)) =
      (some (.llm y), response.trackUsage) ∧ y.it = prompt ∧ y.ot = 0 := by
  have htokens : plainTokens (claim prompt).usage x.it (claim prompt).outputTokens =
      .ok (prompt, 0) := by
    simp [claim, plainTokens, Claim.tokens, believed, hprompt.ne', not_lt.2 hle, bind, Except.bind,
      pure, Except.pure]
  unfold accountPlain
  rw [if_pos hllm]
  dsimp only
  rw [if_neg hit.ne', htokens]
  simp [LlmMetrics.rates, htime, hperf]

/-- The instance answers with the claim, and then fails. -/
def failing (prompt : ℚ) : Response :=
  { answer (some (claim prompt)) with
    chunks := []
    broken := some (.other "broken")
    trackUsage := some (.other "broken") }

theorem checkStatus_failing (prompt : ℚ) (target : Target) :
    checkStatus target (failing prompt) = none := by simp [checkStatus, failing, answer]

/-- A stream of it leaves the metrics as they are. -/
theorem invokeOne_failing_stream (codec : Codec) (hstream : r.stream) (prompt : ℚ) (target : Target)
    (m : Option Metrics) :
    (invokeOne r codec target (.ok (failing prompt)) m).metrics = m ∧
      (invokeOne r codec target (.ok (failing prompt)) m).raised = some (.other "broken") := by
  simp [invokeOne, checkStatus, failing, answer, hstream, receiveAll]

/-- **A plain count comes to the stream's** in so many attempts, each of
which claims up to ten times what the one before left. -/
theorem exists_claims (settings : Settings) (hterms : SameTerms r r')
    (hdiscount : r.freeInvocation → r.chute.discount.any (·.lt 1)) (hstream : r.stream)
    (hstarved : ¬r.Starved) (hmetrics : r.metrics = some (.llm { it := r.promptTokens }))
    (hpos : 0 < r.promptTokens) (hstream' : ¬r'.stream) (hllm' : r'.isLlm) (n : ℕ) {x' : LlmMetrics}
    (hs : Fresh s) (hs' : Fresh s') (hm : s.metrics = r.metrics) (hm' : s'.metrics = some (.llm x'))
    (hit : 0 < x'.it) (hle : (r.promptTokens : ℚ) ≤ 10 ^ (n + 1) * x'.it) :
    ∃ es, es.length = n + 1 ∧ Meeting settings plainCodec r r' s s' es := by
  have hpos' : (0 : ℚ) < r.promptTokens := Nat.cast_pos.2 hpos
  induction n generalizing s s' x' with
  | zero =>
    -- the claim is the stream's estimate itself
    rw [zero_add, pow_one, mul_comm] at hle
    obtain ⟨hone, hcounts⟩ := invokeOne_answer_stream hstream hstarved { instanceId := "i" }
      (some (claim r.promptTokens))
    obtain ⟨y, haccount, hprompt, hcompletion⟩ := accountPlain_claim (x := x') hllm' hit hpos' hle
      { instanceId := "i" } (answer (some (claim r.promptTokens))) one_ne_zero rfl
    obtain ⟨hleft, hone'⟩ := invokeOne_plain plainCodec (some (.llm x')) hstream'
      (checkStatus_answer { instanceId := "i" } (some (claim r.promptTokens))) rfl
    rw [haccount] at hleft hone'
    have hcounts' : SameCounts r.metrics (some (.llm y)) := by
      rw [hmetrics]
      exact ⟨rfl, Prod.ext hprompt.symm hcompletion.symm, rfl⟩
    refine ⟨_, ?_, meeting_of_answer hterms hdiscount hs hs' (hm ▸ hone) (hm' ▸ hone') ?_ ?_ 0⟩
    · rfl
    · rw [hm]
      exact hcounts.1
    · rw [hm, hm', hleft]
      exact hcounts.symm.trans hcounts'
  | succ n ih =>
    have hclaim : 0 < min (x'.it * 10) r.promptTokens := lt_min (by linarith) hpos'
    obtain ⟨y, haccount, hprompt, -⟩ := accountPlain_claim (x := x') hllm' hit hclaim
      (min_le_left _ _) { instanceId := "i" } (failing (min (x'.it * 10) r.promptTokens))
      one_ne_zero rfl
    obtain ⟨hleft, hone'⟩ := invokeOne_plain plainCodec (some (.llm x')) hstream'
      (checkStatus_failing (min (x'.it * 10) r.promptTokens) { instanceId := "i" }) rfl
    rw [haccount] at hleft hone'
    obtain ⟨hkept, hone⟩ := invokeOne_failing_stream plainCodec hstream
      (min (x'.it * 10) r.promptTokens) { instanceId := "i" } r.metrics
    refine Meeting.refused (hm ▸ hone) (hm' ▸ hone') hs hs' fun t t' ht ht' htm htm' => ?_
    rw [hm, hkept] at htm
    rw [hm', hleft] at htm'
    refine ih ht ht' htm htm' (hprompt ▸ hclaim) ?_
    rw [hprompt]
    rcases min_cases (x'.it * 10) (r.promptTokens : ℚ) with ⟨hmin, -⟩ | ⟨hmin, -⟩
    · rw [hmin]
      rw [pow_succ] at hle
      linarith
    · rw [hmin]
      exact le_mul_of_one_le_left hpos'.le (one_le_pow₀ (by norm_num))

/-! ### From the stream's estimate to the plain request's -/

/-- Every chunk with a usage claims so many prompt tokens. -/
def claimingCodec (prompt : ℚ) : Codec where
  decode := some
  loads _ := some ⟨true, true, false, (claim prompt).usage⟩

theorem streamedTokens_claiming {claimed prompt : ℚ} (hclaimed : 0 ≤ claimed)
    (hle : claimed ≤ prompt) :
    streamedTokens (claimingCodec claimed) (some "data:\"usage\"") prompt 0 = (claimed, 0) := by
  have husage : contains "data:\"usage\"" "\"usage\"" = true := by decide
  have hbelieved : ¬prompt * 10 < claimed := by linarith
  simp [streamedTokens, husage, claimingCodec, claim, checkedTokens, hbelieved, hle]

/-- A stream is counted by the claim. -/
theorem invokeOne_claiming (hstream : r.stream) (hllm : r.isLlm)
    (hmetrics : r.metrics = some (.llm { it := r.promptTokens })) {claimed : ℕ}
    (hlt : claimed < r.promptTokens) (target : Target) :
    (invokeOne r (claimingCodec claimed) target (.ok (answer none)) r.metrics).raised = none ∧
      SameCounts (invokeOne r (claimingCodec claimed) target (.ok (answer none)) r.metrics).metrics
        (some (.llm { it := claimed })) := by
  have hpos : (r.promptTokens : ℚ) ≠ 0 := Nat.cast_ne_zero.2 (by omega)
  have htokens := streamedTokens_claiming (Nat.cast_nonneg claimed)
    (Nat.cast_le (α := ℚ).2 hlt.le)
  unfold invokeOne
  dsimp only
  rw [checkStatus_answer]
  dsimp only
  rw [if_pos hstream, claimingCodec, receiveAll_answer, hmetrics, ← claimingCodec]
  simp [accountStream, hllm, hpos, htokens, LlmMetrics.rates, answer, SameCounts, tokensOf, stepsOf]

/-! ### The answers -/

/-- The two requests of a call, but for the re-roll, the path and the
estimate. -/
structure SameCall (r r' : Request) : Prop extends SameTerms r r' where
  completions : r'.completions = r.completions
  steps : r'.steps = r.steps

/-- Their metrics are the same, but for the estimate. -/
theorem SameCall.metrics (h : SameCall r r') (hsame : r.chute.standardTemplate = some .vllm →
    r.completions → r.promptTokens = r'.promptTokens) : r'.metrics = r.metrics := by
  unfold Request.metrics
  rw [h.chute, h.completions, h.steps]
  split
  · next htemplate =>
    split_ifs with hcompletions
    · rw [hsame htemplate hcompletions]
    · rfl
  · rfl
  · rfl

/-- **Counts that can meet do**, by the answers of five instances. -/
theorem exists_meeting (settings : Settings) (hcall : SameCall r r')
    (hdiscount : r.freeInvocation → r.chute.discount.any (·.lt 1)) (hstream : r.stream)
    (hstarved : ¬r.Starved) (hstream' : ¬r'.stream) (hmeet : r.CountsMeet r') :
    ∃ codec es, es.length = 5 ∧ Meeting settings codec r r' r.start r'.start es := by
  have hfresh (req : Request) : Fresh req.start := ⟨rfl, rfl⟩
  have hequal (hmetrics : r'.metrics = r.metrics) :
      ∃ codec es, es.length = 5 ∧ Meeting settings codec r r' r.start r'.start es := by
    obtain ⟨hone, hcounts⟩ := invokeOne_answer hstarved { instanceId := "i" }
    obtain ⟨hone', hcounts'⟩ := invokeOne_answer_plain hstream' plainCodec { instanceId := "i" }
    have hfirst : SameCounts r.metrics r'.metrics := hmetrics ▸ .refl _
    exact ⟨plainCodec, _, rfl, meeting_of_answer hcall.toSameTerms hdiscount (hfresh r) (hfresh r')
      hone hone' hcounts.1 (hcounts.symm.trans (hfirst.trans hcounts')) 4⟩
  by_cases hllm : r.chute.standardTemplate = some .vllm ∧ r.completions
  · have hmetrics := metrics_of_completions hllm.1 hllm.2
    have hmetrics' : r'.metrics = some (.llm { it := r'.promptTokens }) :=
      metrics_of_completions (hcall.chute ▸ hllm.1) (hcall.completions ▸ hllm.2)
    rcases hmeet hllm.1 hllm.2 with heq | ⟨hcounted, hlt⟩ | ⟨hcounted, hpos, hle⟩
    · exact hequal (hcall.metrics fun _ _ => heq)
    · obtain ⟨hone, hcounts⟩ :=
        invokeOne_claiming hstream hcounted hmetrics hlt { instanceId := "i" }
      obtain ⟨hone', hcounts'⟩ := invokeOne_answer_plain hstream' (claimingCodec r'.promptTokens)
        { instanceId := "i" }
      have hsome := hcounts.1.symm
      rw [← hmetrics'] at hcounts
      exact ⟨_, _, rfl, meeting_of_answer hcall.toSameTerms hdiscount (hfresh r) (hfresh r') hone
        hone' (hmetrics ▸ hsome) (hcounts.trans hcounts') 4⟩
    · have hpos' : (0 : ℚ) < r'.promptTokens := Nat.cast_pos.2 (by omega)
      obtain ⟨es, hlength, hmeeting⟩ := exists_claims settings hcall.toSameTerms
        hdiscount hstream hstarved hmetrics hpos hstream' hcounted 4 (hfresh r) (hfresh r') rfl
        hmetrics' hpos' (show (r.promptTokens : ℚ) ≤ 10 ^ 5 * r'.promptTokens by exact_mod_cast hle)
      exact ⟨_, es, hlength, hmeeting⟩
  · exact hequal (hcall.metrics fun htemplate hcompletions => absurd ⟨htemplate, hcompletions⟩ hllm)

end Invoke

end ChutesApi
