import ChutesApi.Invoke.Meeting
import ChutesApi.Invoke.Model.Router
/-!
# The bill of the two modes

The same call is made with `stream` in its body and without, and the
instances answer with the same counts, where they can. What a re-roll costs
is decided by `invoke`, which only the branch for streamed and traced
requests tells of it: a re-roll that is not streamed is billed in full.
`bills_agree_iff` has the calls on which the bills agree whatever the
instances answer.
-/

namespace ChutesApi

namespace Invoke

open Python

variable (settings : Settings) (lib : Library)

/-- **Streaming does not change the bill**, whatever the instances answer. -/
def BillsAgree (c : Call) : Prop :=
  ∀ (codec : Codec) (env : Fin 5 → Attempt × Attempt),
    (∀ r r', c.route lib true = .ok r → c.route lib false = .ok r' →
      SameUpstream settings codec r r' r.start r'.start (List.ofFn env)) →
    bill settings codec (c.route lib true) (fun i => (env i).1) =
      bill settings codec (c.route lib false) (fun i => (env i).2)

/-! ## The two calls of `invoke` -/

section Calls

variable (c : Call) (stream : Bool)

def Call.isFree : Bool := (c.checkAccount lib).toOption.getD false

/-- What `invoke` is called with. -/
def Call.requestOf : Request :=
  let (cord, streams) := (c.selectCord stream).getD (⟨"", none, "POST", none⟩, stream)
  c.request lib (c.isFree lib) cord stream streams

/-- The call is not refused. -/
structure Call.Accepts : Prop where
  access : c.chute.isPublic || c.chute.userId = c.user.userId || c.isShared
  account : (c.checkAccount lib).toOption.isSome
  cord : (c.selectCord stream).isSome
  checks : (c.payload stream).checks = none
  available : c.available
  spams : !c.spams lib stream

/-- **The condition**: where both calls come through, a re-roll is traced, or
streamed without `stream`, or costs what another request does, or nothing is
billed anyway, or the counts cannot meet; and where only one does, it is not
billed. -/
structure Call.SameBill : Prop where
  both : c.Accepts lib true → c.Accepts lib false → c.reroll lib →
    c.includeTrace ∨ (c.requestOf lib false).stream ∨ settings.rerollMultiplier = 1 ∨
      (c.isFree lib ∧ ¬c.chute.discount.any (·.lt 1)) ∨ (c.requestOf lib true).Starved ∨
      ¬(c.requestOf lib true).CountsMeet (c.requestOf lib false)
  one : ∀ stream, c.Accepts lib stream → ¬c.Accepts lib (!stream) →
    (c.requestOf lib stream).Starved ∨ Costless settings (c.requestOf lib stream)

end Calls

variable {settings lib} {codec : Codec} {r r' : Request} {c : Call} {stream : Bool}

theorem route_eq_ok : c.route lib stream = .ok r ↔
    c.Accepts lib stream ∧ r = c.requestOf lib stream := by
  constructor
  · intro h
    obtain ⟨_, haccess, h⟩ := bind_eq_ok.1 h
    obtain ⟨free, haccount, h⟩ := bind_eq_ok.1 h
    have hfree : c.isFree lib = free := by simp [Call.isFree, haccount, Except.toOption]
    split at h
    · exact nomatch h
    · next cord streams hcord =>
      split at h
      · exact nomatch h
      · next hchecks =>
        obtain ⟨_, havailable, h⟩ := bind_eq_ok.1 h
        obtain ⟨_, hspams, h⟩ := bind_eq_ok.1 h
        refine ⟨⟨ensure_eq_ok.1 haccess, by simp [haccount, Except.toOption], by simp [hcord],
          hchecks, ensure_eq_ok.1 havailable, ensure_eq_ok.1 hspams⟩, ?_⟩
        rw [← return_eq_ok.1 h, Call.requestOf, hcord, hfree]
        rfl
  · rintro ⟨h, rfl⟩
    obtain ⟨⟨cord, streams⟩, hcord⟩ := Option.isSome_iff_exists.1 h.cord
    cases haccount : c.checkAccount lib with
    | error e => simpa [haccount, Except.toOption] using h.account
    | ok free =>
      have hfree : c.isFree lib = free := by simp [Call.isFree, haccount, Except.toOption]
      unfold Call.route
      rw [ensure_eq_ok (u := ()).2 h.access, haccount, hcord, h.checks,
        ensure_eq_ok (u := ()).2 h.available, ensure_eq_ok (u := ()).2 h.spams, Call.requestOf,
        hcord, hfree]
      rfl

theorem route_of_accepts (h : c.Accepts lib stream) :
    c.route lib stream = .ok (c.requestOf lib stream) :=
  route_eq_ok.2 ⟨h, rfl⟩

theorem route_of_refuses (h : ¬c.Accepts lib stream) : ∃ e, c.route lib stream = .error e := by
  cases hroute : c.route lib stream with
  | error e => exact ⟨e, rfl⟩
  | ok r => exact absurd (route_eq_ok.1 hroute).1 h

/-- What is not free has a discount below 1. -/
theorem discounted_lt_one (hfree : c.isFree lib = false) :
    c.chute.discounted < 1 := by
  have hne : c.chute.discount ≠ some (.finite 1) := by
    intro hone
    have hfree' : c.isFree lib = true := by
      simp [Call.isFree, Call.checkAccount, hone, Except.toOption]
    rw [hfree'] at hfree
    exact nomatch hfree
  unfold Chute.discounted
  split
  · next d hd =>
    split_ifs with hbounds
    · refine lt_of_le_of_ne hbounds.2.2 fun h1 => hne ?_
      rw [hd, h1]
    · exact one_pos
  · exact one_pos

theorem requestOf_sameCall (lib : Library) (c : Call) :
    SameCall (c.requestOf lib true) (c.requestOf lib false) := ⟨⟨rfl, rfl, rfl⟩, rfl, rfl⟩

/-- What asks for a stream gets one, and is told of a re-roll. -/
theorem requestOf_true (lib : Library) (c : Call) (h : c.Accepts lib true) :
    (c.requestOf lib true).stream = true ∧ (c.requestOf lib true).reroll = c.reroll lib := by
  obtain ⟨⟨cord, streams⟩, hcord⟩ := Option.isSome_iff_exists.1 h.cord
  have hstreams : streams = true := by
    unfold Call.selectCord at hcord
    obtain ⟨found, -, heq⟩ := Option.map_eq_some_iff.1 hcord
    rw [← (Prod.mk.inj heq).2, Bool.true_or]
  unfold Call.requestOf
  rw [hcord, hstreams]
  exact ⟨rfl, by simp [Call.request]⟩

theorem requestOf_reroll (lib : Library) (c : Call) (stream : Bool) :
    (c.requestOf lib stream).reroll =
      (((c.requestOf lib stream).stream || c.includeTrace) && c.reroll lib) := by
  unfold Call.requestOf Call.request
  dsimp only
  split_ifs with h
  · rw [h, Bool.true_and]
  · rw [Bool.not_eq_true] at h
    rw [h, Bool.false_and]

/-! ## Where the bills agree -/

/-- **What is neither starved nor costless** can be billed. -/
theorem bill_ne_zero (hr : ¬r.Starved) (hcost : ¬Costless settings r) :
    ∃ priceOverride,
      bill settings plainCodec (.ok r) (once (answering r (answer none) priceOverride)) ≠
        (0, 0) := by
  by_cases hfree : r.freeInvocation
  · have hdiscount : r.chute.discount.any (·.lt 1) := by
      by_contra hnot
      exact hcost ⟨hfree, .inl hnot⟩
    have hpart : r.part settings ≠ 0 := by
      unfold Request.part
      split_ifs with hreroll
      · exact fun h0 => hcost ⟨hfree, .inr ⟨hreroll, h0⟩⟩
      · exact one_ne_zero
    refine ⟨none, ?_⟩
    rw [bill_answered hr (fun _ => hdiscount) (balanceUsed_free hfree), if_pos hfree]
    exact fun h => hpart (Prod.mk.inj h).2
  · have hfalse : r.freeInvocation = false := by simpa using hfree
    refine ⟨some { perRequest := some 1 }, ?_⟩
    rw [bill_answered hr (fun h => absurd h hfree) (balanceUsed_overridden hfalse)]
    exact fun h => one_ne_zero (Prod.mk.inj h).1

/-- **Bills in lockstep.** -/
theorem bill_of_lockstep (inv : ℕ → Option Metrics → Option Metrics → Prop)
    (hkeep : ∀ n target post post' m m', inv (n + 1) m m' →
      inv n (invokeOne r codec target post m).metrics (invokeOne r' codec target post' m').metrics)
    (hcost : ∀ n e target post' m m', inv (n + 1) m m' →
      (invokeOne r codec target e.post m).raised = none →
      SameCounts (invokeOne r codec target e.post m).metrics
          (invokeOne r' codec target post' m').metrics →
        usage settings r' e (invokeOne r' codec target post' m').metrics =
            usage settings r e (invokeOne r codec target e.post m).metrics ∧
          afterCharge settings r' e = afterCharge settings r e)
    (hinv : inv 5 r.start.metrics r'.start.metrics) {env : Fin 5 → Attempt × Attempt}
    (hsame : SameUpstream settings codec r r' r.start r'.start (List.ofFn env)) :
    bill settings codec (.ok r) (fun i => (env i).1) =
      bill settings codec (.ok r') (fun i => (env i).2) := by
  have hstart : Lockstep r.start r'.start := ⟨rfl, rfl, rfl⟩
  have hfive : inv (List.ofFn env).length r.start.metrics r'.start.metrics := by
    rw [List.length_ofFn]
    exact hinv
  have hrun := hstart.attempts inv hkeep hcost (List.ofFn env) hfive hsame
  rw [List.map_ofFn, List.map_ofFn] at hrun
  exact Prod.ext (congrArg (fun charges => (charges.map fun c => c.2.balanceUsed).sum)
    hrun.charges.symm) hrun.quotaUsed.symm

/-- A call that only one mode comes through with is billed in one. -/
theorem bill_of_one (hsame : ∀ stream, c.Accepts lib stream → ¬c.Accepts lib (!stream) →
      (c.requestOf lib stream).Starved ∨ Costless settings (c.requestOf lib stream))
    (haccepts : c.Accepts lib stream) (hrefuses : ¬c.Accepts lib (!stream))
    (env env' : Fin 5 → Attempt) :
    bill settings codec (c.route lib stream) env =
      bill settings codec (c.route lib (!stream)) env' := by
  obtain ⟨e, he⟩ := route_of_refuses hrefuses
  rw [he, route_of_accepts haccepts]
  rcases hsame stream haccepts hrefuses with h | h
  · exact bill_of_starved h env
  · exact bill_of_costless h env

/-- Where both come through, with another request of the same call. -/
theorem bill_of_both (hcall : SameCall r r') (hstream : r.stream)
    (hsame : r.Starved ∨ ¬r'.stream ∧ ¬r.CountsMeet r' ∨ r'.reroll = r.reroll ∨
      settings.rerollMultiplier = 1 ∨ r.freeInvocation ∧ ¬r.chute.discount.any (·.lt 1))
    {env : Fin 5 → Attempt × Attempt}
    (hupstream : SameUpstream settings codec r r' r.start r'.start (List.ofFn env)) :
    bill settings codec (.ok r) (fun i => (env i).1) =
      bill settings codec (.ok r') (fun i => (env i).2) := by
  have hterms := hcall.toSameTerms
  by_cases hstarved : r.Starved
  · exact bill_of_lockstep (fun _ m _ => NoEstimate m)
      (fun n target post _ m _ hm => (invokeOne_starved hstarved hm target post).1)
      (fun n e target _ m _ hm hone => absurd hone (invokeOne_starved hstarved hm target e.post).2)
      hstarved.start hupstream
  · rcases hsame.resolve_left hstarved with ⟨hstream', hmeet⟩ | h
    · have hvllm := hmeet
      unfold Request.CountsMeet at hvllm
      push Not at hvllm
      obtain ⟨htemplate, hcompletions, -⟩ := hvllm
      have hkeep (n : ℕ) (target : Target) (post post' : Except Failure Response)
          (m m' : Option Metrics) (h : Counted r r' (n + 1) m m') :
          Counted r r' n (invokeOne r codec target post m).metrics
            (invokeOne r' codec target post' m').metrics :=
        h.invokeOne hstream hstream' (hcall.chute ▸ htemplate) target post post'
      exact bill_of_lockstep (Counted r r') hkeep
        (fun n e target post' m m' h _ hcounts => absurd hcounts
          ((hkeep n target e.post post' m m' h).not_sameCounts hstarved hstream hmeet))
        (counted_start hcall.chute hcall.completions htemplate hcompletions) hupstream
    · refine bill_of_lockstep (fun _ _ _ => True) (fun _ _ _ _ _ _ _ => trivial)
        (fun n e target post' m m' _ _ hcounts => ⟨?_, ?_⟩) trivial hupstream
      · exact usage_of_sameTerms hterms hcounts (h.imp_right (Or.imp_right And.left)) e
      · exact afterCharge_of_sameTerms hterms
          (h.imp_right (Or.imp_right fun hfree hmay => hfree.2 hmay.2)) e

/-- **Where a re-roll costs less in one run**, the two are billed differently
by counts that are the same. -/
theorem Meeting.bill_ne {s s' : State} {es : List (Attempt × Attempt)}
    (h : Meeting settings codec r r' s s' es) (hterms : SameTerms r r') (hreroll : r.reroll = true)
    (hreroll' : r'.reroll = false) (hmultiplier : settings.rerollMultiplier ≠ 1)
    (hpaid : r.freeInvocation = false → r.chute.discounted < 1) :
    (attempts settings codec r s (es.map Prod.fst)).bill ≠
      (attempts settings codec r' s' (es.map Prod.snd)).bill := by
  obtain ⟨-, m, m', hsome, hcounts, hbill, hbill'⟩ := h
  have hpart : r.part settings = settings.rerollMultiplier := if_pos hreroll
  have hpart' : r'.part settings = 1 := by
    rw [Request.part, hreroll']
    rfl
  cases hf : r.freeInvocation with
  | true =>
    have hf' : r'.freeInvocation = true := hterms.free.trans hf
    rw [hbill 0 (balanceUsed_free hf), hbill' 0 (balanceUsed_free hf'), if_pos hf, if_pos hf',
      hpart, hpart']
    exact fun h => hmultiplier (Prod.mk.inj h).2
  | false =>
    have hf' : r'.freeInvocation = false := hterms.free.trans hf
    obtain ⟨price, hprice, hne⟩ := standardPrice_ne_zero (hpaid hf) hsome
    have hprice' : standardPrice r' m' 1 1 = .ok price := by
      rw [← hprice, standardPrice_of_sameTerms hterms hcounts]
    rw [hbill _ (balanceUsed_answered hf hprice), hbill' _ (balanceUsed_answered hf' hprice'),
      hpart, hpart']
    intro h
    exact hmultiplier (mul_left_cancel₀ hne (Prod.mk.inj h).1)

/-- Five attempts are those of an environment. -/
theorem exists_ofFn {α : Type*} {n : ℕ} {es : List α} (h : es.length = n) :
    ∃ env : Fin n → α, List.ofFn env = es := by
  subst h
  exact ⟨es.get, List.ofFn_get es⟩

/-- **A re-roll that only the stream is told of** is billed differently. -/
theorem not_billsAgree_of_reroll (htrue : c.Accepts lib true) (hfalse : c.Accepts lib false)
    (hreroll : c.reroll lib) (htrace : ¬c.includeTrace)
    (hstream : ¬(c.requestOf lib false).stream) (hmultiplier : settings.rerollMultiplier ≠ 1)
    (hfree : c.isFree lib → c.chute.discount.any (·.lt 1))
    (hstarved : ¬(c.requestOf lib true).Starved)
    (hmeet : (c.requestOf lib true).CountsMeet (c.requestOf lib false)) :
    ¬BillsAgree settings lib c := by
  intro hagree
  have hcall := requestOf_sameCall lib c
  obtain ⟨hstreams, hroll⟩ := requestOf_true lib c htrue
  have hroll' : (c.requestOf lib false).reroll = false := by
    rw [requestOf_reroll]
    simp [hstream, htrace]
  obtain ⟨codec, es, hlength, hmeeting⟩ := exists_meeting settings hcall hfree
    hstreams hstarved hstream hmeet
  obtain ⟨env, rfl⟩ := exists_ofFn hlength
  have hbill := hagree codec env fun r r' hr hr' => by
    obtain ⟨-, rfl⟩ := route_eq_ok.1 hr
    obtain ⟨-, rfl⟩ := route_eq_ok.1 hr'
    exact hmeeting.same
  have hne := hmeeting.bill_ne hcall.toSameTerms (hroll.trans hreroll) hroll' hmultiplier
    discounted_lt_one
  rw [List.map_ofFn, List.map_ofFn] at hne
  rw [route_of_accepts htrue, route_of_accepts hfalse] at hbill
  exact hne hbill

/-- A prompt the user has sent before. -/
def repeated : Call where
  chute := ⟨"c", "o", "demo", true, some .vllm, none, some (.finite 0), 1800000000⟩
  cords := [⟨"chat_stream", some "/v1/chat/completions", "POST", some true⟩,
    ⟨"chat", some "/v1/chat/completions", "POST", some false⟩]
  user := { userId := "u" }
  isShared := false
  freeInvocation := false
  quota := 0
  requestCount := 0
  chutesUserId := none
  effectiveBalance := 1
  urlPath := "/v1/chat/completions"
  method := "POST"
  includeTrace := false
  payload _ := ⟨"", none⟩
  promptDump := some "user: hello"
  promptTokens stream := if stream then 21 else 10
  steps := 0
  available := true
  memcache _ := some 1
  down _ := false

end Invoke

end ChutesApi
