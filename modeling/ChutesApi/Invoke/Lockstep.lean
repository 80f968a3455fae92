import ChutesApi.Invoke.Model.Retry
import ChutesApi.Python.Exc
import Mathlib.Algebra.BigOperators.Group.List.Basic
/-!
# Two runs in lockstep

Two requests for the same chute, by the same user, run against instances
that answer both with the same counts. As long as what is answered costs
the same, the two runs ship the same usage and count the same against the
quota (`Lockstep.attempts`), whatever else differs between them; and a run
whose answers cost nothing bills nothing (`Unbilled.attempts`).
-/

namespace ChutesApi

namespace Invoke

open Python

variable (settings : Settings) (codec : Codec)

/-! ## Two runs -/

/-- The counts that are billed. -/
def SameCounts (m m' : Option Metrics) : Prop :=
  m.isSome = m'.isSome ∧ tokensOf m = tokensOf m' ∧ stepsOf m = stepsOf m'

theorem SameCounts.refl (m : Option Metrics) : SameCounts m m := ⟨rfl, rfl, rfl⟩

theorem SameCounts.symm {m m' : Option Metrics} (h : SameCounts m m') : SameCounts m' m :=
  ⟨h.1.symm, h.2.1.symm, h.2.2.symm⟩

theorem SameCounts.trans {m m' m'' : Option Metrics} (h : SameCounts m m')
    (h' : SameCounts m' m'') : SameCounts m m'' :=
  ⟨h.1.trans h'.1, h.2.1.trans h'.2.1, h.2.2.trans h'.2.2⟩

/-- **The same answer** to both requests: all else is the same, it raises
the same, and it comes to the same counts if it raises nothing. -/
structure SameAnswer (r r' : Request) (e e' : Attempt) (m m' : Option Metrics) : Prop where
  rest : ∃ post, e' = { e with post }
  raised : ∀ target, e.target = .ok target →
    (invokeOne r' codec target e'.post m').raised = (invokeOne r codec target e.post m).raised
  counts : ∀ target, e.target = .ok target → (invokeOne r codec target e.post m).raised = none →
    SameCounts (invokeOne r codec target e.post m).metrics
      (invokeOne r' codec target e'.post m').metrics

/-- Every attempt gets the same answer in both runs. -/
def SameUpstream (r r' : Request) (s s' : State) : List (Attempt × Attempt) → Prop
  | [] => True
  | (e, e') :: es =>
    SameAnswer codec r r' e e' s.metrics s'.metrics ∧
      SameUpstream r r' (attempt settings codec r s e).1 (attempt settings codec r' s' e').1 es

/-- What the balance is charged, and what is counted against the quota. -/
def State.bill (s : State) : ℚ × ℚ := ((s.charges.map fun c => c.2.balanceUsed).sum, s.quotaUsed)

/-- **The bill**. A request that is refused costs nothing. -/
def bill (routed : Except Exc Request) (env : Fin 5 → Attempt) : ℚ × ℚ :=
  match routed with
  | .error _ => (0, 0)
  | .ok req => (invoke settings codec req env).bill

variable {settings codec} {r r' : Request} {s s' : State} {e e' : Attempt} {m m' : Option Metrics}

/-! ## The terms of a request -/

/-- The two requests of a call, but for the re-roll. -/
structure SameTerms (r r' : Request) : Prop where
  chute : r'.chute = r.chute
  userId : r'.userId = r.userId
  free : r'.freeInvocation = r.freeInvocation

theorem SameTerms.isPrivate (hterms : SameTerms r r') : r'.isPrivate = r.isPrivate := by
  unfold Request.isPrivate
  rw [hterms.chute]

theorem standardPrice_of_sameTerms (hterms : SameTerms r r') (hcounts : SameCounts m m') :
    standardPrice r' m' = standardPrice r m := by
  obtain ⟨hsome, htokens, hsteps⟩ := hcounts
  have hnone : m.isNone = m'.isNone := by rw [← Option.not_isSome, hsome, Option.not_isSome]
  funext units hourly
  simp only [standardPrice, tokenPrice, hterms.chute, ← hsome, ← htokens, ← hsteps, ← hnone]

/-- The same counts cost the same, if a re-roll costs the same. -/
theorem balanceUsed_of_sameTerms (hterms : SameTerms r r') (hcounts : SameCounts m m')
    (hreroll : r'.reroll = r.reroll ∨ settings.rerollMultiplier = 1 ∨ r.freeInvocation)
    (computeUnits : Option ℚ) (quotes : Quotes) :
    balanceUsed settings.rerollMultiplier r' m' computeUnits quotes =
      balanceUsed settings.rerollMultiplier r m computeUnits quotes := by
  have hstandard := standardPrice_of_sameTerms hterms hcounts
  obtain ⟨hsome, htokens, hsteps⟩ := hcounts
  have hnone : m.isNone = m'.isNone := by rw [← Option.not_isSome, hsome, Option.not_isSome]
  have hover : overridden r' m' = overridden r m := by
    funext hourly price
    simp only [overridden, tokenPrice, hterms.chute, ← hsome, ← htokens, ← hsteps,
      ← hnone]
  unfold balanceUsed
  rw [hover, hstandard, hterms.free]
  rcases hreroll with h | h | h
  · rw [h]
  · simp only [h, mul_one, ite_self]
  · simp only [h, or_true, if_true]

theorem usage_of_sameTerms (hterms : SameTerms r r') (hcounts : SameCounts m m')
    (hreroll : r'.reroll = r.reroll ∨ settings.rerollMultiplier = 1 ∨ r.freeInvocation)
    (e : Attempt) : usage settings r' e m' = usage settings r e m := by
  have hbalance := balanceUsed_of_sameTerms hterms hcounts hreroll
  obtain ⟨hsome, htokens, -⟩ := hcounts
  unfold usage
  rw [hterms.isPrivate, hterms.chute, hterms.userId, hsome, htokens]
  simp only [hbalance]

/-- What a free invocation counts, of a chute with a discount below 1. -/
def Request.mayCount (req : Request) : Prop :=
  req.freeInvocation ∧ req.chute.discount.any (·.lt 1)

/-- Nothing is counted but of such an invocation. -/
theorem countsQuota_ne_true (h : ¬r.mayCount) : countsQuota r e ≠ .ok true := by
  unfold countsQuota
  by_cases hfree : r.freeInvocation
  · rw [if_pos hfree]
    cases hdiscount : r.chute.discount with
    | none => exact fun heq => nomatch heq
    | some discount =>
      have hlt : discount.lt 1 = false := by
        by_contra htrue
        exact h ⟨hfree, by simpa [hdiscount] using htrue⟩
      simp [hlt]
  · rw [if_neg hfree]
    exact fun heq => nomatch heq

theorem afterCharge_of_sameTerms (hterms : SameTerms r r')
    (hreroll : r'.reroll = r.reroll ∨ settings.rerollMultiplier = 1 ∨ ¬r.mayCount)
    (e : Attempt) : afterCharge settings r' e = afterCharge settings r e := by
  have hcounts : countsQuota r' e = countsQuota r e := by
    unfold countsQuota
    rw [hterms.free, hterms.chute, hterms.isPrivate]
  unfold afterCharge
  rw [hcounts, hterms.isPrivate]
  rcases hreroll with h | h | h
  · rw [h]
  · simp only [h, ite_self]
  · cases hq : countsQuota r e with
    | error f => rfl
    | ok counts =>
      have hfalse : counts = false := by
        by_contra htrue
        rw [Bool.not_eq_false] at htrue
        exact countsQuota_ne_true h (hq.trans (by rw [htrue]))
      simp [hfalse]

/-! ## Lockstep -/

/-- Runs that have billed the same. -/
structure Lockstep (s s' : State) : Prop where
  charges : s'.charges = s.charges
  quotaUsed : s'.quotaUsed = s.quotaUsed
  rows : s'.rows.length = s.rows.length

/-- A failure keeps them so. -/
theorem Lockstep.fail (h : Lockstep s s') (hrest : ∃ post, e' = { e with post }) (target : Target)
    (f : Failure) : Lockstep (fail settings s e target f).1 (fail settings s' e' target f).1 ∧
      (fail settings s' e' target f).2 = (fail settings s e target f).2 := by
  obtain ⟨post, rfl⟩ := hrest
  obtain ⟨hcharges, hquota, hrows⟩ := h
  unfold Invoke.fail
  have hcleanUp : cleanUp settings { e with post } f = cleanUp settings e f := rfl
  rw [hcleanUp]
  split_ifs
  · exact ⟨⟨hcharges, hquota, by simp [hrows]⟩, rfl⟩
  · cases cleanUp settings e f with
    | some g => exact ⟨⟨hcharges, hquota, by simp [hrows]⟩, rfl⟩
    | none => cases f <;> exact ⟨⟨hcharges, hquota, by simp [hrows]⟩, rfl⟩

/-- The metrics an attempt leaves are those of the instance's answer, or it
has asked none and is the last. -/
theorem attempt_metrics (s : State) (e : Attempt) :
    ((attempt settings codec r s e).2 ≠ .retry ∧
      (attempt settings codec r s e).1.metrics = s.metrics) ∨
    ∃ target, e.target = .ok target ∧ (attempt settings codec r s e).1.metrics =
      (invokeOne r codec target e.post s.metrics).metrics := by
  unfold attempt
  cases e.target with
  | error errorMessage => exact .inl ⟨by simp, rfl⟩
  | ok target =>
    cases e.track with
    | some f => exact .inl ⟨by simp, rfl⟩
    | none =>
      refine .inr ⟨target, rfl, ?_⟩
      dsimp only
      split
      · exact (fail_events ..).1
      · split
        · exact (fail_events ..).1
        · split
          · rw [(fail_events ..).1]
            exact State.ship_metrics ..
          · exact State.ship_metrics ..

/-- What every answer keeps of the metrics is kept by an attempt. -/
theorem attempt_metrics_of_inv {inv : Option Metrics → Prop}
    (hkeep : ∀ target post m, inv m → inv (invokeOne r codec target post m).metrics)
    (hinv : inv s.metrics) : inv (attempt settings codec r s e).1.metrics := by
  rcases attempt_metrics s e with ⟨-, hm⟩ | ⟨target, -, hm⟩
  · rw [hm]
    exact hinv
  · rw [hm]
    exact hkeep target _ _ hinv

/-- What is sent to the caller is not billed. -/
theorem Lockstep.stream (h : Lockstep s s') (one one' : Sent) :
    Lockstep (s.stream one) (s'.stream one') :=
  ⟨h.charges, h.quotaUsed, h.rows⟩

theorem Lockstep.ship (h : Lockstep s s') (executes : Bool) (invocation : Usage.Invocation) :
    Lockstep (s.ship executes invocation) (s'.ship executes invocation) := by
  refine ⟨?_, ?_, ?_⟩
  · simp only [State.ship_charges, h.charges, h.rows]
  · unfold State.ship
    split <;> exact h.quotaUsed
  · simp only [State.ship_rows, h.rows]

theorem Lockstep.count (h : Lockstep s s') (used : ℚ) :
    Lockstep { s with quotaUsed := s.quotaUsed + used }
      { s' with quotaUsed := s'.quotaUsed + used } :=
  ⟨h.charges, congrArg (· + used) h.quotaUsed, h.rows⟩

/-- **One attempt keeps two runs in lockstep**, if what is answered costs the
same. -/
theorem Lockstep.attempt (h : Lockstep s s')
    (hsame : SameAnswer codec r r' e e' s.metrics s'.metrics)
    (hcost : ∀ target, e.target = .ok target →
      (invokeOne r codec target e.post s.metrics).raised = none →
      SameCounts (invokeOne r codec target e.post s.metrics).metrics
          (invokeOne r' codec target e'.post s'.metrics).metrics →
        usage settings r' e (invokeOne r' codec target e'.post s'.metrics).metrics =
            usage settings r e (invokeOne r codec target e.post s.metrics).metrics ∧
          afterCharge settings r' e = afterCharge settings r e) :
    Lockstep (attempt settings codec r s e).1 (attempt settings codec r' s' e').1 ∧
      (attempt settings codec r' s' e').2 = (attempt settings codec r s e).2 := by
  obtain ⟨hrest, hraised, hcounts⟩ := hsame
  obtain ⟨htarget', htrack', hpipeline'⟩ :
      e'.target = e.target ∧ e'.track = e.track ∧ e'.pipeline = e.pipeline := by
    obtain ⟨post, rfl⟩ := hrest
    exact ⟨rfl, rfl, rfl⟩
  obtain ⟨husage', hafter'⟩ : usage settings r' e' = usage settings r' e ∧
      afterCharge settings r' e' = afterCharge settings r' e := by
    obtain ⟨post, rfl⟩ := hrest
    exact ⟨rfl, rfl⟩
  cases htarget : e.target with
  | error errorMessage =>
    rw [attempt_of_noTarget htarget, attempt_of_noTarget (htarget'.trans htarget)]
    exact ⟨⟨h.charges, h.quotaUsed, h.rows⟩, rfl⟩
  | ok target =>
    rw [htarget] at htarget'
    cases htrack : e.track with
    | some f =>
      rw [attempt_of_untracked htarget htrack,
        attempt_of_untracked htarget' (htrack'.trans htrack)]
      exact ⟨h, rfl⟩
    | none =>
      rw [htrack] at htrack'
      have hstream := h.stream (invokeOne r codec target e.post s.metrics)
        (invokeOne r' codec target e'.post s'.metrics)
      have hone' := hraised target htarget
      cases hone : (invokeOne r codec target e.post s.metrics).raised with
      | some f =>
        rw [attempt_of_raised htarget htrack hone,
          attempt_of_raised htarget' htrack' (hone'.trans hone)]
        exact hstream.fail hrest target f
      | none =>
        obtain ⟨husage, hafter⟩ := hcost target htarget hone (hcounts target htarget hone)
        rw [← husage'] at husage
        rw [← hafter'] at hafter
        replace hone' := hone'.trans hone
        cases hu : usage settings r e (invokeOne r codec target e.post s.metrics).metrics with
        | error f =>
          rw [attempt_of_unpriced htarget htrack hone hu,
            attempt_of_unpriced htarget' htrack' hone' (husage.trans hu)]
          exact hstream.fail hrest target f
        | ok invocation =>
          rw [attempt_of_usage htarget htrack hone hu,
            attempt_of_usage htarget' htrack' hone' (husage.trans hu), hafter, hpipeline']
          have hcounted :=
            (hstream.ship e.pipeline.executes invocation).count (afterCharge settings r e).1
          cases (afterCharge settings r e).2 with
          | none => exact ⟨⟨hcounted.charges, hcounted.quotaUsed, by simp [h.rows]⟩, rfl⟩
          | some f => exact hcounted.fail hrest target f

/-- **Runs in lockstep bill the same**, if an invariant of the metrics, by the
number of attempts left, says that whatever is answered costs the same. -/
theorem Lockstep.attempts (inv : ℕ → Option Metrics → Option Metrics → Prop)
    (hkeep : ∀ n target post post' m m', inv (n + 1) m m' →
      inv n (invokeOne r codec target post m).metrics (invokeOne r' codec target post' m').metrics)
    (hcost : ∀ n e target post' m m', inv (n + 1) m m' →
      (invokeOne r codec target e.post m).raised = none →
      SameCounts (invokeOne r codec target e.post m).metrics
          (invokeOne r' codec target post' m').metrics →
        usage settings r' e (invokeOne r' codec target post' m').metrics =
            usage settings r e (invokeOne r codec target e.post m).metrics ∧
          afterCharge settings r' e = afterCharge settings r e)
    (es : List (Attempt × Attempt)) (h : Lockstep s s') (hinv : inv es.length s.metrics s'.metrics)
    (hsame : SameUpstream settings codec r r' s s' es) :
    Lockstep (attempts settings codec r s (es.map Prod.fst))
      (attempts settings codec r' s' (es.map Prod.snd)) := by
  induction es generalizing s s' with
  | nil => exact ⟨h.charges, h.quotaUsed, h.rows⟩
  | cons e es ih =>
    obtain ⟨hanswer, hrest⟩ := hsame
    obtain ⟨post', heq⟩ := hanswer.rest
    obtain ⟨hnext, hflow⟩ := h.attempt hanswer fun target _ => hcost es.length e.1 target _ _ _ hinv
    have hkept (hretry : (Invoke.attempt settings codec r s e.1).2 = .retry) :
        inv es.length (Invoke.attempt settings codec r s e.1).1.metrics
          (Invoke.attempt settings codec r' s' e.2).1.metrics := by
      obtain ⟨target, htarget, hm⟩ :=
        (attempt_metrics s e.1).resolve_left fun h => h.1 hretry
      obtain ⟨target', htarget', hm'⟩ :=
        (attempt_metrics s' e.2).resolve_left fun h => h.1 (hflow.trans hretry)
      rw [heq, htarget] at htarget'
      obtain rfl := Except.ok.inj htarget'
      rw [hm, hm']
      exact hkeep es.length target _ _ _ _ hinv
    have hrun hretry := ih hnext (hkept hretry) hrest
    simp only [List.map_cons, Invoke.attempts]
    rcases hleft : Invoke.attempt settings codec r s e.1 with ⟨t, flow⟩
    rcases hright : Invoke.attempt settings codec r' s' e.2 with ⟨t', flow'⟩
    rw [hleft, hright] at hnext hflow hrun
    subst hflow
    cases flow' with
    | retry => exact hrun rfl
    | returned => exact hnext
    | raised => exact hnext

/-! ## Runs that cost nothing -/

/-- Nothing is billed so far. -/
structure Unbilled (s : State) : Prop where
  charges : ∀ c ∈ s.charges, c.2.balanceUsed = 0
  quotaUsed : s.quotaUsed = 0

theorem Unbilled.fail (h : Unbilled s) (target : Target) (f : Failure) :
    Unbilled (fail settings s e target f).1 := by
  unfold Invoke.fail
  split_ifs
  · exact ⟨h.charges, h.quotaUsed⟩
  · cases cleanUp settings e f with
    | some g => exact ⟨h.charges, h.quotaUsed⟩
    | none => cases f <;> exact ⟨h.charges, h.quotaUsed⟩

theorem Unbilled.ship (h : Unbilled s) (executes : Bool) {invocation : Usage.Invocation}
    (hzero : invocation.balanceUsed = 0) : Unbilled (s.ship executes invocation) := by
  unfold State.ship
  split
  · refine ⟨fun c hc => ?_, h.quotaUsed⟩
    rcases List.mem_append.1 hc with hold | hnew
    · exact h.charges c hold
    · rw [List.mem_singleton.1 hnew]
      exact hzero
  · exact h

theorem Unbilled.stream (h : Unbilled s) (one : Sent) : Unbilled (s.stream one) :=
  ⟨h.charges, h.quotaUsed⟩

theorem Unbilled.count (h : Unbilled s) {used : ℚ} (hzero : used = 0) :
    Unbilled { s with quotaUsed := s.quotaUsed + used } :=
  ⟨h.charges, by rw [h.quotaUsed, hzero, add_zero]⟩

/-- **One attempt costs nothing**, if what is answered does not. -/
theorem Unbilled.attempt (h : Unbilled s)
    (hcost : ∀ target, (invokeOne r codec target e.post s.metrics).raised = none →
      (∀ invocation, usage settings r e (invokeOne r codec target e.post s.metrics).metrics =
        .ok invocation → invocation.balanceUsed = 0) ∧ (afterCharge settings r e).1 = 0) :
    Unbilled (attempt settings codec r s e).1 := by
  cases htarget : e.target with
  | error errorMessage =>
    rw [attempt_of_noTarget htarget]
    exact ⟨h.charges, h.quotaUsed⟩
  | ok target =>
    cases htrack : e.track with
    | some f =>
      rw [attempt_of_untracked htarget htrack]
      exact h
    | none =>
      have hstream := h.stream (invokeOne r codec target e.post s.metrics)
      cases hone : (invokeOne r codec target e.post s.metrics).raised with
      | some f =>
        rw [attempt_of_raised htarget htrack hone]
        exact hstream.fail target f
      | none =>
        obtain ⟨husage, hafter⟩ := hcost target hone
        cases hu : usage settings r e (invokeOne r codec target e.post s.metrics).metrics with
        | error f =>
          rw [attempt_of_unpriced htarget htrack hone hu]
          exact hstream.fail target f
        | ok invocation =>
          rw [attempt_of_usage htarget htrack hone hu]
          have hcounted := (hstream.ship e.pipeline.executes (husage invocation hu)).count hafter
          cases (afterCharge settings r e).2 with
          | none => exact ⟨hcounted.charges, hcounted.quotaUsed⟩
          | some f => exact hcounted.fail target f

/-- **A run costs nothing**, if an invariant of the metrics says that what is
answered does not. -/
theorem Unbilled.attempts (inv : Option Metrics → Prop)
    (hkeep : ∀ target post m, inv m → inv (invokeOne r codec target post m).metrics)
    (hcost : ∀ e target m, inv m → (invokeOne r codec target e.post m).raised = none →
      (∀ invocation, usage settings r e (invokeOne r codec target e.post m).metrics =
        .ok invocation → invocation.balanceUsed = 0) ∧ (afterCharge settings r e).1 = 0)
    (es : List Attempt) (h : Unbilled s) (hinv : inv s.metrics) :
    Unbilled (attempts settings codec r s es) := by
  induction es generalizing s with
  | nil => exact ⟨h.charges, h.quotaUsed⟩
  | cons e es ih =>
    have hnext : Unbilled (Invoke.attempt settings codec r s e).1 :=
      h.attempt fun target => hcost e target _ hinv
    have hrun := ih hnext (attempt_metrics_of_inv hkeep hinv)
    unfold Invoke.attempts
    rcases hleft : Invoke.attempt settings codec r s e with ⟨t, flow⟩
    rw [hleft] at hnext hrun
    cases flow with
    | retry => exact hrun
    | returned => exact hnext
    | raised => exact hnext

theorem Unbilled.bill_eq {env : Fin 5 → Attempt} (h : Unbilled (invoke settings codec r env)) :
    bill settings codec (.ok r) env = (0, 0) := by
  refine Prod.ext ?_ h.quotaUsed
  refine List.sum_eq_zero fun q hq => ?_
  obtain ⟨c, hc, rfl⟩ := List.mem_map.1 hq
  exact h.charges c hc

/-- A free invocation that counts for nothing. -/
def Costless (settings : Settings) (req : Request) : Prop :=
  req.freeInvocation ∧
    (¬req.chute.discount.any (·.lt 1) ∨ req.reroll ∧ settings.rerollMultiplier = 0)

/-- A free invocation is not charged. -/
theorem usage_of_free (hfree : r.freeInvocation) {invocation : Usage.Invocation}
    (h : usage settings r e m = .ok invocation) : invocation.balanceUsed = 0 := by
  unfold usage at h
  obtain ⟨computeUnits, -, h⟩ := bind_eq_ok.1 h
  obtain ⟨used, hused, h⟩ := bind_eq_ok.1 h
  have hzero : used = 0 := by
    unfold balanceUsed at hused
    cases computeUnits with
    | none => exact (return_eq_ok.1 hused).symm
    | some units =>
      dsimp only at hused
      rw [if_pos (Or.inr hfree)] at hused
      exact (return_eq_ok.1 hused).symm
  extract_lets tokens base shipped at h
  have hshipped : ∀ credits, shipped credits = .ok invocation → invocation.balanceUsed = 0 := by
    intro credits hcredits
    rw [← return_eq_ok.1 hcredits]
    split_ifs
    · exact hzero
    · rfl
    · exact hzero
  split_ifs at h
  · obtain ⟨credits, -, hcredits⟩ := bind_eq_ok.1 h
    exact hshipped credits hcredits
  · exact hshipped false h

theorem afterCharge_of_costless (h : Costless settings r) (e : Attempt) :
    (afterCharge settings r e).1 = 0 := by
  unfold afterCharge
  cases hq : countsQuota r e with
  | error f => split <;> rfl
  | ok counts =>
    have hused : (if counts ∧ e.quota.executes then
        if r.reroll then settings.rerollMultiplier else (1 : ℚ) else 0) = 0 := by
      rcases h.2 with hdiscount | ⟨hreroll, hmultiplier⟩
      · have hfalse : counts = false := by
          by_contra htrue
          rw [Bool.not_eq_false] at htrue
          exact countsQuota_ne_true (fun hmay => hdiscount hmay.2) (hq.trans (by rw [htrue]))
        simp [hfalse]
      · simp [hreroll, hmultiplier]
    dsimp only
    split
    · rfl
    · split
      · exact hused
      · split <;> exact hused

/-- **A costless request** is not billed. -/
theorem bill_of_costless (h : Costless settings r) (env : Fin 5 → Attempt) :
    bill settings codec (.ok r) env = (0, 0) := by
  refine Unbilled.bill_eq (Unbilled.attempts (fun _ => True) (fun _ _ _ _ => trivial)
    (fun e target m _ _ => ⟨fun invocation => usage_of_free h.1, afterCharge_of_costless h e⟩)
    _ ⟨?_, rfl⟩ trivial)
  exact fun c hc => nomatch hc

end Invoke

end ChutesApi
