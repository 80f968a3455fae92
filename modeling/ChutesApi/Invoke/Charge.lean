import ChutesApi.Invoke.Model.Retry
/-!
# An invocation is charged once

The usage is shipped before the session commits. An attempt that ships it
and then raises is rolled back and tried again, and the next attempt ships
it again. An invocation is charged and completed at most once exactly
where the attempt that ships the usage gets through the rest of its session
(`invoke_atMostOnce_iff`): the chute of a free invocation has a discount,
the lookups of the owner and the commit do not raise, and the caller is
still there.
-/

namespace ChutesApi

namespace Invoke

variable (settings : Settings) (codec : Codec) (req : Request)

/-- **At most once**: one charge at most, no attempt after it, and the row
of its attempt completed. -/
structure AtMostOnce (s : State) : Prop where
  once : s.charges.length ≤ 1
  last : ∀ c ∈ s.charges, c.1 + 1 = s.rows.length
  completed : ∀ c ∈ s.charges, ∃ metrics bounty, s.rows[c.1]? = some (.completed metrics bounty)

/-- Nothing raises once the usage is shipped, and the caller stays. -/
structure Settles (req : Request) (e : Attempt) : Prop where
  discount : req.freeInvocation → req.chute.discount ≠ none
  quotaOwner : req.freeInvocation → req.isPrivate →
    ∀ d ∈ req.chute.discount, d.lt 1 → ∃ owner, e.quotaOwner = .ok owner
  shutdownOwner : req.isPrivate → ∃ owner, e.shutdownOwner = .ok owner
  commit : e.commit = none
  pipeline : e.pipeline.cancelled = false
  quota : countsQuota req e = .ok true → e.quota.cancelled = false

/-- The usage an attempt ships, if it comes so far and the pipeline
executes. -/
def charge (s : State) (e : Attempt) : Option Usage.Invocation :=
  match e.target, e.track with
  | .ok target, none =>
    let one := invokeOne req codec target e.post s.metrics
    if one.raised.isNone ∧ e.pipeline.executes then (usage settings req e one.metrics).toOption
    else none
  | _, _ => none

/-- **The condition**: each attempt that is made and ships the usage gets
through the rest. -/
def ChargesSettle (s : State) : List Attempt → Prop
  | [] => True
  | e :: es =>
    ((charge settings codec req s e).isSome → Settles req e) ∧
      ((attempt settings codec req s e).2 = .retry →
        ChargesSettle (attempt settings codec req s e).1 es)

/-! ## One attempt -/

theorem countsQuota_eq_ok (e : Attempt) :
    (∃ counts, countsQuota req e = .ok counts) ↔
      (req.freeInvocation → req.chute.discount ≠ none) ∧
        (req.freeInvocation → req.isPrivate →
          ∀ d ∈ req.chute.discount, d.lt 1 → ∃ owner, e.quotaOwner = .ok owner) := by
  unfold countsQuota
  by_cases hfree : req.freeInvocation
  · rw [if_pos hfree]
    cases hd : req.chute.discount with
    | none => simp [hfree]
    | some d =>
      by_cases hlt : d.lt 1 <;> by_cases hp : req.isPrivate <;>
        cases ho : e.quotaOwner <;> simp [hfree, hlt, hp, Except.map]
  · simp [hfree]

/-- What is left once it is known whether the quota counts. -/
theorem afterCharge_of_counts {e : Attempt} {counts : Bool}
    (hpipeline : e.pipeline.cancelled = false) (hcounts : countsQuota req e = .ok counts) :
    (afterCharge settings req e).2 = none ↔
      (counts → e.quota.cancelled = false) ∧
        (req.isPrivate → ∃ owner, e.shutdownOwner = .ok owner) ∧ e.commit = none := by
  unfold afterCharge
  rw [hpipeline, if_neg Bool.false_ne_true, hcounts]
  by_cases hquota : counts ∧ e.quota.cancelled
  · simp [hquota]
  · have hstays : counts → e.quota.cancelled = false := by simpa using hquota
    simp only [if_neg hquota, and_iff_right hstays]
    by_cases hprivate : req.isPrivate
    · cases howner : e.shutdownOwner <;> simp [hprivate]
    · simp [hprivate]

/-- The rest of the session raises nothing exactly where it settles. -/
theorem afterCharge_eq_none (e : Attempt) :
    (afterCharge settings req e).2 = none ↔ Settles req e := by
  have hok := countsQuota_eq_ok req e
  cases hpipeline : e.pipeline.cancelled with
  | true =>
    have hraises : (afterCharge settings req e).2 = some .cancelled := by
      simp [afterCharge, hpipeline]
    rw [hraises]
    exact ⟨fun h => (nomatch h), fun h => Bool.noConfusion (hpipeline.symm.trans h.pipeline)⟩
  | false =>
    cases hcounts : countsQuota req e with
    | error f =>
      have hraises : (afterCharge settings req e).2 = some f := by
        simp [afterCharge, hpipeline, hcounts]
      rw [hraises]
      refine ⟨fun h => (nomatch h), fun h => ?_⟩
      obtain ⟨counts, heq⟩ := hok.2 ⟨h.discount, h.quotaOwner⟩
      exact nomatch hcounts.symm.trans heq
    | ok counts =>
      obtain ⟨hdiscount, howner⟩ := hok.1 ⟨counts, hcounts⟩
      rw [afterCharge_of_counts settings req hpipeline hcounts]
      constructor
      · rintro ⟨hquota, hshutdown, hcommit⟩
        refine ⟨hdiscount, howner, hshutdown, hcommit, hpipeline, fun htrue => hquota ?_⟩
        exact Except.ok.inj (hcounts.symm.trans htrue)
      · intro h
        exact ⟨fun htrue => h.quota (hcounts.trans (by rw [htrue])), h.shutdownOwner, h.commit⟩

/-- **What an attempt does to the charges and the rows.** -/
theorem attempt_spec (s : State) (e : Attempt) :
    (charge settings codec req s e = none ∧
      (attempt settings codec req s e).1.charges = s.charges) ∨
    ∃ invocation, charge settings codec req s e = some invocation ∧
      (attempt settings codec req s e).1.charges = s.charges ++ [(s.rows.length, invocation)] ∧
      ∃ row, (attempt settings codec req s e).1.rows = s.rows ++ [row] ∧
        (Settles req e → (attempt settings codec req s e).2 = .returned ∧
          ∃ metrics bounty, row = .completed metrics bounty) ∧
        (¬ Settles req e → ∀ metrics bounty, row ≠ .completed metrics bounty) := by
  cases htarget : e.target with
  | error errorMessage => exact .inl (by simp [charge, attempt, htarget])
  | ok target =>
    cases htrack : e.track with
    | some f => exact .inl (by simp [charge, attempt, htarget, htrack])
    | none =>
      cases hone : (invokeOne req codec target e.post s.metrics).raised with
      | some f =>
        exact .inl (by simp [charge, attempt, htarget, htrack, hone, (fail_spec ..).1])
      | none =>
        cases husage :
            usage settings req e (invokeOne req codec target e.post s.metrics).metrics with
        | error f =>
          exact .inl (by
            simp [charge, attempt, htarget, htrack, hone, husage, Except.toOption,
              (fail_spec ..).1])
        | ok invocation =>
          cases hpipeline : e.pipeline.executes with
          | false =>
            refine .inl ⟨by simp [charge, htarget, htrack, hpipeline], ?_⟩
            rcases hafter : afterCharge settings req e with ⟨used, _ | f⟩ <;>
              simp [attempt, htarget, htrack, hone, husage, hpipeline, hafter, (fail_spec ..).1]
          | true =>
            refine .inr ⟨invocation, ?_, ?_⟩
            · simp [charge, htarget, htrack, hone, husage, hpipeline, Except.toOption]
            · have hsettles := afterCharge_eq_none settings req e
              rcases hafter : afterCharge settings req e with ⟨used, _ | f⟩
              · have h : Settles req e := hsettles.1 (by rw [hafter])
                simp [attempt, htarget, htrack, hone, husage, hpipeline, hafter, h]
              · have h : ¬ Settles req e := fun h => by
                  have := hsettles.2 h
                  simp [hafter] at this
                simp only [attempt, htarget, htrack, hone, husage, hpipeline, hafter]
                obtain ⟨hcharges, row, hrow, hnot⟩ := fail_spec settings _ e target f
                exact ⟨hcharges, row, hrow, fun h' => absurd h' h, fun _ => hnot⟩

/-! ## The loop -/

/-- An attempt that is followed by another has its row. -/
theorem attempt_rows (s : State) (e : Attempt) :
    s.rows <+: (attempt settings codec req s e).1.rows := by
  unfold attempt
  cases e.target with
  | error errorMessage => exact List.prefix_rfl
  | ok target =>
    cases e.track with
    | some f => exact List.prefix_rfl
    | none =>
      have hfail : ∀ (s' : State) (f : Failure), s'.rows = s.rows →
          s.rows <+: (fail settings s' e target f).1.rows := by
        intro s' f hs'
        obtain ⟨-, row, hrow, -⟩ := fail_spec settings s' e target f
        exact ⟨[row], by rw [hrow, hs']⟩
      dsimp only
      split
      · exact hfail _ _ rfl
      · split
        · exact hfail _ _ rfl
        · split
          · exact hfail _ _ (State.ship_rows ..)
          · exact ⟨[_], by rw [State.ship_rows, State.stream_rows]⟩

theorem attempt_charges (s : State) (e : Attempt) :
    s.charges <+: (attempt settings codec req s e).1.charges := by
  obtain ⟨-, h⟩ | ⟨invocation, -, h, -⟩ := attempt_spec settings codec req s e
  · exact ⟨[], by simpa using h.symm⟩
  · exact ⟨_, h.symm⟩

/-- What is charged and committed stays so. -/
theorem attempts_prefix (s : State) (es : List Attempt) :
    s.rows <+: (attempts settings codec req s es).rows ∧
      s.charges <+: (attempts settings codec req s es).charges := by
  induction es generalizing s with
  | nil => exact ⟨List.prefix_rfl, List.prefix_rfl⟩
  | cons e es ih =>
    have hrows := attempt_rows settings codec req s e
    have hcharges := attempt_charges settings codec req s e
    unfold attempts
    split
    · next s' hs' =>
      rw [hs'] at hrows hcharges
      exact ⟨hrows.trans (ih s').1, hcharges.trans (ih s').2⟩
    · next s' flow _ hs' =>
      rw [hs'] at hrows hcharges
      exact ⟨hrows, hcharges⟩

/-- A charge whose row is something else than completed is never right
again. -/
theorem not_atMostOnce_of_row {s : State} {i : ℕ} {invocation : Usage.Invocation}
    {row : InvocationRow} (hcharge : (i, invocation) ∈ s.charges) (hrow : s.rows[i]? = some row)
    (hnot : ∀ metrics bounty, row ≠ .completed metrics bounty) (es : List Attempt) :
    ¬ AtMostOnce s ∧ ¬ AtMostOnce (attempts settings codec req s es) := by
  have hbad : ∀ s' : State, s.rows <+: s'.rows → s.charges <+: s'.charges → ¬ AtMostOnce s' := by
    intro s' hrows hcharges h
    obtain ⟨metrics, bounty, hcompleted⟩ := h.completed _ (hcharges.subset hcharge)
    have hlt : i < s.rows.length := (List.getElem?_eq_some_iff.1 hrow).1
    obtain ⟨later, hlater⟩ := hrows
    rw [← hlater, List.getElem?_append_left hlt, hrow, Option.some.injEq] at hcompleted
    exact hnot metrics bounty hcompleted
  obtain ⟨hrows, hcharges⟩ := attempts_prefix settings codec req s es
  exact ⟨hbad s List.prefix_rfl List.prefix_rfl, hbad _ hrows hcharges⟩

theorem attempts_atMostOnce_iff (s : State) (hs : s.charges = []) (es : List Attempt) :
    AtMostOnce (attempts settings codec req s es) ↔ ChargesSettle settings codec req s es := by
  have hnone : ∀ s' : State, s'.charges = [] → AtMostOnce s' := by
    intro s' h
    exact ⟨by simp [h], by simp [h], by simp [h]⟩
  induction es generalizing s with
  | nil => exact ⟨fun _ => trivial, fun _ => hnone _ hs⟩
  | cons e es ih =>
    obtain ⟨hcharge, hsame⟩ | ⟨invocation, hcharge, hcharges, row, hrow, hcompleted, hnot⟩ :=
      attempt_spec settings codec req s e
    · -- the attempt ships nothing, and the loop goes on or not
      have hempty := hsame.trans hs
      unfold attempts ChargesSettle
      rw [hcharge]
      rcases h : attempt settings codec req s e with ⟨s', flow⟩
      rw [h] at hempty
      cases flow with
      | retry => simpa using ih s' hempty
      | returned => simpa using hnone s' hempty
      | raised => simpa using hnone s' hempty
    · unfold attempts ChargesSettle
      rw [hcharge]
      rcases h : attempt settings codec req s e with ⟨s', flow⟩
      rw [h] at hcharges hrow hcompleted
      replace hcharges : s'.charges = [(s.rows.length, invocation)] := by rw [hcharges, hs]; rfl
      replace hrow : s'.rows = s.rows ++ [row] := hrow
      have hget : s'.rows[s.rows.length]? = some row := by simp [hrow]
      by_cases hsettles : Settles req e
      · -- it ships the usage and gets through: it is the last one
        obtain ⟨hflow, metrics, bounty, rfl⟩ := hcompleted hsettles
        obtain rfl : flow = .returned := hflow
        have hdone : AtMostOnce s' := by
          refine ⟨by simp [hcharges], ?_, ?_⟩
          · simp [hcharges, hrow]
          · simpa [hcharges] using ⟨metrics, bounty, hget⟩
        simpa [hsettles] using hdone
      · -- it ships the usage and raises: its row is not completed any more
        have hmem : (s.rows.length, invocation) ∈ s'.charges := by simp [hcharges]
        obtain ⟨hbad, hbad'⟩ :=
          not_atMostOnce_of_row settings codec req hmem hget (hnot hsettles) es
        cases flow <;> simp [hsettles, hbad, hbad']

/-- **An invocation is charged and completed at most once**, with no attempt
after the one that is charged, exactly where that one settles. -/
theorem invoke_atMostOnce_iff (env : Fin 5 → Attempt) :
    AtMostOnce (invoke settings codec req env) ↔
      ChargesSettle settings codec req req.start (List.ofFn env) :=
  attempts_atMostOnce_iff settings codec req req.start rfl (List.ofFn env)

/-- **Charged five times.** A free invocation of a chute without a discount,
which all its instances answer. -/
theorem not_invoke_atMostOnce : ¬ ∀ (settings : Settings) (codec : Codec) (req : Request)
    (env : Fin 5 → Attempt), AtMostOnce (invoke settings codec req env) := by
  intro h
  let chute : Chute := ⟨"c", "o", "demo", true, none, none, none, 1800000000⟩
  let req : Request := ⟨chute, "u", "run", false, false, true, false, 0, 0⟩
  let answered : Attempt :=
    { target := .ok { instanceId := "i" }
      post := .ok { status := 200, totalTime := 1 }
      update := .ok (some 1)
      quotes := { hourlyPrice := .ok 1 }
      chargeOwner := .ok none
      quotaOwner := .ok none
      shutdownOwner := .ok none
      timestamp := 0 }
  have hfive := (h {} ⟨some, fun _ => none⟩ req fun _ => answered).once
  exact absurd hfive (by decide +kernel)

end Invoke

end ChutesApi
