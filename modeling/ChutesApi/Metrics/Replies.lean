import ChutesApi.Metrics.Model
import Mathlib.Algebra.Order.Ring.Star
import Mathlib.Data.Rat.Star
/-!
# What an update of an average returns

`update` reads what the script returns, and `get_info` what it stored. The
reply has no digits behind the decimal point, so that the coefficient, which
is between 0 and 1, is never returned as it is stored, and it is empty where
the average is not ready, so that `update` raises there. No update agrees
with what is stored after it (`update_never_faithful`).
-/

namespace ChutesApi

namespace Metrics

open Python

variable (cfg : Config)

/-- **The two channels agree** after an update: it returns the average, or
`None` where that is not ready, the coefficient and the rate as `get_info`
reports them. -/
def Agrees (data : Fields) (u : Update) : Prop :=
  ∃ info, getInfo cfg (update cfg data u).1 = some info ∧
    ∃ alpha, info.lastAlpha = some alpha ∧
      (update cfg data u).2 = .ok (if info.ready then info.ema else none, alpha, info.recentRate)

variable {cfg} {data : Fields} {u : Update}

/-! ## The reply -/

/-- What is between 0 and 1 is truncated to 0. -/
theorem truncate_eq_zero {q : ℚ} (h0 : 0 < q) (h1 : q < 1) : truncate q = 0 := by
  have hnum : 0 < q.num := Rat.num_pos.2 h0
  have hlt : q.num < q.den := by
    have hq : (q.num : ℚ) / q.den < 1 := by rwa [Rat.num_div_den]
    have hden : (0 : ℚ) < q.den := by exact_mod_cast q.den_pos
    rw [div_lt_one hden] at hq
    exact_mod_cast hq
  exact Int.tdiv_eq_zero_of_lt hnum.le hlt

/-- What an update returns where it does not raise: the stored numbers, each
truncated. -/
theorem update_eq_ok {result : Option ℚ × ℚ × ℚ} (h : (update cfg data u).2 = .ok result) :
    ∃ e r, (update cfg data u).1.ema = some e ∧ result = (some (truncate e : ℚ), 0, r) ∧
      ∃ alpha, (update cfg data u).1.lastAlpha = some alpha ∧ 0 < alpha := by
  unfold update at *
  cases hnext : next cfg data u with
  | none => simp [hnext] at h
  | some data' =>
    obtain ⟨e, n, r, a, rfl, hmin, hmax⟩ := next_eq_some hnext
    have ha0 : 0 < a := cfg.alpha_pos.trans_le hmin
    have ha1 : a < 1 := hmax.trans_lt cfg.alpha_lt
    have hzero : truncate a = 0 := truncate_eq_zero ha0 ha1
    simp only [hnext, table] at h ⊢
    split_ifs at h with hready
    · simp only [reply, hzero, readReply, Except.ok.injEq] at h
      exact ⟨e, _, rfl, by rw [← h, Int.cast_zero], a, rfl, ha0⟩
    · simp [reply, readReply] at h

/-- An update raises exactly if its average is not ready. -/
theorem update_eq_error (cfg : Config) (data : Fields) (u : Update) :
    (update cfg data u).2 = .error (.raised .other) ↔
      ¬(update cfg data u).1.count.any (cfg.minCount ≤ ·) := by
  cases hnext : next cfg data u with
  | none =>
    -- the script found an average without a count
    have hcount : data.count = none := by
      unfold next at hnext
      cases hema : data.ema with
      | none => simp [hema] at hnext
      | some e => simpa [hema] using hnext
    simp [update, hnext, hcount]
  | some data' =>
    obtain ⟨e, n, r, a, rfl, -, -⟩ := next_eq_some hnext
    by_cases hcount : cfg.minCount ≤ n
    · simp [update, hnext, table, hcount, reply, readReply]
    · simp [update, hnext, table, hcount, reply, readReply]

/-- **No update agrees with what is stored after it**, and it raises exactly
where the average is not ready. -/
theorem update_never_faithful (cfg : Config) (data : Fields) (u : Update) :
    ¬Agrees cfg data u ∧
      ((update cfg data u).2 = .error (.raised .other) ↔
        ¬(update cfg data u).1.count.any (cfg.minCount ≤ ·)) := by
  refine ⟨?_, update_eq_error cfg data u⟩
  rintro ⟨info, hinfo, alpha, halpha, hok⟩
  obtain ⟨e, r, -, hresult, a, ha, hpos⟩ := update_eq_ok hok
  -- the coefficient is stored as it is and returned as 0
  have hzero : alpha = 0 := (Prod.mk.inj (Prod.mk.inj hresult).2).1
  have hstored : info.lastAlpha = (update cfg data u).1.lastAlpha := by
    unfold getInfo at hinfo
    split_ifs at hinfo
    rw [← Option.some.inj hinfo]
  rw [hstored, ha, Option.some.injEq] at halpha
  rw [halpha, hzero] at hpos
  exact lt_irrefl 0 hpos

/-- The first update of a key raises. -/
theorem first_not_faithful : (update {} {} ⟨1 / 2, 0⟩).2 = .error (.raised .other) ∧
    ¬Agrees {} {} ⟨1 / 2, 0⟩ := by
  have hraise : (update {} {} ⟨1 / 2, 0⟩).2 = .error (.raised .other) := by decide +kernel
  refine ⟨hraise, ?_⟩
  rintro ⟨info, -, alpha, -, hok⟩
  rw [hraise] at hok
  exact nomatch hok

/-! ## The tracker -/

theorem returned_eq_some {q : ℚ} (h : returned (update cfg data u).2 = some q) :
    ∃ e, (update cfg data u).1.ema = some e ∧ q = truncate e := by
  cases hok : (update cfg data u).2 with
  | error e => simp [hok, returned] at h
  | ok result =>
    obtain ⟨e, r, hema, rfl, -⟩ := update_eq_ok hok
    rw [hok] at h
    exact ⟨e, hema, (Option.some.inj h).symm⟩

/-- The averages of a streamed invocation are truncated. -/
theorem streamedAverages_eq_some {trackers : Trackers} {now averages : ℚ × ℚ}
    {duration it ot ttft : ℚ}
    (h : (streamedAverages cfg trackers now duration it ot ttft).2 = some averages) :
    ∃ p o, (streamedAverages cfg trackers now duration it ot ttft).1.ptps.ema = some p ∧
      (streamedAverages cfg trackers now duration it ot ttft).1.otps.ema = some o ∧
      averages = ((truncate p : ℚ), (truncate o : ℚ)) := by
  unfold streamedAverages at *
  by_cases hout : ot ≠ 0 ∧ duration - ttft ≠ 0
  · simp only [if_pos hout] at h ⊢
    split at h
    next pema oema hp ho =>
      obtain ⟨p, hpema, rfl⟩ := returned_eq_some hp
      obtain ⟨o, hoema, rfl⟩ := returned_eq_some ho
      split_ifs at h
      exact ⟨p, o, hpema, hoema, (Option.some.inj h).symm⟩
    next => exact nomatch h
  · simp [if_neg hout, returned] at h

/-- **A streamed invocation is normalized by truncated averages**: what the
tracker records of it are not the averages that it has just stored. -/
theorem updateInvocationMetrics_streamed {average : String → ℚ → ℚ} {trackers trackers' : Trackers}
    {now : ℚ × ℚ} {duration it ot ttft p o : ℚ} {metrics : Invoke.Metrics} {perf : Invoke.Perf}
    {isPublic : Bool} (hmetrics : tokensOf metrics = (it, ot, some ttft)) (hne : ttft ≠ 0)
    (h : updateInvocationMetrics cfg average trackers now duration metrics isPublic =
      (trackers', perf))
    (hp : perf.ptps = some p) (ho : perf.otps = some o) :
    ∃ prompt output, trackers'.ptps.ema = some prompt ∧ trackers'.otps.ema = some output ∧
      p = truncate prompt ∧ o = truncate output := by
  unfold updateInvocationMetrics at h
  rw [hmetrics] at h
  split at h
  · cases h
    cases hp
  · dsimp only at h
    split at h
    · -- what is recorded is what the update of the averages returns
      obtain ⟨htrackers, hperf⟩ := Prod.mk.inj h
      split at htrackers
      · next heq => exact absurd heq (by simp)
      · next heq => exact absurd (Option.some.inj heq) hne
      · next ttft' hnot heq =>
        obtain rfl := Option.some.inj heq
        simp only at hperf
        rw [← hperf] at hp ho
        obtain ⟨averages, haverages, rfl⟩ := Option.map_eq_some_iff.1 hp
        rw [haverages] at ho
        obtain rfl := Option.some.inj ho
        obtain ⟨prompt, output, hprompt, houtput, rfl⟩ := streamedAverages_eq_some haverages
        exact ⟨prompt, output, htrackers ▸ hprompt, htrackers ▸ houtput, rfl, rfl⟩
    · cases h
      cases hp

end Metrics

end ChutesApi
