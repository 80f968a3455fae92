import ChutesApi.Payment.Model.Fmv
/-!
# How old a price can be

A price that is returned was once named by a source for that ticker. Its age
has a bound (`Inv.answers`, `fresh`): an hour in the table and a minute in the
cache, with the delays of the two calls that pass it on, or an hour in the
cache. It is older only within a minute of a time at which both sources
failed. What makes the bound hold is that a price from the table or the cache
is never stored again (`Inv.history`), so that no price gets a new timestamp.
-/

namespace ChutesApi

namespace Fmv

variable {P : Type*} {truthy : P → Bool} {delay : ℕ} {s s' : State P} {a : Action P}
  {call start stop start' stop' seconds ttl timestamp time : ℕ} {ticker : String} {price : P}
  {phase : Phase P} {fails : Bool} {age : Option ℕ}

/-! ## The invariant -/

/-- **A price that may be used until a time**: a source named it before
`start`, and `stop` is not much later, or not much later than a failure of
both sources. -/
def Sourced (delay : ℕ) (s : State P) (ticker : String) (price : P) (start stop : ℕ) : Prop :=
  ∃ q ∈ s.quotes, q.ticker = ticker ∧ q.price = price ∧ q.time ≤ start ∧
    (stop ≤ q.time + 3660 + 2 * delay ∨
      ∃ f ∈ s.failures, f.ticker = ticker ∧ f.time ≤ start ∧ stop ≤ f.time + 60 + delay)

/-- A source named the price, and a time is at most so much later. -/
def Named (s : State P) (ticker : String) (price : P) (time within : ℕ) : Prop :=
  ∃ q ∈ s.quotes, q.ticker = ticker ∧ q.price = price ∧ time ≤ q.time + within

/-- A source named the price before a time, and at most a delay before. -/
def Dated (delay : ℕ) (s : State P) (row : FMV P) : Prop :=
  ∃ q ∈ s.quotes, q.ticker = row.ticker ∧ q.price = row.price ∧ q.time ≤ row.timestamp ∧
    row.timestamp ≤ q.time + delay

/-- What is known of the price that a call has. -/
def Held (delay : ℕ) (s : State P) (ticker : String) : Phase P → Prop
  | .last failedAt => ⟨ticker, failedAt⟩ ∈ s.failures
  | .fresh price readAt => Named s ticker price readAt (3600 + delay)
  | .database price failedAt =>
    -- of any age
    ⟨ticker, failedAt⟩ ∈ s.failures ∧ Named s ticker price 0 0
  | .quoted price quotedAt => ⟨ticker, price, quotedAt⟩ ∈ s.quotes
  | .store price quotedAt => ⟨ticker, price, quotedAt⟩ ∈ s.quotes
  | .cache | .recent | .kraken | .coingecko => True

structure Inv (delay : ℕ) (s : State P) : Prop where
  quotes : ∀ q ∈ s.quotes, q.time ≤ s.now
  failures : ∀ f ∈ s.failures, f.time ≤ s.now
  /-- A row is no younger than its price. -/
  history : ∀ row ∈ s.history, Dated delay s row
  cached : ∀ ticker price expiry, s.cached.entry ticker = some (price, expiry) →
    Sourced delay s ticker price s.now expiry
  calls : ∀ call ticker phase, s.calls call = some (ticker, phase) → Held delay s ticker phase
  answers : ∀ a ∈ s.answers, Sourced delay s a.ticker a.price a.time (a.time + 1)

/-! ## What the record of the sources gives -/

theorem Sourced.mono (h : Sourced delay s ticker price start stop) (hq : s.quotes ⊆ s'.quotes)
    (hf : s.failures ⊆ s'.failures) (hstart : start ≤ start') (hstop : stop' ≤ stop) :
    Sourced delay s' ticker price start' stop' := by
  obtain ⟨q, hmem, hticker, hprice, htime, hbound⟩ := h
  refine ⟨q, hq hmem, hticker, hprice, by omega, ?_⟩
  rcases hbound with hbound | ⟨f, hfmem, hfticker, hftime, hfbound⟩
  · exact .inl (by omega)
  · exact .inr ⟨f, hf hfmem, hfticker, by omega, by omega⟩

theorem Named.mono (h : Named s ticker price start stop) (hq : s.quotes ⊆ s'.quotes) :
    Named s' ticker price start stop := by
  obtain ⟨q, hmem, hq'⟩ := h
  exact ⟨q, hq hmem, hq'⟩

theorem Dated.mono {row : FMV P} (h : Dated delay s row) (hq : s.quotes ⊆ s'.quotes) :
    Dated delay s' row := by
  obtain ⟨q, hmem, hq'⟩ := h
  exact ⟨q, hq hmem, hq'⟩

theorem Held.mono (h : Held delay s ticker phase) (hq : s.quotes ⊆ s'.quotes)
    (hf : s.failures ⊆ s'.failures) : Held delay s' ticker phase := by
  cases phase with
  | cache | recent | kraken | coingecko => trivial
  | last failedAt => exact hf h
  | fresh price readAt => exact Named.mono h hq
  | database price failedAt => exact ⟨hf h.1, h.2.mono hq⟩
  | quoted price quotedAt => exact hq h
  | store price quotedAt => exact hq h

/-- A row that is found in the table. -/
theorem exists_of_getLastStoredPrice (h : s.getLastStoredPrice ticker age = some price) :
    ∃ row ∈ s.history, row.ticker = ticker ∧ row.price = price ∧
      ∀ seconds ∈ age, s.now ≤ row.timestamp + seconds := by
  obtain ⟨row, hrow, rfl⟩ := Option.map_eq_some_iff.1 h
  obtain ⟨hmem, hrow⟩ := List.mem_filter.1 (List.argmax_mem hrow)
  obtain ⟨hticker, hage⟩ := of_decide_eq_true hrow
  exact ⟨row, hmem, hticker, rfl, hage⟩

namespace Inv

/-- A price in the cache. -/
theorem of_getCachedPrice (hs : Inv delay s) (h : s.getCachedPrice ticker fails = some price) :
    Sourced delay s ticker price s.now (s.now + 1) := by
  rw [State.getCachedPrice, Option.ite_none_left_eq_some] at h
  obtain ⟨expiry, hentry, hlt⟩ := Expiring.get_eq_some.1 h.2
  exact (hs.cached ticker price expiry hentry).mono (List.Subset.refl _) (List.Subset.refl _)
    le_rfl hlt

/-- A price of the last hour. -/
theorem of_recent (hs : Inv delay s) (h : s.getLastStoredPrice ticker (some 3600) = some price) :
    Named s ticker price s.now (3600 + delay) := by
  obtain ⟨row, hmem, rfl, rfl, hage⟩ := exists_of_getLastStoredPrice h
  obtain ⟨q, hq, hticker, hprice, -, htime⟩ := hs.history row hmem
  have hage := hage 3600 rfl
  exact ⟨q, hq, hticker, hprice, by omega⟩

/-- A price of any age. -/
theorem of_last (hs : Inv delay s) (h : s.getLastStoredPrice ticker none = some price) :
    Named s ticker price 0 0 := by
  obtain ⟨row, hmem, rfl, rfl, -⟩ := exists_of_getLastStoredPrice h
  obtain ⟨q, hq, hticker, hprice, -⟩ := hs.history row hmem
  exact ⟨q, hq, hticker, hprice, by omega⟩

/-- What a source has just named, passed on in time. -/
theorem of_quoted (hs : Inv delay s) (h : ⟨ticker, price, time⟩ ∈ s.quotes)
    (hnow : s.now ≤ time + delay) : Sourced delay s ticker price s.now (s.now + 3600) :=
  ⟨_, h, rfl, rfl, hs.quotes _ h, .inl (by simp only; omega)⟩

/-- What was found in the table, passed on in time. -/
theorem of_fresh (hs : Inv delay s) (h : Named s ticker price time (3600 + delay))
    (hnow : s.now ≤ time + delay) : Sourced delay s ticker price s.now (s.now + 60) := by
  obtain ⟨q, hq, hticker, hprice, htime⟩ := h
  exact ⟨q, hq, hticker, hprice, hs.quotes q hq, .inl (by omega)⟩

/-- What is left when both sources failed, passed on in time. -/
theorem of_database (hs : Inv delay s) (h : Named s ticker price 0 0)
    (hf : ⟨ticker, time⟩ ∈ s.failures) (hnow : s.now ≤ time + delay) :
    Sourced delay s ticker price s.now (s.now + 60) := by
  obtain ⟨q, hq, hticker, hprice, -⟩ := h
  refine ⟨q, hq, hticker, hprice, hs.quotes q hq, .inr ⟨_, hf, rfl, hs.failures _ hf, ?_⟩⟩
  show s.now + 60 ≤ time + 60 + delay
  omega

/-! ## What each operation keeps -/

theorem tick (hs : Inv delay s) : Inv delay { s with now := s.now + seconds } where
  quotes q hq := Nat.le_add_right_of_le (hs.quotes q hq)
  failures f hf := Nat.le_add_right_of_le (hs.failures f hf)
  history := hs.history
  cached ticker price expiry h := (hs.cached ticker price expiry h).mono (List.Subset.refl _)
    (List.Subset.refl _) (Nat.le_add_right _ _) le_rfl
  calls := hs.calls
  answers := hs.answers

theorem lose (hs : Inv delay s) : Inv delay { s with cached := s.cached.delete ticker } where
  quotes := hs.quotes
  failures := hs.failures
  history := hs.history
  cached other price expiry h := by
    rcases eq_or_ne other ticker with rfl | hne
    · simp [Expiring.delete] at h
    · simp only [Expiring.delete, Function.update_of_ne hne] at h
      exact hs.cached other price expiry h
  calls := hs.calls
  answers := hs.answers

theorem goto (hs : Inv delay s) (h : Held delay s ticker phase) :
    Inv delay (s.goto call ticker phase) where
  quotes := hs.quotes
  failures := hs.failures
  history := hs.history
  cached := hs.cached
  calls other ticker' phase' h' := by
    rcases eq_or_ne other call with rfl | hne
    · simp only [State.goto, Function.update_self] at h'
      cases h'
      exact h
    · simp only [State.goto, Function.update_of_ne hne] at h'
      exact hs.calls other ticker' phase' h'
  answers := hs.answers

theorem leave (hs : Inv delay s) : Inv delay (s.leave call) where
  quotes := hs.quotes
  failures := hs.failures
  history := hs.history
  cached := hs.cached
  calls other ticker phase h := by
    rcases eq_or_ne other call with rfl | hne
    · simp only [State.leave, Function.update_self] at h
      cases h
    · simp only [State.leave, Function.update_of_ne hne] at h
      exact hs.calls other ticker phase h
  answers := hs.answers

theorem answer (hs : Inv delay s) (h : Sourced delay s ticker price s.now (s.now + 1)) :
    Inv delay (s.answer call ticker price) where
  quotes := hs.quotes
  failures := hs.failures
  history := hs.history
  cached := hs.cached
  calls := hs.leave.calls
  answers := List.forall_mem_cons.2 ⟨h, hs.answers⟩

theorem setCachedPrice (hs : Inv delay s)
    (h : Sourced delay s ticker price s.now (s.now + ttl)) :
    Inv delay (s.setCachedPrice ticker price ttl fails) where
  quotes := hs.quotes
  failures := hs.failures
  history := hs.history
  cached other price' expiry h' := by
    cases fails with
    | true => exact hs.cached other price' expiry h'
    | false =>
      rcases eq_or_ne other ticker with rfl | hne
      · have hentry := (Function.update_self other _ _).symm.trans h'
        cases hentry
        exact h
      · have hentry := (Function.update_of_ne hne _ _).symm.trans h'
        exact hs.cached other price' expiry hentry
  calls := hs.calls
  answers := hs.answers

theorem quote (hs : Inv delay s) : Inv delay (s.quote ticker price) where
  quotes := List.forall_mem_cons.2 ⟨le_rfl, hs.quotes⟩
  failures := hs.failures
  history row hrow := (hs.history row hrow).mono (List.subset_cons_self _ _)
  cached ticker price expiry h := (hs.cached ticker price expiry h).mono
    (List.subset_cons_self _ _) (List.Subset.refl _) le_rfl le_rfl
  calls call ticker phase h :=
    (hs.calls call ticker phase h).mono (List.subset_cons_self _ _) (List.Subset.refl _)
  answers a ha := (hs.answers a ha).mono (List.subset_cons_self _ _) (List.Subset.refl _)
    le_rfl le_rfl

theorem fail (hs : Inv delay s) : Inv delay (s.fail ticker) where
  quotes := hs.quotes
  failures := List.forall_mem_cons.2 ⟨le_rfl, hs.failures⟩
  history := hs.history
  cached ticker price expiry h := (hs.cached ticker price expiry h).mono
    (List.Subset.refl _) (List.subset_cons_self _ _) le_rfl le_rfl
  calls call ticker phase h :=
    (hs.calls call ticker phase h).mono (List.Subset.refl _) (List.subset_cons_self _ _)
  answers a ha := (hs.answers a ha).mono (List.Subset.refl _) (List.subset_cons_self _ _)
    le_rfl le_rfl

theorem storePrice (hs : Inv delay s) (h : Dated delay s ⟨ticker, timestamp, price⟩) :
    Inv delay (s.storePrice ticker price timestamp) where
  quotes := hs.quotes
  failures := hs.failures
  history := List.forall_mem_cons.2 ⟨h, hs.history⟩
  cached := hs.cached
  calls := hs.calls
  answers := hs.answers

/-- **What one step keeps.** -/
theorem step (hs : Inv delay s) (hok : Prompt delay s a) (h : Fmv.step truthy s a = some s') :
    Inv delay s' := by
  -- a price in hand is passed on in time
  have hnow : ∀ call ticker phase time, a.passing = some call →
      s.calls call = some (ticker, phase) → phase.since = some time → s.now ≤ time + delay :=
    fun call ticker phase time hcall hphase htime =>
      hok call hcall (ticker, phase) hphase time htime
  cases a with
  | tick seconds => exact Option.some.inj h ▸ hs.tick
  | lose ticker => exact Option.some.inj h ▸ hs.lose
  | leave call => exact Option.some.inj h ▸ hs.leave
  | enter call ticker =>
    simp only [Fmv.step] at h
    split at h
    · exact Option.some.inj h ▸ hs.goto trivial
    · cases h
  | readCache call fails =>
    simp only [Fmv.step] at h
    split at h
    · split at h
      · next hprice => exact Option.some.inj h ▸ hs.answer (hs.of_getCachedPrice hprice)
      · exact Option.some.inj h ▸ hs.goto trivial
    · cases h
  | readRecent call =>
    simp only [Fmv.step] at h
    split at h
    · split at h
      · next hprice =>
        have hrow := (Option.filter_eq_some_iff.1 hprice).1
        exact Option.some.inj h ▸ hs.goto (hs.of_recent hrow)
      · exact Option.some.inj h ▸ hs.goto trivial
    · cases h
  | askKraken call price =>
    simp only [Fmv.step] at h
    split at h
    · split at h
      · exact Option.some.inj h ▸ hs.quote.goto List.mem_cons_self
      · exact Option.some.inj h ▸ hs.goto trivial
    · cases h
  | askCoingecko call price =>
    simp only [Fmv.step] at h
    split at h
    · split at h
      · rw [← Option.some.inj h]
        refine hs.quote.goto ?_
        split
        · exact List.mem_cons_self
        · exact List.mem_cons_self
      · exact Option.some.inj h ▸ hs.fail.goto List.mem_cons_self
    · cases h
  | readLast call =>
    simp only [Fmv.step] at h
    split at h
    · next hphase =>
      split at h
      · next hprice =>
        exact Option.some.inj h ▸ hs.goto ⟨hs.calls _ _ _ hphase, hs.of_last hprice⟩
      · exact Option.some.inj h ▸ hs.leave
    · cases h
  | setCache call fails =>
    simp only [Fmv.step] at h
    split at h
    · next hphase =>
      have hprice := hs.of_fresh (hs.calls _ _ _ hphase) (hnow _ _ _ _ rfl hphase rfl)
      rw [← Option.some.inj h]
      refine (hs.setCachedPrice hprice).answer ?_
      exact hprice.mono (List.Subset.refl _) (List.Subset.refl _) le_rfl
        (show s.now + 1 ≤ s.now + 60 by omega)
    · next hphase =>
      obtain ⟨hfail, hnamed⟩ := hs.calls _ _ _ hphase
      have hprice := hs.of_database hnamed hfail (hnow _ _ _ _ rfl hphase rfl)
      rw [← Option.some.inj h]
      refine (hs.setCachedPrice hprice).answer ?_
      exact hprice.mono (List.Subset.refl _) (List.Subset.refl _) le_rfl
        (show s.now + 1 ≤ s.now + 60 by omega)
    · next hphase =>
      have hquote := hs.calls _ _ _ hphase
      have hprice := hs.of_quoted hquote (hnow _ _ _ _ rfl hphase rfl)
      exact Option.some.inj h ▸ (hs.setCachedPrice hprice).goto hquote
    · cases h
  | store call begun =>
    simp only [Fmv.step] at h
    split at h
    · next hphase =>
      have hquote := hs.calls _ _ _ hphase
      have htime := hnow _ _ _ _ rfl hphase rfl
      split at h
      · next hbegun =>
        split at h
        · exact Option.some.inj h ▸ hs.leave
        · rw [← Option.some.inj h]
          refine (hs.storePrice ⟨_, hquote, rfl, rfl, hbegun.1, ?_⟩).answer ?_
          · exact hbegun.2.trans htime
          · exact (hs.of_quoted hquote htime).mono (List.Subset.refl _) (List.Subset.refl _) le_rfl
              (show s.now + 1 ≤ s.now + 3600 by omega)
      · cases h
    · cases h

theorem initial : Inv delay (Fmv.initial : State P) := by
  constructor <;> simp [Fmv.initial, Expiring.empty]

end Inv

/-- **What a run keeps.** -/
theorem inv_of_reach {as : List (Action P)} (h : (fetcher truthy).Reach (Prompt delay) as s) :
    Inv delay s := by
  refine h.invariant ?_ fun _ _ _ hs hok hstep => hs.step hok hstep
  rintro _ rfl
  exact Inv.initial

/-! ## The age of a price -/

/-- **No price is old.** Whatever the calls do side by side, a source named each
price of the table before its timestamp and at most a delay before it, and each
price that is returned at most an hour, a minute and two delays before, or else
before a time, at most a minute and a delay before, at which both sources had
failed. -/
theorem fresh {as : List (Action P)} (h : (fetcher truthy).Reach (Prompt delay) as s) :
    (∀ row ∈ s.history, ∃ q ∈ s.quotes,
      q.ticker = row.ticker ∧ q.price = row.price ∧ q.time ≤ row.timestamp ∧
        row.timestamp ≤ q.time + delay) ∧
    ∀ answer ∈ s.answers, ∃ q ∈ s.quotes,
      q.ticker = answer.ticker ∧ q.price = answer.price ∧ q.time ≤ answer.time ∧
        (answer.time < q.time + 3660 + 2 * delay ∨
          ∃ f ∈ s.failures, f.ticker = answer.ticker ∧ f.time ≤ answer.time ∧
            answer.time < f.time + 60 + delay) :=
  ⟨(inv_of_reach h).history, (inv_of_reach h).answers⟩

private def nonzero (price : ℕ) : Bool := price ≠ 0

/-- A price that is stored late, is found in the table just before it is an
hour old, is cached late, and is found in the cache just before it is gone. -/
private def longest : List (Action ℕ) :=
  [.enter 0 "TAO", .readCache 0 false, .readRecent 0, .askKraken 0 (some 400), .tick 1,
    .setCache 0 false, .store 0 1, .tick 3600,
    .enter 1 "tao", .readCache 1 false, .readRecent 1, .tick 1, .setCache 1 false, .tick 59,
    .enter 2 "tao", .readCache 2 false]

private def longestState : State ℕ := ((fetcher nonzero).exec initial longest).getD initial

theorem fresh_longest : ⟨"tao", 400, 3661⟩ ∈ longestState.answers ∧
    longestState.quotes = [⟨"tao", 400, 0⟩] ∧
    ∀ answer ∈ longestState.answers, ∃ q ∈ longestState.quotes,
      q.ticker = answer.ticker ∧ q.price = answer.price ∧ q.time ≤ answer.time ∧
        (answer.time < q.time + 3660 + 2 * 1 ∨
          ∃ f ∈ longestState.failures, f.ticker = answer.ticker ∧ f.time ≤ answer.time ∧
            answer.time < f.time + 60 + 1) := by
  have hmeets : (fetcher nonzero).Meets (Prompt 1) initial longest := by decide +kernel
  have hreach := Lts.reach_getD_exec (M := fetcher nonzero) rfl hmeets (by decide +kernel)
  exact ⟨by decide +kernel, by decide +kernel, (fresh hreach).2⟩

end Fmv

end ChutesApi
