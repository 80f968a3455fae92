import ChutesApi.Common.Lts
import ChutesApi.User.Model.Quota
import Mathlib.Tactic.Linarith
/-!
# Quotas by payment

A trigger on `payments` gives a user the quota of a tier, in the row for all
chutes, and debits the tier's price. It takes any of the user's default rows
for the current one, never reads the balance, and cannot tell a row of an
admin from one that was never refreshed. `quotaRefresh_iff` says in which
histories a debit still finds its price, and the quota is not lowered within
30 days.
-/

namespace ChutesApi

namespace QuotaRefresh

open Python Quota

/-- What a payment buys. -/
structure Tier where
  quota : ℤ
  price : ℚ
  deriving DecidableEq

/-- The tier by the amount of the payment. -/
def tierFor (paymentAmount : ℚ) : Option Tier :=
  if 19.5 ≤ paymentAmount then some ⟨5000, 20⟩
  else if 9.75 ≤ paymentAmount then some ⟨2000, 10⟩
  else if 2.75 ≤ paymentAmount then some ⟨300, 3⟩
  else none

/-- In seconds. -/
def thirtyDays : ℕ := 30 * 24 * 60 * 60

/-- Which row is written first. Nothing relates the mapped classes, and the
balance is written as a value. -/
inductive Flush
  | userFirst
  | paymentFirst
  deriving DecidableEq, Repr

/-- One user, whose bits do not change meanwhile. -/
structure Env where
  users : Users
  userId : UserId
  permissionsBitmask : Option ℕ
  flush : Flush

/-- `v_permissions_bitmask & v_excluded_bits`. -/
def Env.excluded (env : Env) : Bool := env.permissionsBitmask.any fun mask => mask &&& 816 != 0

abbrev Rows := Dict RowKey InvocationQuota

variable (env : Env)

/-- The rows of the user that the query takes for the current quota: it has no
order. -/
def defaultRows (rows : Rows) : List (RowKey × InvocationQuota) :=
  rows.items.filter fun row => row.1.1 = env.userId && row.2.isDefault

/-- The row that the `INTO` keeps. -/
def current (rows : Rows) (pick : ℕ) : Option InvocationQuota :=
  ((defaultRows env rows)[pick % (defaultRows env rows).length]?).map Prod.snd

/-- `v_current_quota` is an `INTEGER`. -/
def Readable (row : InvocationQuota) : Prop := -2 ^ 31 ≤ row.quota ∧ row.quota < 2 ^ 31

instance (row : InvocationQuota) : Decidable (Readable row) := by
  unfold Readable
  infer_instance

/-- The last refresh is not within 30 days. -/
def Lapsed (now date : ℕ) : Prop := date + thirtyDays < now

instance (now date : ℕ) : Decidable (Lapsed now date) := by
  unfold Lapsed
  infer_instance

/-- Whether the quota is updated, given the current row. -/
def due (now : ℕ) (row : Option InvocationQuota) (tier : Tier) : Bool :=
  match row with
  | none => true
  | some row =>
    match row.paymentRefreshDate with
    | none => true
    | some date => Lapsed now date || row.quota < tier.quota

/-- `ON CONFLICT … DO UPDATE`. -/
def upsert (now : ℕ) (rows : Rows) (tier : Tier) : Rows :=
  let row : InvocationQuota :=
    match rows.get? (env.userId, "*") with
    | some row =>
      { row with quota := tier.quota, paymentRefreshDate := some now, updatedAt := now }
    | none => ⟨true, some now, now, tier.quota⟩
  rows.set (env.userId, "*") row

/-- The tier that the function goes on to set, if any. -/
def tierToSet (now : ℕ) (rows : Rows) (pick : ℕ) (paymentAmount : ℚ) : Except Exc (Option Tier) :=
  if env.excluded then .ok none
  else if ∀ row ∈ current env rows pick, Readable row then
    .ok ((tierFor paymentAmount).filter fun tier => due now (current env rows pick) tier)
  else .error (.raised .other)

/-- **`refresh_invocation_quota`**: the rows and the balance afterwards. -/
def refreshInvocationQuota (now : ℕ) (rows : Rows) (pick : ℕ) (paymentAmount balance : ℚ) :
    Except Exc (Rows × ℚ) := do
  match ← tierToSet env now rows pick paymentAmount with
  | none => return (rows, balance)
  | some tier => return (upsert env now rows tier, balance - tier.price)

/-! ## Histories -/

/-- `starSet` is when the row for all chutes was last set, by a payment or by an
admin. -/
structure State where
  now : ℕ
  rows : Rows
  balance : ℚ
  starSet : Option ℕ

inductive Event
  | tick (seconds : ℕ)
  /-- A payment for credits, and which row the query finds. -/
  | payment (usdAmount : ℚ) (pick : ℕ)
  | quotasChange (currentUser : User) (payload : Dict ChuteId Amount)

/-- The balance that the trigger finds. -/
def State.found (s : State) (usdAmount : ℚ) : ℚ :=
  match env.flush with
  | .userFirst => s.balance + usdAmount
  | .paymentFirst => s.balance

/-- The trigger on the payment. -/
def State.refresh (s : State) (usdAmount : ℚ) (pick : ℕ) : Except Exc (Rows × ℚ) :=
  refreshInvocationQuota env s.now s.rows pick usdAmount (s.found env usdAmount)

/-- The transaction of a payment, after the trigger. Where the payment is
flushed first, as SQLAlchemy does, the `UPDATE` of the user's row comes after
the trigger, and overwrites its debit. -/
def State.pay (s : State) (usdAmount : ℚ) (rows : Rows) (balance : ℚ) : State :=
  { s with
    rows := rows
    balance := match env.flush with
      | .userFirst => balance
      | .paymentFirst => s.balance + usdAmount
    starSet := if balance < s.found env usdAmount then some s.now else s.starSet }

/-- A payment, which an exception rolls back, and a request of an admin. -/
def step (s : State) : Event → Option State
  | .tick seconds => some { s with now := s.now + seconds }
  | .payment usdAmount pick =>
    match s.refresh env usdAmount pick with
    | .error _ => some s
    | .ok (rows, balance) => some (s.pay env usdAmount rows balance)
  | .quotasChange currentUser payload =>
    match adminQuotasChange env.users s.now s.rows currentUser env.userId payload with
    | .error _ => some s
    | .ok (rows, _) => some { s with
        rows := rows
        starSet := if (payload.get? "*").isSome then some s.now else s.starSet }

/-- The row of a signup, or no row. -/
def system : Lts State Event where
  init s := s.starSet = none ∧ ∀ chuteId row, s.rows.get? (env.userId, chuteId) = some row →
    chuteId = "*" ∧ row.isDefault = true ∧ row.paymentRefreshDate = none ∧ row.quota = 0
  step := step env

/-- The quota for all chutes, where no row counts as 0. -/
def starQuota (rows : Rows) : ℤ := ((rows.get? (env.userId, "*")).map (·.quota)).getD 0

/-- **Not lowered within 30 days** of being set. -/
def Kept (s : State) (rows : Rows) : Prop :=
  ∀ date ∈ s.starSet, ¬ Lapsed s.now date → starQuota env s.rows ≤ starQuota env rows

/-- **What a refresh should do**: set the row for all chutes to a tier and debit
its price, or neither; not overdraw a balance that was not overdrawn; and keep
the quota. -/
structure Refreshed (s : State) (usdAmount : ℚ) (rows : Rows) (balance : ℚ) : Prop where
  debit : (rows = s.rows ∧ balance = s.found env usdAmount) ∨
    ∃ tier ∈ tierFor usdAmount, rows = upsert env s.now s.rows tier ∧
      balance = s.found env usdAmount - tier.price
  nonneg : 0 ≤ s.balance → balance < s.found env usdAmount → 0 ≤ balance
  kept : Kept env s rows

/-- **The law of a step.** -/
def Lawful (s : State) : Event → Prop
  | .tick _ => True
  | .payment usdAmount pick => ∀ rows balance, s.refresh env usdAmount pick = .ok (rows, balance) →
      Refreshed env s usdAmount rows balance
  | .quotasChange currentUser payload => ∀ rows keys,
      adminQuotasChange env.users s.now s.rows currentUser env.userId payload = .ok (rows, keys) →
        Kept env s rows

/-- **The condition on a step.** Of a payment that is due for a tier: the
balance that the trigger finds covers the price, if it was not overdrawn
before, and a current row without a date does not stand for a higher quota
that was set within 30 days. Of an admin: the new quotas do not lower the one
for all chutes that was set within 30 days. -/
def Clean (s : State) : Event → Prop
  | .tick _ => True
  | .payment usdAmount pick => ∀ tier ∈ tierFor usdAmount,
      (∀ row ∈ current env s.rows pick, Readable row) →
      due s.now (current env s.rows pick) tier →
        (0 ≤ s.balance → tier.price ≤ s.found env usdAmount) ∧
          ∀ row ∈ current env s.rows pick, row.paymentRefreshDate = none →
            ∀ date ∈ s.starSet, ¬ Lapsed s.now date → starQuota env s.rows ≤ tier.quota
  | .quotasChange currentUser payload => ∀ rows keys,
      adminQuotasChange env.users s.now s.rows currentUser env.userId payload = .ok (rows, keys) →
        ∀ date ∈ s.starSet, ¬ Lapsed s.now date →
          starQuota env s.rows ≤ ((payload.get? "*").map Amount.toInt).getD 0

variable {env} {s s' : State} {now pick : ℕ} {rows : Rows} {usdAmount balance : ℚ} {tier : Tier}
variable {chuteId : ChuteId} {row : InvocationQuota}

/-! ## The rows -/

theorem get?_upsert (k : RowKey) : (upsert env now rows tier).get? k =
    if k = (env.userId, "*") then some
      (match rows.get? (env.userId, "*") with
      | some row =>
        { row with quota := tier.quota, paymentRefreshDate := some now, updatedAt := now }
      | none => ⟨true, some now, now, tier.quota⟩)
    else rows.get? k :=
  Dict.get?_set

/-- **A refresh sets the row for all chutes** to its tier. -/
@[simp] theorem starQuota_upsert : starQuota env (upsert env now rows tier) = tier.quota := by
  unfold starQuota
  rw [get?_upsert, if_pos rfl]
  cases rows.get? (env.userId, "*") <;> rfl

theorem mem_defaultRows {r : RowKey × InvocationQuota} : r ∈ defaultRows env rows ↔
    rows.get? (env.userId, r.1.2) = some r.2 ∧ r.1.1 = env.userId ∧ r.2.isDefault = true := by
  obtain ⟨⟨u, c⟩, row⟩ := r
  unfold defaultRows
  rw [List.mem_filter, Bool.and_eq_true, decide_eq_true_eq]
  constructor
  · rintro ⟨hmem, rfl, hdefault⟩
    exact ⟨Dict.get?_eq_some.2 hmem, rfl, hdefault⟩
  · rintro ⟨hget, rfl, hdefault⟩
    exact ⟨Dict.get?_eq_some.1 hget, rfl, hdefault⟩

/-- The current row is one of the user's. -/
theorem exists_of_current (h : current env rows pick = some row) :
    ∃ chuteId, rows.get? (env.userId, chuteId) = some row := by
  obtain ⟨r, hr, rfl⟩ := Option.map_eq_some_iff.1 h
  exact ⟨r.1.2, (mem_defaultRows.1 (List.mem_of_getElem? hr)).1⟩

/-- Without a current row the user has no default row. -/
theorem defaultRows_of_current (h : current env rows pick = none) : defaultRows env rows = [] := by
  by_contra hne
  have hlt := Nat.mod_lt pick (List.length_pos_of_ne_nil hne)
  unfold current at h
  rw [Option.map_eq_none_iff, List.getElem?_eq_none_iff] at h
  omega

/-! ## The invariant -/

/-- **What the rows record**: every row is a default row, and only the row for
all chutes has a date, which is when it was last set. -/
structure Recorded (env : Env) (s : State) : Prop where
  isDefault : ∀ chuteId row, s.rows.get? (env.userId, chuteId) = some row → row.isDefault = true
  dated : ∀ chuteId row date, s.rows.get? (env.userId, chuteId) = some row →
    row.paymentRefreshDate = some date → chuteId = "*" ∧ s.starSet = some date

/-- Without a current row, there is no quota to lower. -/
theorem Recorded.starQuota_of_none (hs : Recorded env s) (h : current env s.rows pick = none) :
    starQuota env s.rows = 0 := by
  unfold starQuota
  cases hstar : s.rows.get? (env.userId, "*") with
  | none => rfl
  | some row =>
    have hmem : (((env.userId, "*"), row) : RowKey × InvocationQuota) ∈ defaultRows env s.rows :=
      mem_defaultRows.2 ⟨hstar, rfl, hs.isDefault _ _ hstar⟩
    rw [defaultRows_of_current h] at hmem
    cases hmem

/-- **A current row with a date** is the one for all chutes, and a refresh that
is due within 30 days raises it. -/
theorem Recorded.starQuota_of_dated {date set : ℕ} (hs : Recorded env s)
    (h : current env s.rows pick = some row) (hdate : row.paymentRefreshDate = some date)
    (hset : s.starSet = some set) (hrecent : ¬ Lapsed s.now set)
    (hdue : due s.now (some row) tier = true) : starQuota env s.rows ≤ tier.quota := by
  obtain ⟨chuteId, hget⟩ := exists_of_current h
  obtain ⟨rfl, hset'⟩ := hs.dated _ _ _ hget hdate
  obtain rfl := Option.some.inj (hset'.symm.trans hset)
  have hlower : row.quota < tier.quota := by
    simpa [due, hdate, hrecent] using hdue
  unfold starQuota
  rw [hget]
  exact hlower.le

theorem tierFor_quota (h : tier ∈ tierFor usdAmount) : 0 ≤ tier.quota ∧ 0 < tier.price := by
  unfold tierFor at h
  split_ifs at h
  · obtain rfl := Option.some.inj h
    norm_num
  · obtain rfl := Option.some.inj h
    norm_num
  · obtain rfl := Option.some.inj h
    norm_num
  · cases h

/-! ## A payment -/

theorem tierToSet_eq_ok (hrole : env.excluded = false) {set : Option Tier} :
    tierToSet env now rows pick usdAmount = .ok set ↔
      (∀ row ∈ current env rows pick, Readable row) ∧
        set = (tierFor usdAmount).filter fun tier => due now (current env rows pick) tier := by
  unfold tierToSet
  rw [hrole, if_neg Bool.false_ne_true]
  split_ifs with hread
  · rw [and_iff_right hread, Except.ok.injEq, eq_comm]
  · exact iff_of_false (fun h => by cases h) fun h => hread h.1

/-- **What the trigger does**: nothing, or a refresh that is due. -/
theorem refresh_eq_ok (hrole : env.excluded = false) :
    s.refresh env usdAmount pick = .ok (rows, balance) ↔
      (∀ row ∈ current env s.rows pick, Readable row) ∧
        (((∀ tier ∈ tierFor usdAmount, due s.now (current env s.rows pick) tier = false) ∧
            rows = s.rows ∧ balance = s.found env usdAmount) ∨
          ∃ tier ∈ tierFor usdAmount, due s.now (current env s.rows pick) tier = true ∧
            rows = upsert env s.now s.rows tier ∧
              balance = s.found env usdAmount - tier.price) := by
  unfold State.refresh refreshInvocationQuota
  rw [bind_eq_ok]
  simp only [tierToSet_eq_ok hrole]
  constructor
  · rintro ⟨set, ⟨hread, rfl⟩, h⟩
    refine ⟨hread, ?_⟩
    cases hset : (tierFor usdAmount).filter fun tier =>
      due s.now (current env s.rows pick) tier with
    | none =>
      rw [hset] at h
      obtain ⟨rfl, rfl⟩ := Prod.mk.inj (return_eq_ok.1 h)
      refine .inl ⟨fun tier htier => ?_, rfl, rfl⟩
      simpa using Option.filter_eq_none_iff.1 hset tier htier
    | some tier =>
      rw [hset] at h
      obtain ⟨rfl, rfl⟩ := Prod.mk.inj (return_eq_ok.1 h)
      obtain ⟨htier, hdue⟩ := Option.filter_eq_some_iff.1 hset
      exact .inr ⟨tier, htier, hdue, rfl, rfl⟩
  · rintro ⟨hread, ⟨hnone, rfl, rfl⟩ | ⟨tier, htier, hdue, rfl, rfl⟩⟩
    · have hset : (tierFor usdAmount).filter
          (fun tier => due s.now (current env s.rows pick) tier) = none :=
        Option.filter_eq_none_iff.2 fun tier htier => by simpa using hnone tier htier
      refine ⟨_, ⟨hread, rfl⟩, ?_⟩
      rw [hset]
      rfl
    · have hset : (tierFor usdAmount).filter
          (fun tier => due s.now (current env s.rows pick) tier) = some tier :=
        Option.filter_eq_some_iff.2 ⟨htier, hdue⟩
      refine ⟨_, ⟨hread, rfl⟩, ?_⟩
      rw [hset]
      rfl

/-- **When a payment is lawful.** -/
theorem lawful_payment_iff (hrole : env.excluded = false) (hs : Recorded env s) :
    Lawful env s (.payment usdAmount pick) ↔ Clean env s (.payment usdAmount pick) := by
  simp only [Lawful, Clean, refresh_eq_ok hrole]
  constructor
  · intro hlaw tier htier hread hdue
    have href := hlaw (upsert env s.now s.rows tier) (s.found env usdAmount - tier.price)
      ⟨hread, .inr ⟨tier, htier, hdue, rfl, rfl⟩⟩
    have hprice := (tierFor_quota htier).2
    refine ⟨fun hbalance => ?_, fun row hrow _ date hdate hrecent => ?_⟩
    · have hnonneg := href.nonneg hbalance (by linarith)
      linarith
    · simpa using href.kept date hdate hrecent
  · rintro hclean rows balance ⟨hread, ⟨-, rfl, rfl⟩ | ⟨tier, htier, hdue, rfl, rfl⟩⟩
    · exact ⟨.inl ⟨rfl, rfl⟩, fun _ hlt => absurd hlt (lt_irrefl _), fun _ _ _ => le_rfl⟩
    · obtain ⟨hcovered, hundated⟩ := hclean tier htier hread hdue
      refine ⟨.inr ⟨tier, htier, rfl, rfl⟩, fun hbalance _ => ?_, fun date hdate hrecent => ?_⟩
      · have hprice := hcovered hbalance
        linarith
      · rw [starQuota_upsert]
        cases hrow : current env s.rows pick with
        | none =>
          rw [hs.starQuota_of_none hrow]
          exact (tierFor_quota htier).1
        | some row =>
          cases hrefresh : row.paymentRefreshDate with
          | none => exact hundated row hrow hrefresh date hdate hrecent
          | some refreshed =>
            rw [hrow] at hdue
            exact hs.starQuota_of_dated hrow hrefresh hdate hrecent hdue

/-- A payment keeps the record. -/
theorem Recorded.pay (hrole : env.excluded = false) (hs : Recorded env s)
    (h : s.refresh env usdAmount pick = .ok (rows, balance)) :
    Recorded env (s.pay env usdAmount rows balance) := by
  obtain ⟨-, ⟨-, rfl, rfl⟩ | ⟨tier, htier, -, rfl, rfl⟩⟩ := (refresh_eq_ok hrole).1 h
  · refine ⟨hs.isDefault, fun chuteId row date hrow hdate => ?_⟩
    simpa [State.pay] using hs.dated chuteId row date hrow hdate
  · have hdebit : s.found env usdAmount - tier.price < s.found env usdAmount := by
      linarith [(tierFor_quota htier).2]
    have hset : (s.pay env usdAmount (upsert env s.now s.rows tier)
        (s.found env usdAmount - tier.price)).starSet = some s.now := if_pos hdebit
    refine ⟨fun chuteId row hrow => ?_, fun chuteId row date hrow hdate => ?_⟩
    · change (upsert env s.now s.rows tier).get? _ = some row at hrow
      rw [get?_upsert] at hrow
      split_ifs at hrow with hstar
      · obtain rfl := Option.some.inj hrow
        cases hold : s.rows.get? (env.userId, "*") with
        | none => rfl
        | some old => exact hs.isDefault _ old hold
      · exact hs.isDefault chuteId row hrow
    · change (upsert env s.now s.rows tier).get? _ = some row at hrow
      rw [hset]
      rw [get?_upsert] at hrow
      split_ifs at hrow with hstar
      · obtain rfl := Option.some.inj hrow
        refine ⟨(Prod.mk.inj hstar).2, ?_⟩
        rw [← hdate]
        cases s.rows.get? (env.userId, "*") <;> rfl
      · obtain ⟨rfl, -⟩ := hs.dated chuteId row date hrow hdate
        exact absurd rfl hstar

/-! ## An admin -/

/-- **The new rows of the user** are those of the payload, without a date. -/
theorem get?_quotasChange {currentUser : User} {payload : Dict ChuteId Amount} {keys : List Key}
    (h : adminQuotasChange env.users s.now s.rows currentUser env.userId payload =
      .ok (rows, keys)) (chuteId : ChuteId) :
    rows.get? (env.userId, chuteId) = (payload.get? chuteId).map fun value =>
      { updatedAt := s.now, quota := value.toInt } := by
  obtain ⟨rfl, -⟩ := adminQuotasChange_eq_ok h
  rw [get?_replaceRows, if_pos rfl, newQuotas, Dict.get?_map]

theorem starQuota_quotasChange {currentUser : User} {payload : Dict ChuteId Amount}
    {keys : List Key} (h : adminQuotasChange env.users s.now s.rows currentUser env.userId payload =
      .ok (rows, keys)) :
    starQuota env rows = ((payload.get? "*").map Amount.toInt).getD 0 := by
  unfold starQuota
  rw [get?_quotasChange h, Option.map_map]
  rfl

/-- **A step keeps the record.** -/
theorem Recorded.step (hrole : env.excluded = false) {e : Event} (hs : Recorded env s)
    (h : (system env).step s e = some s') : Recorded env s' := by
  cases e with
  | tick seconds =>
    obtain rfl := Option.some.inj h
    exact ⟨hs.isDefault, hs.dated⟩
  | payment usdAmount pick =>
    simp only [system, QuotaRefresh.step] at h
    split at h
    · obtain rfl := Option.some.inj h
      exact hs
    · next rows balance hok =>
      obtain rfl := Option.some.inj h
      exact hs.pay hrole hok
  | quotasChange currentUser payload =>
    simp only [system, QuotaRefresh.step] at h
    split at h
    · obtain rfl := Option.some.inj h
      exact hs
    · next rows keys hok =>
      obtain rfl := Option.some.inj h
      have hget := get?_quotasChange hok
      refine ⟨fun chuteId row hrow => ?_, fun chuteId row date hrow hdate => ?_⟩
      · obtain ⟨value, -, rfl⟩ := Option.map_eq_some_iff.1 ((hget chuteId).symm.trans hrow)
        rfl
      · obtain ⟨value, -, rfl⟩ := Option.map_eq_some_iff.1 ((hget chuteId).symm.trans hrow)
        cases hdate

theorem recorded_init (h : (system env).init s) : Recorded env s where
  isDefault chuteId row hrow := (h.2 chuteId row hrow).2.1
  dated chuteId row date hrow hdate := by
    rw [(h.2 chuteId row hrow).2.2.1] at hdate
    cases hdate

/-- **When a step is lawful.** -/
theorem lawful_step_iff (hrole : env.excluded = false) (e : Event) (hs : Recorded env s) :
    Lawful env s e ↔ Clean env s e := by
  cases e with
  | tick seconds => exact Iff.rfl
  | payment usdAmount pick => exact lawful_payment_iff hrole hs
  | quotasChange currentUser payload =>
    simp only [Lawful, Clean]
    refine forall₂_congr fun rows keys => forall_congr' fun hok => ?_
    unfold Kept
    rw [starQuota_quotasChange hok]

/-- **In which histories a subscription is refreshed as it should be**: every
payment that is due finds its price and does not go by a row without a date
against a higher quota that is recent, and no admin lowers such a quota. -/
theorem quotaRefresh_iff (hrole : env.excluded = false) (events : List Event)
    (h0 : (system env).init s) :
    (system env).Meets (Lawful env) s events ↔ (system env).Meets (Clean env) s events :=
  Lts.meets_congr (fun _ _ _ hs h => hs.step hrole h)
    (fun _ e hs => lawful_step_iff hrole e hs) (recorded_init h0)

private def oneUser : Env where
  users := ⟨[{ userId := "u" }], List.pairwise_singleton _ _⟩
  userId := "u"
  permissionsBitmask := some 0
  flush := .userFirst

private def admin : User := { userId := "admin", permissionsBitmask := 64 }

/-- A user without a row. -/
private def noRows : State := ⟨0, .empty, 0, none⟩

/-- An admin sets the quota of one chute, and the user pays for the highest
tier. -/
private def topTier : List Event :=
  [.quotasChange admin (Dict.ofList [("1a0d9245-582a-5cde-8f5b-2da5b9542339", .int 100 "100")]),
    .payment 20 0, .tick 86400]

/-- **A small payment lowers the quota** that was paid for the day before, as
the query takes the row of the chute for the current one. -/
theorem not_quotaRefresh :
    ¬ ∀ (env : Env) (s : State) (events : List Event), env.excluded = false →
      (system env).init s → (system env).Meets (Lawful env) s events := by
  intro h
  have hinit : (system oneUser).init noRows := ⟨rfl, fun _ _ hrow => by cases hrow⟩
  have hmeets := h oneUser noRows (topTier ++ [.payment 3 0]) rfl hinit
  have htop : ((system oneUser).exec noRows topTier).map
      (fun s => (s.now, s.starSet, starQuota oneUser s.rows,
        (s.refresh oneUser 3 0).toOption.map fun r => starQuota oneUser r.1)) =
      some (86400, some 0, 5000, some 300) := by
    decide +kernel
  obtain ⟨s, hrun, hs⟩ := Option.map_eq_some_iff.1 htop
  simp only [Prod.mk.injEq] at hs
  obtain ⟨hnow, hset, hstar, hrefresh⟩ := hs
  have hlaw := hmeets.of_concat hrun
  cases hok : s.refresh oneUser 3 0 with
  | error e =>
    rw [hok] at hrefresh
    cases hrefresh
  | ok r =>
    rw [hok] at hrefresh
    have hlow : starQuota oneUser r.1 = 300 := Option.some.inj hrefresh
    have hkept := (hlaw r.1 r.2 hok).kept 0 hset (by rw [hnow]; decide)
    rw [hstar, hlow] at hkept
    exact absurd hkept (by decide)

theorem quotaRefresh_iff_topTier :
    (oneUser.excluded = false ∧ (system oneUser).init noRows) ∧
      ((system oneUser).Meets (Lawful oneUser) noRows topTier ↔
        (system oneUser).Meets (Clean oneUser) noRows topTier) :=
  have hinit : (system oneUser).init noRows := ⟨rfl, fun _ _ hrow => by cases hrow⟩
  ⟨⟨rfl, hinit⟩, quotaRefresh_iff rfl topTier hinit⟩

end QuotaRefresh

end ChutesApi
