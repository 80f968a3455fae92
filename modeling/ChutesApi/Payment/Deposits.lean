import ChutesApi.Common.Sums
import ChutesApi.Payment.Model.Watcher
/-!
# Developer deposits

A transfer to a user's developer payment address is a deposit. The watcher
records it as a payment, and makes the user a developer once the payments
so recorded reach the deposit that is required. `refund_deposit` takes the
permission away and sends all that the address holds back.

The watcher sums payments; the refund looks at the wallet. No payment is
ever marked `refunded`, though it has the column, so a deposit that has been
sent back still counts (`not_developer_sound`). The permission is sound in
the runs in which no grant counts a refunded deposit (`developer_sound`).
-/

namespace ChutesApi

namespace Deposits

open Watcher (Address Transfer Config Payment paymentId)

variable (cfg : Config)

/-- A transfer to a developer payment address: what it is recorded at, if
it is, and whether it has been sent back. -/
structure Deposit where
  block : ℕ
  transfer : Transfer
  usdAmount : Option ℚ := none
  refunded : Bool := false

structure State where
  watcher : Watcher.State
  /-- The deposits on the chain. -/
  deposits : List Deposit
  /-- The refunds under way, after the commit and before the transfer. -/
  refunding : Address → ℕ
  /-- The permissions granted, each with the total that the user's deposits
  came to that had not been refunded. -/
  grants : List (UserId × ℚ)

/-- Whose deposit it is. -/
def State.owner (s : State) (d : Deposit) : Option UserId :=
  s.watcher.developer d.transfer.receiver

/-- The total of a user's deposits, of a kind. -/
def State.total (s : State) (userId : UserId) (kind : Deposit → Bool) : ℚ :=
  (s.deposits.map fun d =>
    if s.owner d = some userId ∧ kind d then d.usdAmount.getD 0 else 0).sum

/-- The total of those that have not been refunded. -/
def State.unrefunded (s : State) (userId : UserId) : ℚ := s.total userId fun d => !d.refunded

/-- `total_payments`. -/
def totalPayments (w : Watcher.State) (userId : UserId) : ℚ :=
  ((w.payments.filter fun p => p.userId == userId && p.developer).map Payment.usdAmount).sum

/-- The user whose deposit `_handle_developer_deposit` records, if any. -/
def records (w : Watcher.State) (block : ℕ) (t : Transfer) : Option UserId :=
  match w.developer t.receiver with
  | none => none
  | some userId => if w.Duplicate cfg block t then none else some userId

/-- The user to whom it grants the permission, if any. -/
def granted (w : Watcher.State) (block : ℕ) (t : Transfer) : Option UserId :=
  match records cfg w block t with
  | none => none
  | some userId =>
    if totalPayments w userId + Balance.usdAmount t.amount w.fmv ≥ cfg.developerDeposit then
      some userId
    else none

/-- **`_handle_developer_deposit`, by its two effects.** -/
theorem handleDeveloperDeposit_eq (w : Watcher.State) (n : ℕ) (t : Transfer) :
    w.handleDeveloperDeposit cfg n t =
      match records cfg w n t with
      | none => w
      | some userId =>
        { w with
          payments := w.row cfg n t userId true :: w.payments
          isDeveloper := if granted cfg w n t = some userId then
            Function.update w.isDeveloper userId true else w.isDeveloper } := by
  unfold Watcher.State.handleDeveloperDeposit granted records
  cases hdev : w.developer t.receiver with
  | none => rfl
  | some userId =>
    by_cases hdup : w.Duplicate cfg n t
    · simp [hdup]
    · by_cases hreached :
          totalPayments w userId + Balance.usdAmount t.amount w.fmv ≥ cfg.developerDeposit
      · have hcode := hreached
        unfold totalPayments at hcode
        simp only [hdup, if_false, hreached, hcode, if_true]
      · have hcode := hreached
        unfold totalPayments at hcode
        simp only [hdup, if_false, hreached, hcode, reduceCtorEq]

inductive Action
  /-- A transfer to the address is included in a block. -/
  | transfer (block : ℕ) (t : Transfer)
  /-- The watcher comes to it, again perhaps, with the price it has. -/
  | handle (index : ℕ) (fmv : ℚ)
  /-- `refund_deposit`, up to its commit. -/
  | disable (address : Address)
  /-- Its extrinsic, which is included or not. -/
  | transferAll (address : Address) (included : Bool)

/-- The address has a free balance. -/
def State.Funded (s : State) (address : Address) : Prop :=
  ∃ d ∈ s.deposits, d.transfer.receiver = address ∧ d.refunded = false ∧ d.transfer.amount ≠ 0

instance (s : State) (address : Address) : Decidable (s.Funded address) := by
  unfold State.Funded
  infer_instance

/-- The watcher, with the price it has. -/
def State.priced (s : State) (fmv : ℚ) : Watcher.State := { s.watcher with fmv }

/-- The watcher handles a deposit. -/
def State.record (s : State) (index : ℕ) (d : Deposit) (fmv : ℚ) : State :=
  { s with
    watcher := (s.priced fmv).handleDeveloperDeposit cfg d.block d.transfer
    deposits := if (records cfg (s.priced fmv) d.block d.transfer).isSome then
      s.deposits.set index { d with usdAmount := some (Balance.usdAmount d.transfer.amount fmv) }
      else s.deposits }

/-- What it grants by that. -/
def State.handle (s : State) (index : ℕ) (d : Deposit) (fmv : ℚ) : State :=
  { s.record cfg index d fmv with
    grants := s.grants ++
      match granted cfg (s.priced fmv) d.block d.transfer with
      | none => []
      | some userId => [(userId, (s.record cfg index d fmv).unrefunded userId)] }

def step (s : State) : Action → Option State
  | .transfer block t => some { s with deposits := s.deposits ++ [{ block, transfer := t }] }
  | .handle index fmv => s.deposits[index]?.map fun d => s.handle cfg index d fmv
  | .disable address =>
    match s.watcher.developer address with
    | some userId =>
      if s.Funded address then
        some { s with
          watcher := { s.watcher with
            isDeveloper := Function.update s.watcher.isDeveloper userId false }
          refunding := Function.update s.refunding address (s.refunding address + 1) }
      else none
    | none => none
  | .transferAll address included =>
    if s.refunding address = 0 then none
    else
      some { s with
        refunding := Function.update s.refunding address (s.refunding address - 1)
        deposits := if included then s.deposits.map fun d =>
          if d.transfer.receiver = address then { d with refunded := true } else d
          else s.deposits }

/-- The deposits from the first on, over a watcher that has recorded none. -/
def system (w₀ : Watcher.State) : Lts State Action where
  init s := s = ⟨w₀, [], fun _ => 0, []⟩
  step := step cfg

/-- **The condition**: a deposit for which the permission is granted has
not been refunded, and neither has any that it is summed with. -/
def Unrefunded (s : State) : Action → Prop
  | .handle index fmv => ∀ d ∈ s.deposits[index]?,
      ∀ userId ∈ granted cfg (s.priced fmv) d.block d.transfer,
        d.refunded = false ∧
          ∀ d' ∈ s.deposits, s.owner d' = some userId → d'.usdAmount.isSome → d'.refunded = false
  | _ => True

instance (s : State) (a : Action) : Decidable (Unrefunded cfg s a) := by
  cases a <;> unfold Unrefunded <;> infer_instance

/-- **The two views agree**: a user's payments are those of the deposits
recorded, each of which has its payment. -/
structure Inv (s : State) : Prop where
  total : ∀ userId, totalPayments s.watcher userId = s.total userId fun _ => true
  recorded : ∀ d ∈ s.deposits, d.usdAmount.isSome →
    paymentId cfg d.block d.transfer ∈ s.watcher.payments.map Payment.paymentId
  sound : ∀ g ∈ s.grants, cfg.developerDeposit ≤ g.2

variable {cfg} {w : Watcher.State} {s s' : State} {userId : UserId}

/-! ## Sums -/

/-- A user whose deposits have not been refunded. -/
theorem unrefunded_eq_total (h : ∀ d ∈ s.deposits, s.owner d = some userId → d.usdAmount.isSome →
    d.refunded = false) : s.unrefunded userId = s.total userId fun _ => true := by
  refine congrArg List.sum (List.map_congr_left fun d hd => ?_)
  by_cases howner : s.owner d = some userId
  · cases husd : d.usdAmount with
    | none => simp
    | some usd => simp [howner, h d hd howner (by simp [husd])]
  · simp [howner]

/-- Recording a deposit adds it to its owner's total, and to no other. -/
theorem sum_set_recorded {ds : List Deposit} {index : ℕ} {d : Deposit} (hd : ds[index]? = some d)
    (hnone : d.usdAmount = none) (usd : ℚ) (mine : Deposit → Prop) [DecidablePred mine]
    (hmine : mine { d with usdAmount := some usd } ↔ mine d) :
    ((ds.set index { d with usdAmount := some usd }).map fun d =>
        if mine d then d.usdAmount.getD 0 else 0).sum =
      (ds.map fun d => if mine d then d.usdAmount.getD 0 else 0).sum +
        if mine d then usd else 0 := by
  have hset := sum_map_set (b := { d with usdAmount := some usd }) hd fun d =>
    if mine d then d.usdAmount.getD 0 else 0
  have hbefore : (if mine d then d.usdAmount.getD 0 else 0) = 0 := by simp [hnone]
  rw [hbefore, add_zero] at hset
  rw [hset]
  simp only [hmine, Option.getD_some]

/-! ## The invariant -/

theorem records_eq_some {n : ℕ} {t : Transfer} (h : records cfg w n t = some userId) :
    w.developer t.receiver = some userId ∧ ¬ w.Duplicate cfg n t := by
  unfold records at h
  split at h
  · simp at h
  · next userId' hdev =>
    split at h
    · simp at h
    · next hdup =>
      obtain rfl := Option.some.inj h
      exact ⟨hdev, hdup⟩

theorem granted_eq_some {n : ℕ} {t : Transfer} (h : granted cfg w n t = some userId) :
    records cfg w n t = some userId ∧
      cfg.developerDeposit ≤ totalPayments w userId + Balance.usdAmount t.amount w.fmv := by
  unfold granted at h
  split at h
  · simp at h
  · next userId' hrecords =>
    split at h
    · next hreached =>
      obtain rfl := Option.some.inj h
      exact ⟨hrecords, hreached⟩
    · simp at h

/-- **The payments grow by the one that is recorded.** -/
theorem totalPayments_handle (n : ℕ) (t : Transfer) (userId : UserId) :
    totalPayments (w.handleDeveloperDeposit cfg n t) userId = totalPayments w userId +
      if records cfg w n t = some userId then Balance.usdAmount t.amount w.fmv else 0 := by
  rw [handleDeveloperDeposit_eq]
  cases hrecords : records cfg w n t with
  | none => simp
  | some owner =>
    simp only [totalPayments, List.filter_cons, Watcher.State.row, Bool.and_true,
      beq_iff_eq, Option.some.injEq]
    split
    · rw [List.map_cons, List.sum_cons, add_comm]
    · rw [add_zero]

theorem handle_developer (n : ℕ) (t : Transfer) :
    (w.handleDeveloperDeposit cfg n t).developer = w.developer := by
  rw [handleDeveloperDeposit_eq]
  cases records cfg w n t <;> rfl

theorem record_owner {index : ℕ} {d : Deposit} {fmv : ℚ} (d' : Deposit) :
    (s.record cfg index d fmv).owner d' = s.owner d' := by
  unfold State.owner State.record
  rw [handle_developer]
  rfl

/-- A deposit that is recorded had not been. -/
theorem Inv.usdAmount_eq_none (hs : Inv cfg s) {index : ℕ} {d : Deposit} {fmv : ℚ}
    (hd : s.deposits[index]? = some d)
    (hrecords : records cfg (s.priced fmv) d.block d.transfer = some userId) :
    d.usdAmount = none := by
  by_contra hsome
  have hdup := (records_eq_some hrecords).2
  exact hdup (hs.recorded d (List.mem_of_getElem? hd) (Option.ne_none_iff_isSome.1 hsome))

/-- **The deposits' total grows by the one that is recorded.** -/
theorem total_record {index : ℕ} {d : Deposit} (hs : Inv cfg s)
    (hd : s.deposits[index]? = some d) (fmv : ℚ) (userId : UserId) (kind : Deposit → Bool)
    (hkind : ∀ usdAmount, kind { d with usdAmount } = kind d) :
    (s.record cfg index d fmv).total userId kind = s.total userId kind +
      if records cfg (s.priced fmv) d.block d.transfer = some userId ∧ kind d then
        Balance.usdAmount d.transfer.amount fmv else 0 := by
  unfold State.total
  simp only [record_owner]
  cases hrecords : records cfg (s.priced fmv) d.block d.transfer with
  | none => simp [State.record, hrecords]
  | some owner =>
    obtain ⟨howner, -⟩ := records_eq_some hrecords
    replace howner : s.owner d = some owner := howner
    simp only [State.record, hrecords, Option.isSome_some, if_true]
    rw [sum_set_recorded hd (hs.usdAmount_eq_none hd hrecords) _
      (fun d => s.owner d = some userId ∧ kind d) (by simp [State.owner, hkind]), howner]

/-- **A grant that counts no refunded deposit is sound.** -/
theorem Inv.granted_le (hs : Inv cfg s) {index : ℕ} {d : Deposit} {fmv : ℚ}
    (hd : s.deposits[index]? = some d) (hok : Unrefunded cfg s (.handle index fmv))
    (hgranted : granted cfg (s.priced fmv) d.block d.transfer = some userId) :
    cfg.developerDeposit ≤ (s.record cfg index d fmv).unrefunded userId := by
  obtain ⟨hrecords, hreached⟩ := granted_eq_some hgranted
  obtain ⟨hkept, hothers⟩ := hok d hd userId hgranted
  have htotal := total_record hs hd fmv userId (fun d => !d.refunded) fun _ => rfl
  have hsame : s.unrefunded userId = totalPayments s.watcher userId :=
    (unrefunded_eq_total hothers).trans (hs.total userId).symm
  calc cfg.developerDeposit
      ≤ totalPayments (s.priced fmv) userId + Balance.usdAmount d.transfer.amount fmv := hreached
    _ = s.unrefunded userId + Balance.usdAmount d.transfer.amount fmv := by rw [hsame]; rfl
    _ = (s.record cfg index d fmv).unrefunded userId := by
      unfold State.unrefunded
      rw [htotal, if_pos ⟨hrecords, by simp [hkept]⟩]

/-- The handling of a deposit keeps the two views in agreement. -/
theorem Inv.handle (hs : Inv cfg s) {index : ℕ} {d : Deposit} {fmv : ℚ}
    (hd : s.deposits[index]? = some d) (hok : Unrefunded cfg s (.handle index fmv)) :
    Inv cfg (s.handle cfg index d fmv) := by
  refine ⟨fun userId => ?_, fun d' hd' husd => ?_, fun g hg => ?_⟩
  · have hpayments : totalPayments (s.handle cfg index d fmv).watcher userId =
        totalPayments s.watcher userId +
          if records cfg (s.priced fmv) d.block d.transfer = some userId then
            Balance.usdAmount d.transfer.amount fmv else 0 :=
      totalPayments_handle d.block d.transfer userId
    have hdeposits : (s.handle cfg index d fmv).total userId (fun _ => true) =
        (s.record cfg index d fmv).total userId fun _ => true := rfl
    rw [hpayments, hdeposits, total_record hs hd fmv userId (fun _ => true) fun _ => rfl,
      hs.total userId]
    simp
  · -- the payment of the deposit that is recorded is the newest one
    have hgrow : ∀ id, id ∈ s.watcher.payments.map Payment.paymentId →
        id ∈ (s.handle cfg index d fmv).watcher.payments.map Payment.paymentId := by
      intro id hid
      simp only [State.handle, State.record, handleDeveloperDeposit_eq]
      cases records cfg (s.priced fmv) d.block d.transfer with
      | none => exact hid
      | some owner => exact List.mem_cons_of_mem _ hid
    cases hrecords : records cfg (s.priced fmv) d.block d.transfer with
    | none =>
      simp only [State.handle, State.record, hrecords, Option.isSome_none, Bool.false_eq_true,
        if_false] at hd'
      exact hgrow _ (hs.recorded d' hd' husd)
    | some owner =>
      simp only [State.handle, State.record, hrecords, Option.isSome_some, if_true] at hd'
      rcases List.mem_or_eq_of_mem_set hd' with hd' | rfl
      · exact hgrow _ (hs.recorded d' hd' husd)
      · simp only [State.handle, State.record, handleDeveloperDeposit_eq, hrecords]
        exact List.mem_cons_self ..
  · simp only [State.handle, List.mem_append] at hg
    rcases hg with hg | hg
    · exact hs.sound g hg
    · split at hg
      · simp at hg
      · next userId hgranted =>
        rw [List.mem_singleton] at hg
        subst hg
        exact hs.granted_le hd hok hgranted

/-- What is sent back keeps its amount and its payment. -/
theorem Inv.sendBack (hs : Inv cfg s) (address : Address) {refunding : Address → ℕ} :
    Inv cfg { s with
      refunding
      deposits := s.deposits.map fun d =>
        if d.transfer.receiver = address then { d with refunded := true } else d } := by
  refine ⟨fun userId => ?_, fun d hd husd => ?_, hs.sound⟩
  · rw [hs.total userId]
    unfold State.total
    rw [List.map_map]
    refine congrArg List.sum (List.map_congr_left fun d _ => ?_)
    by_cases hto : d.transfer.receiver = address
    · simp [State.owner, hto]
    · simp [State.owner, hto]
  · obtain ⟨d₀, hd₀, rfl⟩ := List.mem_map.1 hd
    split at husd
    · next hto =>
      rw [if_pos hto]
      exact hs.recorded d₀ hd₀ husd
    · next hto =>
      rw [if_neg hto]
      exact hs.recorded d₀ hd₀ husd

/-- **The step lemma.** -/
theorem Inv.step {a : Action} (hs : Inv cfg s) (hok : Unrefunded cfg s a)
    (h : step cfg s a = some s') : Inv cfg s' := by
  cases a with
  | transfer block t =>
    obtain rfl := Option.some.inj h
    refine ⟨fun userId => ?_, fun d hd husd => ?_, hs.sound⟩
    · rw [hs.total userId]
      simp [State.total, State.owner]
    · rw [List.mem_append, List.mem_singleton] at hd
      rcases hd with hd | rfl
      · exact hs.recorded d hd husd
      · simp at husd
  | handle index fmv =>
    obtain ⟨d, hd, rfl⟩ := Option.map_eq_some_iff.1 h
    exact hs.handle hd hok
  | disable address =>
    simp only [Deposits.step] at h
    split at h
    · split at h
      · obtain rfl := Option.some.inj h
        exact ⟨hs.total, hs.recorded, hs.sound⟩
      · simp at h
    · simp at h
  | transferAll address included =>
    simp only [Deposits.step] at h
    split at h
    · simp at h
    · obtain rfl := Option.some.inj h
      cases included with
      | true => exact hs.sendBack address
      | false => exact ⟨hs.total, hs.recorded, hs.sound⟩

/-- **The developer permission is sound**: each grant of it was to a user
whose deposits that had not been refunded reached the required one. -/
theorem developer_sound {w₀ : Watcher.State} (hw : ∀ p ∈ w₀.payments, p.developer = false)
    {as : List Action} (h : (system cfg w₀).Reach (Unrefunded cfg) as s) :
    ∀ g ∈ s.grants, cfg.developerDeposit ≤ g.2 := by
  have hinv : Inv cfg s := by
    refine h.invariant (fun s₀ h₀ => ?_) fun _ _ _ hs hok hstep => hs.step hok hstep
    obtain rfl := h₀
    refine ⟨fun userId => ?_, by simp, by simp⟩
    have hnone : w₀.payments.filter (fun p => p.userId == userId && p.developer) = [] := by
      rw [List.filter_eq_nil_iff]
      intro p hp
      simp [hw p hp]
    simp [totalPayments, hnone, State.total]
  exact hinv.sound

section

private def ss58 (text : String) (h : ':' ∉ text.toList := by decide) : Address := ⟨text, h⟩

private def deposit250 : Config where
  uuid5 name := name
  ss58Encode _ := ss58 "raw"
  maxRecoveryBlocks := 10
  developerDeposit := 250

/-- The user deposits at `D`. -/
private def oneDeveloper : Watcher.State where
  chain := [[]]
  payee _ := none
  developer a := if a = ss58 "D" then some "u" else none
  isDeveloper _ := false
  balance _ := 0
  walletBalance _ := 0
  payments := []
  blockNumber := 0
  phase := .down
  isRunning := false
  paymentAddresses _ := false
  developerPaymentAddresses _ := false
  fmv := 0
  credits := []
  reached := 0

/-- One of the user's transfers. -/
private def deposits (amount : ℕ) : Transfer := ⟨ss58 "S", ss58 "D", amount, none⟩

/-- A deposit of 300, which grants the permission. -/
private def enabled : List Action := [.transfer 1 (deposits 1000000000), .handle 0 300]

theorem developer_sound_enabled : ∃ s : State,
    (system deposit250 oneDeveloper).Reach (Unrefunded deposit250) enabled s ∧
      s.grants = [("u", 300)] ∧ ∀ g ∈ s.grants, deposit250.developerDeposit ≤ g.2 := by
  have hnone : ∀ p ∈ oneDeveloper.payments, p.developer = false := by simp [oneDeveloper]
  have hreach : (system deposit250 oneDeveloper).Reach (Unrefunded deposit250) enabled _ :=
    Lts.reach_of_exec rfl (by decide +kernel) rfl
  exact ⟨_, hreach, by decide +kernel, developer_sound hnone hreach⟩

/-- **A refunded deposit counts again.** The deposit of 300 is sent back,
and a deposit of 3 grants the permission. -/
theorem not_developer_sound : ¬ ∀ (cfg : Config) (w₀ : Watcher.State) (as : List Action)
    (s : State), (∀ p ∈ w₀.payments, p.developer = false) → (system cfg w₀).Run as s →
      ∀ g ∈ s.grants, cfg.developerDeposit ≤ g.2 := by
  intro h
  have hnone : ∀ p ∈ oneDeveloper.payments, p.developer = false := by simp [oneDeveloper]
  let refund : List Action := [.disable (ss58 "D"), .transferAll (ss58 "D") true,
    .transfer 2 (deposits 10000000), .handle 1 300]
  have hreach : (system deposit250 oneDeveloper).Run (enabled ++ refund) _ :=
    Lts.reach_of_exec rfl (Lts.meets_of_forall (fun _ _ _ => trivial) _) rfl
  have hgrant := h deposit250 oneDeveloper _ _ hnone hreach ("u", 3) (by decide +kernel)
  exact absurd hgrant (by decide +kernel)

end

end Deposits

end ChutesApi
