import ChutesApi.Payment.Model.Watcher
import ChutesApi.Python.Str
import Mathlib.Data.List.Nodup
import Mathlib.Data.Nat.Digits.Defs
import Mathlib.Tactic.Ring
/-!
# Payments are credited exactly once

The watcher credits each transfer of the minimum amount to a registered user
once, over any chain and any crashes, in the runs where three things do not
happen (`Guarded`): a block with two such transfers of one sender, one
receiver and one amount, of which the payment id makes one; a skip-ahead
over a block with such a transfer; and a transfer to an address whose user
registers only later, before the watcher is past it.

The invariant ties the rows of `payments` to the credits (`recorded`,
`paid`), so that a block that is processed again credits nothing again, and
the addresses in memory to the users there were when the latest block was
read (`Knows`), so that no transfer is overlooked while the watcher catches
up.
-/

namespace ChutesApi

namespace Watcher

variable (cfg : Config)

/-! ## The law -/

/-- **An event to be credited**: a transfer of the minimum amount to the
payment address of a user who had registered when the block was produced. -/
def Eligible (s : State) (n i : ℕ) (t : Transfer) (user : Payee) : Prop :=
  s.transferAt cfg n i = some t ∧ Balance.minPayment ≤ t.amount ∧
    s.payee t.receiver = some user ∧ user.born ≤ n

def Credit.event (c : Credit) : ℕ × ℕ := (c.block, c.index)

/-- **The law**: every such event of the blocks the watcher has passed is
credited once, no event is credited twice and no other event at all, and
the credits are what the balances have changed by. -/
structure ExactlyOnce (s₀ s : State) : Prop where
  credited : ∀ n i t user, s₀.blockNumber ≤ n → n < s.reached → Eligible cfg s n i t user →
    (s.credits.map Credit.event).count (n, i) = 1
  once : (s.credits.map Credit.event).Nodup
  only : ∀ c ∈ s.credits, ∃ user, Eligible cfg s c.block c.index c.transfer user ∧
    c.userId = user.userId
  balance : ∀ u, s.balance u =
    s₀.balance u + ((s.credits.filter (·.userId == u)).map Credit.usdAmount).sum
  walletBalance : ∀ a, s.walletBalance a = s₀.walletBalance a +
    ((s.credits.filter (·.transfer.receiver == a)).map (·.transfer.amount)).sum

/-! ## The guard -/

/-- Two transfers of one sender, one receiver and one amount. -/
def Transfer.Same (t t' : Transfer) : Prop :=
  t.sender = t'.sender ∧ t.receiver = t'.receiver ∧ t.amount = t'.amount

instance (t t' : Transfer) : Decidable (t.Same t') := by
  unfold Transfer.Same
  infer_instance

/-- A transfer of a block that is to be credited. -/
def State.Pays (s : State) (n : ℕ) (t : Transfer) : Prop :=
  Balance.minPayment ≤ t.amount ∧ ∃ user ∈ s.payee t.receiver, user.born ≤ n

instance (s : State) (n : ℕ) (t : Transfer) : Decidable (s.Pays n t) :=
  match h : s.payee t.receiver with
  | none => isFalse (by simp [State.Pays, h])
  | some user =>
    decidable_of_iff (Balance.minPayment ≤ t.amount ∧ user.born ≤ n) (by simp [State.Pays, h])

def State.transfers (s : State) (n : ℕ) : List Transfer :=
  (s.events n).filterMap (RawEvent.transfer cfg)

/-- No two transfers to be credited are the same. -/
def State.Distinct (s : State) (n : ℕ) : Prop :=
  (s.transfers cfg n).Pairwise fun t t' => ¬(t.Same t' ∧ s.Pays n t)

/-- **The runs the law holds of.** The monitor skips no block with a
transfer to be credited; a block it processes has no two the same; and a
user's address is not among the receivers of the blocks it may still
process when they register. -/
def Guarded (s : State) : Action → Prop
  | .load => ∀ n < MonitorLock.getState cfg.maxRecoveryBlocks s.blockNumber s.head,
      s.reached ≤ n → ∀ t ∈ s.transfers cfg n, ¬s.Pays n t
  | .getEvents =>
    match s.phase with
    | .reading current _ => s.Distinct cfg current
    | _ => True
  | .register _ a _ => ∀ n < s.chain.length, s.blockNumber ≤ n → ∀ t ∈ s.transfers cfg n,
      Balance.minPayment ≤ t.amount → t.receiver ≠ a
  | _ => True

instance (s : State) (a : Action) : Decidable (Guarded cfg s a) := by
  unfold Guarded State.Distinct
  split
  · infer_instance
  · split <;> infer_instance
  · infer_instance
  · infer_instance

/-- The monitor is never further behind than it recovers when it starts. -/
def Recovers (s : State) : Action → Prop
  | .load => s.head - s.blockNumber ≤ cfg.maxRecoveryBlocks
  | _ => True

instance (s : State) (a : Action) : Decidable (Recovers cfg s a) := by
  unfold Recovers
  split <;> infer_instance

/-! ## The payment's name -/

theorem colon_notMem_toString (n : ℕ) : ':' ∉ (toString n).toList :=
  Python.notMem_repr (by decide) n

theorem toString_inj {n n' : ℕ} (h : (toString n).toList = (toString n').toList) : n = n' := by
  have hdigits : Nat.toDigits 10 n = Nat.toDigits 10 n' := by simpa [Nat.repr] using h
  have := congrArg (Nat.ofDigitChars 10 · 0) hdigits
  simpa using this

theorem paymentName_toList (n : ℕ) (t : Transfer) : (paymentName n t).toList =
    (toString n).toList ++ ':' :: (t.receiver.text.toList ++ ':' ::
      (t.sender.text.toList ++ ':' :: (toString t.amount).toList)) := by
  simp only [paymentName, String.toList_append, List.append_assoc]
  rfl

/-- **What a payment's name says**: the block and all of the transfer but
which of the block's events it is. -/
theorem paymentName_inj {n n' : ℕ} {t t' : Transfer} (h : paymentName n t = paymentName n' t') :
    n = n' ∧ t.Same t' := by
  have hl := congrArg String.toList h
  rw [paymentName_toList, paymentName_toList] at hl
  obtain ⟨hn, hl⟩ := Python.eq_of_append_cons (colon_notMem_toString n)
    (colon_notMem_toString n') hl
  obtain ⟨hto, hl⟩ := Python.eq_of_append_cons t.receiver.noColon t'.receiver.noColon hl
  obtain ⟨hfrom, hl⟩ := Python.eq_of_append_cons t.sender.noColon t'.sender.noColon hl
  have haddr : ∀ a b : Address, a.text.toList = b.text.toList → a = b := by
    rintro ⟨a, ha⟩ ⟨b, hb⟩ hab
    obtain rfl : a = b := String.toList_inj.1 hab
    rfl
  exact ⟨toString_inj hn, haddr _ _ hfrom, haddr _ _ hto, toString_inj hl⟩

variable {cfg} {s₀ s s' : State} {n i : ℕ} {t : Transfer} {user : Payee}

theorem paymentId_inj (hid : Function.Injective cfg.uuid5) {n' : ℕ} {t' : Transfer}
    (h : paymentId cfg n t = paymentId cfg n' t') : n = n' ∧ t.Same t' :=
  paymentName_inj (hid h)

/-! ## The chain -/

theorem transferAt_lt (h : s.transferAt cfg n i = some t) : n < s.chain.length := by
  by_contra hn
  simp [State.transferAt, State.events, List.getElem?_eq_none (not_lt.1 hn)] at h

theorem transferAt_produce (block : List RawEvent) (hn : n < s.chain.length) :
    { s with chain := s.chain ++ [block] }.transferAt cfg n i = s.transferAt cfg n i := by
  simp [State.transferAt, State.events, List.getElem?_append_left hn]

theorem mem_transfers (h : s.transferAt cfg n i = some t) : t ∈ s.transfers cfg n := by
  simp only [State.transferAt, Option.bind_eq_some_iff] at h
  obtain ⟨e, he, ht⟩ := h
  exact List.mem_filterMap.2 ⟨e, List.mem_of_getElem? he, ht⟩

theorem Eligible.pays (h : Eligible cfg s n i t user) : s.Pays n t :=
  ⟨h.2.1, user, h.2.2.1, h.2.2.2⟩

/-- **In a block with no two the same, the payment id is the event's.** -/
theorem State.Distinct.index_eq {j : ℕ} {t' : Transfer} {user' : Payee} (hd : s.Distinct cfg n)
    (h : Eligible cfg s n i t user) (h' : Eligible cfg s n j t' user') (hsame : t.Same t') :
    i = j := by
  have hsym : t'.Same t := ⟨hsame.1.symm, hsame.2.1.symm, hsame.2.2.symm⟩
  unfold State.Distinct State.transfers at hd
  rw [List.pairwise_filterMap, List.pairwise_iff_getElem] at hd
  have hi := h.1
  have hj := h'.1
  simp only [State.transferAt, Option.bind_eq_some_iff, List.getElem?_eq_some_iff] at hi hj
  obtain ⟨e, ⟨hil, rfl⟩, hi⟩ := hi
  obtain ⟨e', ⟨hjl, rfl⟩, hj⟩ := hj
  rcases Nat.lt_trichotomy i j with hlt | heq | hlt
  · exact absurd ⟨hsame, h.pays⟩ (hd i j hil hjl hlt t hi t' hj)
  · exact heq
  · exact absurd ⟨hsym, h'.pays⟩ (hd j i hjl hil hlt t' hj t hi)

/-! ## The calls of a block -/

theorem mem_calls_handlePayment :
    .handlePayment i t ∈ s.calls cfg n ↔
      s.transferAt cfg n i = some t ∧ s.paymentAddresses t.receiver := by
  simp only [State.calls, State.transferAt, List.mem_flatMap, Prod.exists, Option.bind_eq_some_iff]
  constructor
  · rintro ⟨e, j, he, hcall⟩
    rw [List.mem_zipIdx_iff_getElem?] at he
    split at hcall
    · simp at hcall
    · next t' ht' =>
      rw [List.mem_append] at hcall
      rcases hcall with h | h <;> split at h <;> simp at h
      next hknown =>
        obtain ⟨rfl, rfl⟩ := h
        exact ⟨⟨e, he, ht'⟩, hknown⟩
  · rintro ⟨⟨e, he, ht⟩, hknown⟩
    refine ⟨e, i, List.mem_zipIdx_iff_getElem?.2 he, ?_⟩
    simp [ht, hknown]

/-! ## The books -/

/-- **What the tables say.** Credits are of events to be credited, and of
all those of the blocks passed; the rows of `payments` are the credits' and
those of developer deposits. -/
structure Books (cfg : Config) (s₀ s : State) : Prop where
  first_le : s₀.blockNumber ≤ s.blockNumber
  saved_le : s.blockNumber ≤ s.reached
  saved_lt : s.blockNumber < s.chain.length
  reached_le : s.reached ≤ s.chain.length
  born_le : ∀ a user, s.payee a = some user → user.born ≤ s.chain.length
  disjoint : ∀ a, (s.payee a).isSome → s.developer a = none
  punctual : ∀ n i t user, s.blockNumber ≤ n → s.transferAt cfg n i = some t →
    s.payee t.receiver = some user → Balance.minPayment ≤ t.amount → user.born ≤ n
  credited : ∀ n i t user, s₀.blockNumber ≤ n → n < s.reached → Eligible cfg s n i t user →
    (n, i) ∈ s.credits.map Credit.event
  once : (s.credits.map Credit.event).Nodup
  only : ∀ c ∈ s.credits, ∃ user, Eligible cfg s c.block c.index c.transfer user ∧
    c.userId = user.userId
  paid : ∀ c ∈ s.credits, s.Duplicate cfg c.block c.transfer
  recorded : ∀ p ∈ s.payments,
    (∃ c ∈ s.credits, p.paymentId = paymentId cfg c.block c.transfer) ∨
      ∃ n t, p.paymentId = paymentId cfg n t ∧ (s.developer t.receiver).isSome
  balance : ∀ u, s.balance u =
    s₀.balance u + ((s.credits.filter (·.userId == u)).map Credit.usdAmount).sum
  walletBalance : ∀ a, s.walletBalance a = s₀.walletBalance a +
    ((s.credits.filter (·.transfer.receiver == a)).map (·.transfer.amount)).sum

/-- **The memory is not in the books.** -/
theorem Books.memory (h : Books cfg s₀ s) (phase : Phase) (isRunning : Bool)
    (paymentAddresses developerPaymentAddresses : Address → Bool) (fmv : ℚ) :
    Books cfg s₀ { s with
      phase, isRunning, paymentAddresses, developerPaymentAddresses, fmv } :=
  ⟨h.first_le, h.saved_le, h.saved_lt, h.reached_le, h.born_le, h.disjoint, h.punctual, h.credited,
    h.once, h.only, h.paid, h.recorded, h.balance, h.walletBalance⟩

theorem Books.produce (h : Books cfg s₀ s) (block : List RawEvent) :
    Books cfg s₀ { s with chain := s.chain ++ [block] } := by
  have hlen : s.chain.length < (s.chain ++ [block]).length := by simp
  refine ⟨h.first_le, h.saved_le, h.saved_lt.trans hlen, h.reached_le.trans hlen.le,
    fun a user ha => (h.born_le a user ha).trans hlen.le, h.disjoint, ?_, ?_, h.once, ?_, h.paid,
    h.recorded, h.balance, h.walletBalance⟩
  · intro n i t user hn ht hu hamt
    rcases Nat.lt_or_ge n s.chain.length with hlt | hge
    · rw [transferAt_produce block hlt] at ht
      exact h.punctual n i t user hn ht hu hamt
    · exact (h.born_le _ user hu).trans hge
  · rintro n i t user hn hlt ⟨ht, hamt, hu, hborn⟩
    rw [transferAt_produce block (hlt.trans_le h.reached_le)] at ht
    exact h.credited n i t user hn hlt ⟨ht, hamt, hu, hborn⟩
  · intro c hc
    obtain ⟨user, ⟨ht, hamt, hu, hborn⟩, hid⟩ := h.only c hc
    refine ⟨user, ⟨?_, hamt, hu, hborn⟩, hid⟩
    rw [transferAt_produce block (transferAt_lt ht)]
    exact ht

/-- A user who registers now is not one whom a block so far pays. -/
theorem eligible_register {a b : Address} {userId : UserId} (ha : s.payee a = none) :
    Eligible cfg { s with
        payee := Function.update s.payee a (some ⟨userId, s.chain.length⟩)
        developer := Function.update s.developer b (some userId) } n i t user ↔
      Eligible cfg s n i t user := by
  constructor
  · rintro ⟨ht, hamt, hu, hborn⟩
    refine ⟨ht, hamt, ?_, hborn⟩
    by_cases hr : t.receiver = a
    · -- its number is at least that of the blocks when it is born
      have hlt := transferAt_lt ht
      obtain rfl : ⟨userId, s.chain.length⟩ = user := by simpa [hr] using hu
      exact absurd hborn (not_le.2 hlt)
    · simpa only [Function.update_of_ne hr] using hu
  · rintro ⟨ht, hamt, hu, hborn⟩
    have hr : t.receiver ≠ a := by
      rintro rfl
      simp [ha] at hu
    exact ⟨ht, hamt, by simpa only [Function.update_of_ne hr] using hu, hborn⟩

theorem Books.register {a b : Address} {userId : UserId} (h : Books cfg s₀ s) (hab : a ≠ b)
    (ha : s.payee a = none) (hda : s.developer a = none) (hb : s.payee b = none)
    (hg : ∀ n < s.chain.length, s.blockNumber ≤ n → ∀ t ∈ s.transfers cfg n,
      Balance.minPayment ≤ t.amount → t.receiver ≠ a) :
    Books cfg s₀ { s with
      payee := Function.update s.payee a (some ⟨userId, s.chain.length⟩)
      developer := Function.update s.developer b (some userId) } := by
  refine ⟨h.first_le, h.saved_le, h.saved_lt, h.reached_le, ?_, ?_, ?_, ?_, h.once, ?_, h.paid, ?_,
    h.balance, h.walletBalance⟩
  · intro a' user ha'
    simp only [Function.update_apply] at ha'
    split at ha'
    · obtain rfl := Option.some.inj ha'
      exact le_rfl
    · exact h.born_le a' user ha'
  · intro a' ha'
    simp only [Function.update_apply] at ha' ⊢
    split at ha'
    · next heq =>
      subst heq
      rw [if_neg hab, hda]
    · rw [if_neg]
      · exact h.disjoint a' ha'
      · rintro rfl
        simp [hb] at ha'
  · intro n i t user hn ht hu hamt
    have hne := hg n (transferAt_lt ht) hn t (mem_transfers ht) hamt
    simp only [Function.update_of_ne hne] at hu
    exact h.punctual n i t user hn ht hu hamt
  · intro n i t user hn hlt he
    exact h.credited n i t user hn hlt ((eligible_register ha).1 he)
  · intro c hc
    obtain ⟨user, he, hid⟩ := h.only c hc
    exact ⟨user, (eligible_register ha).2 he, hid⟩
  · intro p hp
    rcases h.recorded p hp with hc | ⟨n, t, hpid, hdev⟩
    · exact .inl hc
    · refine .inr ⟨n, t, hpid, ?_⟩
      simp only [Function.update_apply]
      split
      · rfl
      · exact hdev

/-! ### The transactions -/

/-- **A recorded event is credited.** If the payment id of an event to be
credited is there, it is by a credit, which is the event's own. -/
theorem Books.credited_of_duplicate (h : Books cfg s₀ s) (hid : Function.Injective cfg.uuid5)
    (hd : s.Distinct cfg n) (he : Eligible cfg s n i t user) (hdup : s.Duplicate cfg n t) :
    (n, i) ∈ s.credits.map Credit.event := by
  obtain ⟨p, hp, hpid⟩ := List.mem_map.1 hdup
  rcases h.recorded p hp with ⟨c, hc, hcid⟩ | ⟨n', t', hid', hdev⟩
  · obtain ⟨rfl, hsame⟩ := paymentId_inj hid (hpid.symm.trans hcid)
    obtain ⟨user', he', -⟩ := h.only c hc
    rw [hd.index_eq he he' hsame]
    exact List.mem_map_of_mem hc
  · -- a deposit's receiver is no payment address
    obtain ⟨-, -, hto, -⟩ := paymentId_inj hid (hpid.symm.trans hid')
    have := h.disjoint t.receiver (by simp [he.2.2.1])
    rw [hto] at this
    simp [this] at hdev

theorem Books.credit (h : Books cfg s₀ s) (he : Eligible cfg s n i t user)
    (hdup : ¬s.Duplicate cfg n t) :
    Books cfg s₀ { s with
      payments := s.row cfg n t user.userId false :: s.payments
      balance := Function.update s.balance user.userId
        (s.balance user.userId + Balance.usdAmount t.amount s.fmv)
      walletBalance := Function.update s.walletBalance t.receiver
        (s.walletBalance t.receiver + t.amount)
      credits := s.credits ++ [⟨n, i, t, user.userId, Balance.usdAmount t.amount s.fmv⟩] } := by
  have hfresh : (n, i) ∉ s.credits.map Credit.event := by
    intro hmem
    obtain ⟨c, hc, hev⟩ := List.mem_map.1 hmem
    obtain ⟨rfl, rfl⟩ := Prod.mk.inj hev
    obtain ⟨user', he', -⟩ := h.only c hc
    obtain rfl := Option.some.inj (he.1.symm.trans he'.1)
    exact hdup (h.paid c hc)
  refine ⟨h.first_le, h.saved_le, h.saved_lt, h.reached_le, h.born_le, h.disjoint, h.punctual,
    ?_, ?_, ?_, ?_, ?_, ?_, ?_⟩
  · intro m j t' user' hm hlt he'
    rw [List.map_append]
    exact List.mem_append_left _ (h.credited m j t' user' hm hlt he')
  · rw [List.map_append, List.nodup_append]
    refine ⟨h.once, List.nodup_singleton _, ?_⟩
    rintro e he' e' he'' rfl
    obtain rfl : e = (n, i) := by simpa [Credit.event] using he''
    exact hfresh he'
  · intro c hc
    rcases List.mem_append.1 hc with hc | hc
    · exact h.only c hc
    · obtain rfl := List.mem_singleton.1 hc
      exact ⟨user, he, rfl⟩
  · intro c hc
    rcases List.mem_append.1 hc with hc | hc
    · exact List.mem_cons_of_mem _ (h.paid c hc)
    · obtain rfl := List.mem_singleton.1 hc
      exact List.mem_cons_self
  · intro p hp
    rcases List.mem_cons.1 hp with rfl | hp
    · exact .inl ⟨_, List.mem_append_right _ (List.mem_singleton_self _), rfl⟩
    · rcases h.recorded p hp with ⟨c, hc, hcid⟩ | hdev
      · exact .inl ⟨c, List.mem_append_left _ hc, hcid⟩
      · exact .inr hdev
  · intro u
    rcases eq_or_ne user.userId u with rfl | hu
    · simp [List.filter_append, h.balance, add_assoc]
    · simp [List.filter_append, Function.update_of_ne hu.symm, h.balance u, hu]
  · intro a
    rcases eq_or_ne t.receiver a with rfl | ha
    · simp [List.filter_append, h.walletBalance, add_assoc]
    · simp [List.filter_append, Function.update_of_ne ha.symm, h.walletBalance a, ha]

/-- **A payment's transaction** keeps the books, and its event is credited
after it. -/
theorem Books.handlePayment (h : Books cfg s₀ s) (hid : Function.Injective cfg.uuid5)
    (hd : s.Distinct cfg n) (hn : s.blockNumber ≤ n) (ht : s.transferAt cfg n i = some t) :
    Books cfg s₀ (s.handlePayment cfg n i t) ∧ ∀ user, Eligible cfg s n i t user →
      (n, i) ∈ (s.handlePayment cfg n i t).credits.map Credit.event := by
  unfold State.handlePayment
  cases hu : s.payee t.receiver with
  | none => exact ⟨h, fun user he => absurd (hu.symm.trans he.2.2.1) (by simp)⟩
  | some user =>
    by_cases hskip : t.amount < Balance.minPayment ∨ s.Duplicate cfg n t
    · simp only [if_pos hskip]
      refine ⟨h, fun user' he => ?_⟩
      rcases hskip with hdust | hdup
      · exact absurd he.2.1 (not_le.2 hdust)
      · exact h.credited_of_duplicate hid hd he hdup
    · simp only [if_neg hskip]
      rw [not_or, not_lt] at hskip
      have he : Eligible cfg s n i t user :=
        ⟨ht, hskip.1, hu, h.punctual n i t user hn ht hu hskip.1⟩
      refine ⟨h.credit he hskip.2, fun _ _ => ?_⟩
      rw [List.map_append]
      exact List.mem_append_right _ (List.mem_singleton_self _)

/-- **A deposit's transaction** keeps the books. -/
theorem Books.handleDeveloperDeposit (h : Books cfg s₀ s) :
    Books cfg s₀ (s.handleDeveloperDeposit cfg n t) := by
  unfold State.handleDeveloperDeposit
  split
  · exact h
  · next userId hdev =>
    split
    · exact h
    · refine ⟨h.first_le, h.saved_le, h.saved_lt, h.reached_le, h.born_le, h.disjoint, h.punctual,
        h.credited, h.once, h.only, fun c hc => List.mem_cons_of_mem _ (h.paid c hc), ?_, h.balance,
        h.walletBalance⟩
      intro p hp
      rcases List.mem_cons.1 hp with rfl | hp
      · exact .inr ⟨n, t, rfl, by simp [hdev]⟩
      · exact h.recorded p hp

variable (cfg) in
/-- **What a call leaves alone**: all but the tables it writes. -/
theorem call_eq (c : Call) : ∃ payments balance walletBalance isDeveloper credits,
    s.call cfg n c = { s with
      payments, balance, walletBalance, isDeveloper, credits := s.credits ++ credits } := by
  cases c with
  | handlePayment i t =>
    simp only [State.call, State.handlePayment]
    split
    · exact ⟨_, _, _, _, [], by rw [List.append_nil]⟩
    · split
      · exact ⟨_, _, _, _, [], by rw [List.append_nil]⟩
      · exact ⟨_, _, _, _, _, rfl⟩
  | handleDeveloperDeposit i t =>
    simp only [State.call, State.handleDeveloperDeposit]
    split
    · exact ⟨_, _, _, _, [], by rw [List.append_nil]⟩
    · split
      · exact ⟨_, _, _, _, [], by rw [List.append_nil]⟩
      · exact ⟨_, _, _, _, [], by rw [List.append_nil]⟩

/-! ## The monitor -/

/-- The block the monitor is at is not before the saved one. -/
def Near (s : State) (current : ℕ) : Prop := s.blockNumber ≤ current ∧ current ≤ s.reached

/-- **The addresses in memory** are at least those of the users who had
registered when a block was produced. -/
def Knows (s : State) (latest : ℕ) : Prop :=
  ∀ a user, s.payee a = some user → user.born ≤ latest → s.paymentAddresses a

/-- The calls still to make are of the block's transfers to known addresses,
and every event to be credited has its call among them or is credited. -/
structure Pending (cfg : Config) (s : State) (current : ℕ) (calls : List Call) : Prop where
  transfer : ∀ i t, .handlePayment i t ∈ calls → s.transferAt cfg current i = some t
  pending : ∀ i t user, Eligible cfg s current i t user →
    (current, i) ∈ s.credits.map Credit.event ∨ .handlePayment i t ∈ calls

/-- What holds of the monitor's memory, by its phase. -/
def PhaseOk (cfg : Config) (s : State) : Phase → Prop
  | .down => True
  | .loaded current => Near s current ∧ current < s.chain.length
  | .fetched current latest => Near s current ∧ current ≤ latest ∧ latest < s.chain.length
  | .loop current latest => Near s current ∧
      (s.isRunning → current ≤ latest ∧ latest < s.chain.length ∧ Knows s latest)
  | .polling current => Near s current ∧ current < s.chain.length
  | .advanced current latest => Near s current ∧ current ≤ latest ∧ latest < s.chain.length ∧
      (s.isRunning → current < latest)
  | .reading current latest => Near s current ∧ current ≤ latest ∧ latest < s.chain.length ∧
      (s.isRunning → current < latest) ∧ Knows s latest
  | .handling current latest calls => Near s current ∧ current ≤ latest ∧
      latest < s.chain.length ∧ (s.isRunning → current < latest) ∧ Knows s latest ∧
      s.Distinct cfg current ∧ Pending cfg s current calls

/-- **The invariant**: the books, and what the monitor has in memory. -/
structure Inv (cfg : Config) (s₀ s : State) : Prop where
  books : Books cfg s₀ s
  phase : PhaseOk cfg s s.phase

theorem lt_of_le_head {latest : ℕ} (h : s.chain ≠ []) (hl : latest ≤ s.head) :
    latest < s.chain.length := by
  have := List.length_pos_iff.2 h
  unfold State.head at hl
  omega

theorem Books.chain_ne_nil (h : Books cfg s₀ s) : s.chain ≠ [] :=
  List.length_pos_iff.1 (Nat.zero_lt_of_lt h.saved_lt)

theorem Books.head_lt (h : Books cfg s₀ s) : s.head < s.chain.length :=
  lt_of_le_head h.chain_ne_nil le_rfl

theorem Books.lt_iff_le_head (h : Books cfg s₀ s) : n < s.chain.length ↔ n ≤ s.head := by
  have := h.saved_lt
  unfold State.head
  omega

/-! ### Steps of the chain and the users -/

theorem transfers_produce (block : List RawEvent) (hn : n < s.chain.length) :
    { s with chain := s.chain ++ [block] }.transfers cfg n = s.transfers cfg n := by
  simp [State.transfers, State.events, List.getElem?_append_left hn]

theorem PhaseOk.produce {phase : Phase} (h : PhaseOk cfg s phase) (block : List RawEvent) :
    PhaseOk cfg { s with chain := s.chain ++ [block] } phase := by
  have hlen : s.chain.length < (s.chain ++ [block]).length := by simp
  cases phase with
  | down => exact h
  | loaded current => exact ⟨h.1, h.2.trans hlen⟩
  | fetched current latest => exact ⟨h.1, h.2.1, h.2.2.trans hlen⟩
  | loop current latest =>
    exact ⟨h.1, fun hr => ⟨(h.2 hr).1, (h.2 hr).2.1.trans hlen, (h.2 hr).2.2⟩⟩
  | polling current => exact ⟨h.1, h.2.trans hlen⟩
  | advanced current latest => exact ⟨h.1, h.2.1, h.2.2.1.trans hlen, h.2.2.2⟩
  | reading current latest => exact ⟨h.1, h.2.1, h.2.2.1.trans hlen, h.2.2.2⟩
  | handling current latest calls =>
    obtain ⟨h1, h2, h3, h4, h5, h6, h7⟩ := h
    have hcur : current < s.chain.length := h2.trans_lt h3
    refine ⟨h1, h2, h3.trans hlen, h4, h5, ?_, fun i t hc => ?_, fun i t user he => ?_⟩
    · unfold State.Distinct
      rw [transfers_produce block hcur]
      exact h6
    · rw [transferAt_produce block hcur]
      exact h7.transfer i t hc
    · refine h7.pending i t user ⟨?_, he.2⟩
      rw [← transferAt_produce block hcur]
      exact he.1

theorem pays_register {a b : Address} {userId : UserId} (hn : n < s.chain.length)
    (h : { s with
      payee := Function.update s.payee a (some ⟨userId, s.chain.length⟩)
      developer := Function.update s.developer b (some userId) }.Pays n t) : s.Pays n t := by
  obtain ⟨hamt, user, hu, hborn⟩ := h
  simp only [Function.update_apply, Option.mem_def] at hu
  split at hu
  · obtain rfl := Option.some.inj hu
    exact absurd hborn (not_le.2 hn)
  · exact ⟨hamt, user, hu, hborn⟩

/-- A user who registers now was not born when the latest block read was
produced. -/
theorem PhaseOk.register {phase : Phase} {a b : Address} {userId : UserId}
    (h : PhaseOk cfg s phase) (ha : s.payee a = none) :
    PhaseOk cfg { s with
      payee := Function.update s.payee a (some ⟨userId, s.chain.length⟩)
      developer := Function.update s.developer b (some userId) } phase := by
  have hknows : ∀ latest, latest < s.chain.length → Knows s latest →
      Knows { s with
        payee := Function.update s.payee a (some ⟨userId, s.chain.length⟩)
        developer := Function.update s.developer b (some userId) } latest := by
    intro latest hlt hk a' user hu hborn
    simp only [Function.update_apply] at hu
    split at hu
    · obtain rfl := Option.some.inj hu
      exact absurd hborn (not_le.2 hlt)
    · exact hk a' user hu hborn
  cases phase with
  | down => exact h
  | loaded current => exact h
  | fetched current latest => exact h
  | loop current latest =>
    exact ⟨h.1, fun hr => ⟨(h.2 hr).1, (h.2 hr).2.1, hknows latest (h.2 hr).2.1 (h.2 hr).2.2⟩⟩
  | polling current => exact h
  | advanced current latest => exact h
  | reading current latest =>
    exact ⟨h.1, h.2.1, h.2.2.1, h.2.2.2.1, hknows latest h.2.2.1 h.2.2.2.2⟩
  | handling current latest calls =>
    obtain ⟨h1, h2, h3, h4, h5, h6, h7⟩ := h
    refine ⟨h1, h2, h3, h4, hknows latest h3 h5, ?_, h7.transfer, fun i t user he => ?_⟩
    · refine List.Pairwise.imp (fun {t t'} hd => ?_) h6
      rintro ⟨hsame, hpays⟩
      exact hd ⟨hsame, pays_register (h2.trans_lt h3) hpays⟩
    · exact h7.pending i t user ((eligible_register ha).1 he)

/-! ### Steps of the monitor -/

theorem knows_refresh (s : State) (latest : ℕ) : Knows s.refreshAddresses latest := by
  intro a user hu _
  have hu' : s.payee a = some user := hu
  simp [State.refreshAddresses, hu']

/-- The monitor goes on to a block, when every event to be credited of those
it passes there is. -/
theorem Books.goto (h : Books cfg s₀ s) {current : ℕ} (phase : Phase)
    (hcur : current ≤ s.chain.length)
    (hnew : ∀ n i t user, s.reached ≤ n → n < current → Eligible cfg s n i t user →
      (n, i) ∈ s.credits.map Credit.event) : Books cfg s₀ (s.goto current phase) := by
  refine ⟨h.first_le, h.saved_le.trans (le_max_left _ _), h.saved_lt, max_le h.reached_le hcur,
    h.born_le, h.disjoint, h.punctual, ?_, h.once, h.only, h.paid, h.recorded, h.balance,
    h.walletBalance⟩
  intro n i t user hn hlt he
  rcases Nat.lt_or_ge n s.reached with hr | hr
  · exact h.credited n i t user hn hr he
  · exact hnew n i t user hr ((lt_max_iff.1 hlt).resolve_left (not_lt.2 hr)) he

/-- The load, which skips no event to be credited. -/
theorem Books.load (h : Books cfg s₀ s) {current : ℕ} (phase : Phase)
    (hcur : current < s.chain.length)
    (hg : ∀ n < current, s.reached ≤ n → ∀ t ∈ s.transfers cfg n, ¬s.Pays n t) :
    Books cfg s₀ (s.goto current phase) :=
  h.goto phase hcur.le fun n _ t _ hr hlt he =>
    absurd he.pays (hg n hlt hr t (mem_transfers he.1))

/-- The end of a block, when every event of it that was to be credited is. -/
theorem Books.finish (h : Books cfg s₀ s) {current : ℕ} (phase : Phase)
    (hnear : Near s current) (hcur : current < s.chain.length)
    (hdone : ∀ i t user, Eligible cfg s current i t user →
      (current, i) ∈ s.credits.map Credit.event) :
    Books cfg s₀ (s.goto (current + 1) phase) := by
  refine h.goto phase hcur fun n i t user hr hlt he => ?_
  -- the one block not passed before is the current one
  obtain rfl : n = current := by
    have := hnear.2
    omega
  exact hdone i t user he

/-- The save, of a block the monitor has passed. -/
theorem Books.save (h : Books cfg s₀ s) {current : ℕ} (hle : s.blockNumber ≤ current)
    (hreached : current ≤ s.reached) (hcur : current < s.chain.length) :
    Books cfg s₀ { s with blockNumber := current } :=
  ⟨h.first_le.trans hle, hreached, hcur, h.reached_le, h.born_le, h.disjoint,
    fun n i t user hn => h.punctual n i t user (hle.trans hn), h.credited, h.once, h.only, h.paid,
    h.recorded, h.balance, h.walletBalance⟩

/-- **A call keeps the books**, and what is pending is then credited or among
the other calls. -/
theorem Books.call (h : Books cfg s₀ s) (hid : Function.Injective cfg.uuid5) {current : ℕ}
    {c : Call} {calls : List Call} (hnear : Near s current) (hd : s.Distinct cfg current)
    (hp : Pending cfg s current (c :: calls)) :
    Books cfg s₀ (s.call cfg current c) ∧ ∀ i t user, Eligible cfg s current i t user →
      (current, i) ∈ (s.call cfg current c).credits.map Credit.event ∨
        .handlePayment i t ∈ calls := by
  have hold : ∀ e ∈ s.credits.map Credit.event,
      e ∈ (s.call cfg current c).credits.map Credit.event := by
    obtain ⟨_, _, _, _, credits, heq⟩ := call_eq cfg (s := s) (n := current) c
    intro e he
    rw [heq, List.map_append]
    exact List.mem_append_left _ he
  cases c with
  | handlePayment j t' =>
    obtain ⟨hbooks, hcredited⟩ :=
      h.handlePayment hid hd hnear.1 (hp.transfer j t' List.mem_cons_self)
    refine ⟨hbooks, fun i t user he => ?_⟩
    rcases hp.pending i t user he with hc | hc
    · exact .inl (hold _ hc)
    · rcases List.mem_cons.1 hc with heq | hc
      · obtain ⟨rfl, rfl⟩ := Call.handlePayment.inj heq
        exact .inl (hcredited user he)
      · exact .inr hc
  | handleDeveloperDeposit j t' =>
    refine ⟨h.handleDeveloperDeposit, fun i t user he => ?_⟩
    rcases hp.pending i t user he with hc | hc
    · exact .inl (hold _ hc)
    · exact .inr (by simpa using hc)

/-- The flag only falls, and nothing needs it false. -/
theorem PhaseOk.stop {phase : Phase} (h : PhaseOk cfg s phase) :
    PhaseOk cfg { s with isRunning := false } phase := by
  cases phase with
  | down => exact h
  | loaded current => exact h
  | fetched current latest => exact h
  | loop current latest => exact ⟨h.1, fun hr => by simp at hr⟩
  | polling current => exact h
  | advanced current latest => exact ⟨h.1, h.2.1, h.2.2.1, fun hr => by simp at hr⟩
  | reading current latest => exact ⟨h.1, h.2.1, h.2.2.1, fun hr => by simp at hr, h.2.2.2.2⟩
  | handling current latest calls =>
    obtain ⟨h1, h2, h3, -, h5, h6, h7⟩ := h
    exact ⟨h1, h2, h3, fun hr => by simp at hr, h5, h6, h7.transfer, h7.pending⟩

theorem getState_le (maxRecoveryBlocks : ℕ) {saved head : ℕ} (h : saved ≤ head) :
    MonitorLock.getState maxRecoveryBlocks saved head ≤ head := by
  unfold MonitorLock.getState
  split <;> omega

/-- **The step lemma.** -/
theorem Inv.step {a : Action} (h : Inv cfg s₀ s) (hid : Function.Injective cfg.uuid5)
    (hg : Guarded cfg s a) (hstep : step cfg s a = some s') : Inv cfg s₀ s' := by
  obtain ⟨hb, hp⟩ := h
  cases a with
  | produce block =>
    obtain rfl := Option.some.inj hstep
    exact ⟨hb.produce block, hp.produce block⟩
  | register userId a b =>
    simp only [Watcher.step, Option.ite_none_right_eq_some, Option.some.injEq] at hstep
    obtain ⟨⟨hab, ha, hda, hpb, -⟩, rfl⟩ := hstep
    exact ⟨hb.register hab ha hda hpb hg, hp.register ha⟩
  | load =>
    simp only [Watcher.step] at hstep
    split at hstep
    · obtain rfl := Option.some.inj hstep
      have hle : MonitorLock.getState cfg.maxRecoveryBlocks s.blockNumber s.head ≤ s.head :=
        getState_le _ (hb.lt_iff_le_head.1 hb.saved_lt)
      have hlt := hb.lt_iff_le_head.2 hle
      refine ⟨(hb.load _ hlt hg).memory _ _ _ _ _, ⟨?_, le_max_right _ _⟩, hlt⟩
      exact MonitorLock.le_getState ..
    · simp at hstep
  | getLatestBlock =>
    simp only [Watcher.step] at hstep
    split at hstep
    · next current hphase =>
      obtain rfl := Option.some.inj hstep
      rw [hphase] at hp
      exact ⟨hb.memory _ _ _ _ _, hp.1, hb.lt_iff_le_head.1 hp.2, hb.head_lt⟩
    · simp at hstep
  | refresh fmv =>
    simp only [Watcher.step] at hstep
    split at hstep
    · next current latest hphase =>
      obtain rfl := Option.some.inj hstep
      rw [hphase] at hp
      exact ⟨hb.memory _ _ _ _ _, hp.1, fun _ => ⟨hp.2.1, hp.2.2, knows_refresh s latest⟩⟩
    · next current latest hphase =>
      obtain rfl := Option.some.inj hstep
      rw [hphase] at hp
      exact ⟨hb.memory _ _ _ _ _, hp.1, hp.2.1, hp.2.2.1, hp.2.2.2, knows_refresh s latest⟩
    · simp at hstep
  | loop =>
    simp only [Watcher.step] at hstep
    split at hstep
    · next current latest hphase =>
      obtain rfl := Option.some.inj hstep
      rw [hphase] at hp
      refine ⟨hb.memory _ _ _ _ _, ?_⟩
      -- It stops, waits at the head, or goes on to the next block.
      by_cases hrun : s.isRunning = false
      · simp only [hrun, if_true]
        trivial
      · obtain ⟨hle, hlt, hk⟩ := hp.2 (by simpa using hrun)
        by_cases heq : current = latest
        · simp only [hrun, heq, if_true]
          exact ⟨heq ▸ hp.1, hlt⟩
        · simp only [hrun, heq, if_false]
          exact ⟨hp.1, hle, hlt, fun _ => lt_of_le_of_ne hle heq, hk⟩
    · simp at hstep
  | poll =>
    simp only [Watcher.step] at hstep
    split at hstep
    · next current hphase =>
      obtain rfl := Option.some.inj hstep
      rw [hphase] at hp
      refine ⟨hb.memory _ _ _ _ _, ?_⟩
      by_cases hrun : s.isRunning = false
      · simp only [hrun, if_true]
        exact ⟨hp.1, le_rfl, hp.2, fun hr => by simp at hr⟩
      · by_cases heq : s.head = current
        · simp only [hrun, heq, if_true]
          exact hp
        · simp only [hrun, heq, if_false]
          have hle := hb.lt_iff_le_head.1 hp.2
          exact ⟨hp.1, hle, hb.head_lt, fun _ => lt_of_le_of_ne hle (Ne.symm heq)⟩
    · simp at hstep
  | getEvents =>
    simp only [Watcher.step] at hstep
    split at hstep
    · next current latest hphase =>
      obtain rfl := Option.some.inj hstep
      simp only [Guarded, hphase] at hg
      rw [hphase] at hp
      obtain ⟨h1, h2, h3, h4, h5⟩ := hp
      refine ⟨hb.memory _ _ _ _ _, h1, h2, h3, h4, h5, hg, fun i t hc => ?_, fun i t user he => ?_⟩
      · exact (mem_calls_handlePayment.1 hc).1
      · exact .inr (mem_calls_handlePayment.2
          ⟨he.1, h5 _ user he.2.2.1 (he.2.2.2.trans h2)⟩)
    · simp at hstep
  | handle =>
    simp only [Watcher.step] at hstep
    split at hstep
    · next current latest c calls hphase =>
      obtain rfl := Option.some.inj hstep
      rw [hphase] at hp
      obtain ⟨h1, h2, h3, h4, h5, h6, h7⟩ := hp
      obtain ⟨hbooks, hpending⟩ := hb.call hid h1 h6 h7
      refine ⟨hbooks.memory _ _ _ _ _, ?_⟩
      obtain ⟨_, _, _, _, credits, heq⟩ := call_eq cfg (s := s) (n := current) c
      rw [heq] at hpending ⊢
      exact ⟨h1, h2, h3, h4, h5, h6,
        fun i t hc => h7.transfer i t (List.mem_cons_of_mem _ hc), hpending⟩
    · simp at hstep
  | save committed =>
    simp only [Watcher.step] at hstep
    split at hstep
    · next current latest hphase =>
      obtain rfl := Option.some.inj hstep
      rw [hphase] at hp
      obtain ⟨h1, h2, h3, h4, h5, h6, h7⟩ := hp
      have hcur := h2.trans_lt h3
      have hdone : ∀ i t user, Eligible cfg s current i t user →
          (current, i) ∈ s.credits.map Credit.event := fun i t user he => by
        simpa using h7.pending i t user he
      have hfin := (hb.finish (.loop (current + 1) latest) h1 hcur hdone)
      have hr : s.isRunning → current + 1 ≤ latest ∧ latest < s.chain.length ∧ Knows s latest :=
        fun hr => ⟨h4 hr, h3, h5⟩
      -- The monitor goes on to the next block whether the row is saved or not.
      cases committed with
      | true =>
        refine ⟨hfin.save h1.1 ?_ hcur, ⟨Nat.le_succ _, le_max_right _ _⟩, hr⟩
        exact (Nat.le_succ _).trans (le_max_right _ _)
      | false => exact ⟨hfin, ⟨h1.1.trans (Nat.le_succ _), le_max_right _ _⟩, hr⟩
    · simp at hstep
  | stop =>
    obtain rfl := Option.some.inj hstep
    exact ⟨hb.memory _ _ _ _ _, hp.stop⟩
  | crash =>
    obtain rfl := Option.some.inj hstep
    exact ⟨hb.memory _ _ _ _ _, trivial⟩

theorem Initial.inv (h : Initial s₀) : Inv cfg s₀ s₀ := by
  refine ⟨⟨le_rfl, h.reached.ge, ?_, ?_, ?_, h.disjoint, ?_, ?_, ?_, ?_, ?_, ?_, ?_, ?_⟩, ?_⟩
  · have := h.chain
    omega
  · have := h.chain
    have := h.reached
    omega
  · intro a user ha
    have := h.born a user ha
    have := h.chain
    omega
  · intro n i t user hn _ hu _
    exact (h.born _ user hu).trans hn
  · intro n i t user hn hlt _
    have := h.reached
    omega
  · simp [h.credits]
  · simp [h.credits]
  · simp [h.credits]
  · simp [h.payments]
  · simp [h.credits]
  · simp [h.credits]
  · rw [h.down]
    trivial

/-! ## Progress -/

/-- One step that the monitor takes of itself. -/
def Own (cfg : Config) (s s' : State) : Prop := ∃ a : Action, a.own ∧ step cfg s a = some s'

/-- The monitor gets to a block, on the chain as it is. -/
def GetsTo (cfg : Config) (s : State) (n : ℕ) : Prop :=
  ∃ s', Relation.ReflTransGen (Own cfg) s s' ∧ s'.chain = s.chain ∧ n ≤ s'.reached

theorem GetsTo.head (h : Own cfg s s') (hc : s'.chain = s.chain) (hs : GetsTo cfg s' n) :
    GetsTo cfg s n := by
  obtain ⟨u, hu, hcu, hn⟩ := hs
  exact ⟨u, .head h hu, hcu.trans hc, hn⟩

theorem GetsTo.trans (h : Relation.ReflTransGen (Own cfg) s s') (hc : s'.chain = s.chain)
    (hs : GetsTo cfg s' n) : GetsTo cfg s n := by
  obtain ⟨u, hu, hcu, hn⟩ := hs
  exact ⟨u, h.trans hu, hcu.trans hc, hn⟩

variable (cfg)

theorem own_loop {current latest : ℕ} (hs : s.phase = .loop current latest) (hrun : s.isRunning) :
    Own cfg s { s with
      phase := if current = latest then .polling current else .reading current latest } :=
  ⟨.loop, rfl, by simp [Watcher.step, hs, hrun]⟩

theorem own_poll {current : ℕ} (hs : s.phase = .polling current) (hrun : s.isRunning)
    (hne : s.head ≠ current) : Own cfg s { s with phase := .advanced current s.head } :=
  ⟨.poll, rfl, by simp [Watcher.step, hs, hrun, hne]⟩

theorem own_refresh {current latest : ℕ} (hs : s.phase = .advanced current latest) :
    Own cfg s { s.refreshAddresses with phase := .reading current latest } :=
  ⟨.refresh s.fmv, rfl, by simp only [Watcher.step, hs]; rfl⟩

theorem own_save {current latest : ℕ} (hs : s.phase = .handling current latest []) :
    Own cfg s { s.goto (current + 1) (.loop (current + 1) latest) with blockNumber := current } :=
  ⟨.save true, rfl, by simp [Watcher.step, hs]⟩

/-- A block's calls come to their end, and the monitor goes to the next. -/
theorem handles_all (current latest : ℕ) (calls : List Call) :
    ∀ s : State, s.phase = .handling current latest calls →
      ∃ s', Relation.ReflTransGen (Own cfg) s s' ∧ s'.chain = s.chain ∧
        s'.isRunning = s.isRunning ∧ s'.phase = .loop (current + 1) latest ∧
        current + 1 ≤ s'.reached := by
  induction calls with
  | nil =>
    intro s hs
    exact ⟨_, .single (own_save cfg hs), rfl, rfl, rfl, le_max_right _ _⟩
  | cons c calls ih =>
    intro s hs
    obtain ⟨_, _, _, _, credits, heq⟩ := call_eq cfg (s := s) (n := current) c
    obtain ⟨s', hrun, hc, hr, hp, hn⟩ :=
      ih { s.call cfg current c with phase := .handling current latest calls } rfl
    refine ⟨s', .head ⟨.handle, rfl, by simp only [Watcher.step, hs]⟩ hrun, ?_, ?_, hp, hn⟩
    · rw [hc, heq]
    · rw [hr, heq]

theorem passes_block {current latest : ℕ} (hs : s.phase = .reading current latest) :
    ∃ s', Relation.ReflTransGen (Own cfg) s s' ∧ s'.chain = s.chain ∧
      s'.isRunning = s.isRunning ∧ s'.phase = .loop (current + 1) latest ∧
      current + 1 ≤ s'.reached := by
  obtain ⟨s', hrun, h⟩ := handles_all cfg current latest (s.calls cfg current)
    { s with phase := .handling current latest (s.calls cfg current) } rfl
  exact ⟨s', .head ⟨.getEvents, rfl, by simp only [Watcher.step, hs]⟩ hrun, h⟩

/-- Behind the head, the monitor goes on to read its block. -/
theorem goes_on {current latest : ℕ} (hs : s.phase = .loop current latest) (hcl : current ≤ latest)
    (hlh : latest ≤ s.head) (hlt : current < s.head) (hrun : s.isRunning) :
    ∃ s' latest', Relation.ReflTransGen (Own cfg) s s' ∧ s'.chain = s.chain ∧
      s'.isRunning = s.isRunning ∧ s'.phase = .reading current latest' ∧
      current < latest' ∧ latest' ≤ s.head := by
  have hloop := own_loop cfg hs hrun
  rcases Nat.eq_or_lt_of_le hcl with rfl | hcl
  · rw [if_pos rfl] at hloop
    have hpoll : Own cfg _ { s with phase := .advanced current s.head } :=
      own_poll cfg (s := { s with phase := .polling current }) rfl hrun hlt.ne'
    have hrefresh := own_refresh cfg (s := { s with phase := .advanced current s.head }) rfl
    exact ⟨_, s.head, .head hloop (.head hpoll (.single hrefresh)), rfl, rfl, rfl, hlt, le_rfl⟩
  · rw [if_neg hcl.ne] at hloop
    exact ⟨_, latest, .single hloop, rfl, rfl, rfl, hcl, hlh⟩

/-- **From the head of the loop, the monitor gets to the chain's head.** -/
theorem getsTo_of_loop (k : ℕ) : ∀ (s : State) (current latest : ℕ), s.head - current ≤ k →
    s.phase = .loop current latest → current ≤ latest → latest ≤ s.head →
      current ≤ s.reached → s.isRunning → GetsTo cfg s s.head := by
  induction k with
  | zero =>
    intro s current latest hk hs hcl hlh hreached hrun
    exact ⟨s, .refl, rfl, by omega⟩
  | succ k ih =>
    intro s current latest hk hs hcl hlh hreached hrun
    rcases Nat.eq_or_lt_of_le (hcl.trans hlh) with heq | hlt
    · exact ⟨s, .refl, rfl, heq ▸ hreached⟩
    obtain ⟨s₁, latest', hrun₁, hc₁, hr₁, hp₁, hlt', hle'⟩ :=
      goes_on cfg hs hcl hlh hlt hrun
    obtain ⟨s₂, hrun₂, hc₂, hr₂, hp₂, hn₂⟩ := passes_block cfg hp₁
    have hc : s₂.chain = s.chain := hc₂.trans hc₁
    have hhead : s₂.head = s.head := by rw [State.head, State.head, hc]
    have hgets := ih s₂ (current + 1) latest' (by omega) hp₂ hlt' (by omega) hn₂
      (hr₂.trans (hr₁.trans hrun))
    rw [hhead] at hgets
    exact .trans (hrun₁.trans hrun₂) hc hgets

theorem getsTo_of_handling {current latest : ℕ} {calls : List Call}
    (hs : s.phase = .handling current latest calls) (hcl : current < latest)
    (hlh : latest ≤ s.head) (hrun : s.isRunning) : GetsTo cfg s s.head := by
  obtain ⟨s₁, hrun₁, hc₁, hr₁, hp₁, hn₁⟩ := handles_all cfg current latest calls s hs
  have hhead : s₁.head = s.head := by rw [State.head, State.head, hc₁]
  have hgets := getsTo_of_loop cfg _ s₁ (current + 1) latest le_rfl hp₁ hcl
    (hlh.trans hhead.ge) hn₁ (hr₁.trans hrun)
  rw [hhead] at hgets
  exact .trans hrun₁ hc₁ hgets

theorem getsTo_of_reading {current latest : ℕ} (hs : s.phase = .reading current latest)
    (hcl : current < latest) (hlh : latest ≤ s.head) (hrun : s.isRunning) :
    GetsTo cfg s s.head := by
  have hstep : Own cfg s { s with phase := .handling current latest (s.calls cfg current) } :=
    ⟨.getEvents, rfl, by simp only [Watcher.step, hs]⟩
  exact .head hstep rfl (getsTo_of_handling cfg (s := { s with phase := _ }) rfl hcl hlh hrun)

theorem getsTo_of_fetched {current latest : ℕ} (hs : s.phase = .fetched current latest)
    (hcl : current ≤ latest) (hlh : latest ≤ s.head) (hreached : current ≤ s.reached)
    (hrun : s.isRunning) : GetsTo cfg s s.head := by
  have hstep : Own cfg s { s.refreshAddresses with phase := .loop current latest } :=
    ⟨.refresh s.fmv, rfl, by simp only [Watcher.step, hs]; rfl⟩
  exact .head hstep rfl (getsTo_of_loop cfg _
    { s.refreshAddresses with phase := .loop current latest }
    current latest le_rfl rfl hcl hlh hreached hrun)

variable {cfg}

/-- **A running monitor gets to the chain's head** from wherever it is. -/
theorem getsTo_head (h : Inv cfg s₀ s) (hrun : s.isRunning) (hup : s.phase ≠ .down) :
    GetsTo cfg s s.head := by
  obtain ⟨hb, hp⟩ := h
  rcases hphase : s.phase with _ | ⟨c⟩ | ⟨c, l⟩ | ⟨c, l⟩ | ⟨c⟩ | ⟨c, l⟩ | ⟨c, l⟩ | ⟨c, l, calls⟩
  all_goals rw [hphase] at hp
  · exact absurd hphase hup
  · have hlatest : Own cfg s { s with phase := .fetched c s.head } :=
      ⟨.getLatestBlock, rfl, by simp only [Watcher.step, hphase]⟩
    exact .head hlatest rfl (getsTo_of_fetched cfg (s := { s with phase := _ }) rfl
      (hb.lt_iff_le_head.1 hp.2) le_rfl hp.1.2 hrun)
  · exact getsTo_of_fetched cfg hphase hp.2.1 (hb.lt_iff_le_head.1 hp.2.2) hp.1.2 hrun
  · obtain ⟨hcl, hl, -⟩ := hp.2 hrun
    exact getsTo_of_loop cfg _ s c l le_rfl hphase hcl (hb.lt_iff_le_head.1 hl) hp.1.2 hrun
  · rcases Nat.eq_or_lt_of_le (hb.lt_iff_le_head.1 hp.2) with heq | hlt
    · exact ⟨s, .refl, rfl, heq ▸ hp.1.2⟩
    · have hpoll := own_poll cfg hphase hrun hlt.ne'
      have hrefresh := own_refresh cfg (s := { s with phase := .advanced c s.head }) rfl
      exact .head hpoll rfl (.head hrefresh rfl (getsTo_of_reading cfg
        (s := { s.refreshAddresses with phase := .reading c s.head }) rfl hlt le_rfl hrun))
  · exact .head (own_refresh cfg hphase) rfl (getsTo_of_reading cfg
      (s := { s.refreshAddresses with phase := .reading c l }) rfl (hp.2.2.2 hrun)
      (hb.lt_iff_le_head.1 hp.2.2.1) hrun)
  · exact getsTo_of_reading cfg hphase (hp.2.2.2.1 hrun) (hb.lt_iff_le_head.1 hp.2.2.1) hrun
  · exact getsTo_of_handling cfg hphase (hp.2.2.2.1 hrun) (hb.lt_iff_le_head.1 hp.2.2.1) hrun

/-! ## Exactly once -/

theorem Inv.exactlyOnce (h : Inv cfg s₀ s) : ExactlyOnce cfg s₀ s where
  credited n i t user hn hlt he := List.count_eq_one_of_mem h.books.once
    (h.books.credited n i t user hn hlt he)
  once := h.books.once
  only := h.books.only
  balance := h.books.balance
  walletBalance := h.books.walletBalance

/-- **Payments are credited exactly once**, in every state of a guarded run;
and from there a monitor that runs undisturbed passes every block before the
head. -/
theorem payments_exactly_once (hid : Function.Injective cfg.uuid5) (h0 : Initial s₀)
    (as : List Action) (s : State) (h : (system cfg s₀).Reach (Guarded cfg) as s) :
    ExactlyOnce cfg s₀ s ∧ (s.isRunning → s.phase ≠ .down → GetsTo cfg s s.head) := by
  have hinv : Inv cfg s₀ s := by
    refine h.invariant ?_ ?_
    · rintro s rfl
      exact h0.inv
    · rintro s a s' hs hg hstep
      exact hs.step hid hg hstep
  exact ⟨hinv.exactlyOnce, getsTo_head hinv⟩

/-! ## A run on each side of the guard -/

private def addr (text : String) (h : text.toList.all (· != ':') := by decide) : Address :=
  ⟨text, fun hmem => bne_iff_ne.1 (List.all_eq_true.1 h ':' hmem) rfl⟩

private def demo : Config where
  uuid5 name := name
  ss58Encode _ := addr "raw"
  maxRecoveryBlocks := 10
  developerDeposit := 250

/-- A chain of one block, and a user who pays to `P`. -/
private def genesis : State where
  chain := [[]]
  payee a := if a = addr "P" then some ⟨"u", 0⟩ else none
  developer _ := none
  isDeveloper _ := false
  balance _ := 0
  walletBalance _ := 0
  payments := []
  blockNumber := 0
  phase := .down
  isRunning := false
  paymentAddresses _ := false
  developerPaymentAddresses _ := false
  fmv := 0
  credits := []
  reached := 0

private theorem genesis_initial : Initial genesis where
  chain := rfl
  reached := rfl
  down := rfl
  payments := rfl
  credits := rfl
  born a user h := by
    simp only [genesis] at h
    split at h
    · obtain rfl := Option.some.inj h
      exact le_rfl
    · simp at h
  disjoint _ _ := rfl

private def transferTo (receiver : Address) (amount : ℕ) : RawEvent :=
  ⟨"Balances", "Transfer", some (.ss58 (addr "S") receiver), some amount, some 2⟩

/-- A second user registers and both are paid, the first twice in different
amounts; the monitor crashes within the block and processes it again. -/
private def replay : List Action :=
  [.register "v" (addr "Q") (addr "D"),
    .produce [transferTo (addr "P") 3000000000, transferTo (addr "P") 1000000000,
      transferTo (addr "P") 5, transferTo (addr "Q") 1000000000, transferTo (addr "D") 1000000000],
    .produce [], .load, .getLatestBlock, .refresh 300, .loop, .getEvents, .save true, .loop,
    .getEvents, .handle, .handle, .crash, .load, .getLatestBlock, .refresh 310, .loop, .getEvents,
    .save true, .loop, .getEvents, .handle, .handle, .handle, .handle, .handle, .save true]

theorem payments_exactly_once_replay :
    ∃ s, (system demo genesis).Reach (Guarded demo) replay s ∧ ExactlyOnce demo genesis s ∧
      s.reached = 2 ∧ s.balance "u" = 1200 ∧ s.balance "v" = 310 := by
  have hreach : (system demo genesis).Reach (Guarded demo) replay _ :=
    Lts.reach_of_exec rfl (by decide +kernel) rfl
  exact ⟨_, hreach,
    (payments_exactly_once (fun _ _ h => h) genesis_initial replay _ hreach).1, rfl,
    by decide +kernel, by decide +kernel⟩

/-- **A payment that is not credited.** Of two transfers of one sender, one
receiver and one amount in a block, the second is taken for the first. -/
theorem not_payments_exactly_once :
    ¬ ∀ (cfg : Config) (s₀ : State), Function.Injective cfg.uuid5 → Initial s₀ →
      ∀ (as : List Action) (s : State), (system cfg s₀).Reach (Recovers cfg) as s →
        ExactlyOnce cfg s₀ s := by
  intro h
  let as : List Action :=
    [.produce [transferTo (addr "P") 1000000000, transferTo (addr "P") 1000000000], .produce [],
      .load, .getLatestBlock, .refresh 300, .loop, .getEvents, .save true, .loop, .getEvents,
      .handle, .handle, .save true]
  have hreach : (system demo genesis).Reach (Recovers demo) as _ :=
    Lts.reach_of_exec rfl (by decide +kernel) rfl
  have hlaw := h demo genesis (fun _ _ h => h) genesis_initial as _ hreach
  refine absurd (hlaw.credited 1 1 ⟨addr "S", addr "P", 1000000000, some 2⟩ ⟨"u", 0⟩ (by decide)
    (by decide) ⟨rfl, by decide, rfl, by decide⟩) (by decide +kernel)

end Watcher

end ChutesApi
