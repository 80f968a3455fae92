import ChutesApi.Common.Lts
import ChutesApi.Payment.Model.Usage
import Mathlib.Algebra.BigOperators.Group.Finset.Piecewise
import Mathlib.Algebra.Order.BigOperators.Group.Finset
import Mathlib.Data.List.Duplicate
import Mathlib.Tactic.Linarith
/-!
# What a private chute's owner is credited

A paid invocation of somebody else's private chute charges the invoker and
credits the owner the same amount, in two hashes. The tracker deducts each
of them on its own, and skips a free account that is not invoiced. Paid
invocations come in any order with passes of the tracker, each of which
runs by itself, over all the keys that exist, and may fail to commit after
it has deleted them.

Credits never exceed debits where a billed owner is credited for billed
invokers only and no pass lists the key of a credit twice
(`transfers_conserved`). The credit of an invoker who is not billed is
money from nowhere (`not_transfers_conserved`).
-/

namespace ChutesApi

namespace Transfers

open Usage

variable (users : UserId → Option User) (owner : ChuteId → UserId)

/-- The hashes, the balances, and what the committed passes have read. -/
structure State where
  redis : Redis
  balance : UserId → ℚ
  charged : Reads

inductive Action
  /-- The pipeline of an invocation. -/
  | invoke (i : Invocation)
  /-- A pass over the listed keys, and whether it commits. -/
  | pass (keys : List Key) (commits : Bool)
  deriving DecidableEq

/-- The loop body over `user_totals.items()`. -/
def deductFrom (balance : UserId → ℚ) (total : UserId × ℚ) : UserId → ℚ :=
  match users total.1 with
  | none => balance
  | some user =>
    if Balance.skipsDeduction user then balance
    else Function.update balance total.1 (balance total.1 - total.2)

/-- A paid invocation of a private chute by another user than its owner. -/
def PaidPrivate (i : Invocation) : Prop :=
  i.addBalanceTo = some (owner i.chuteId) ∧ i.userId ≠ owner i.chuteId ∧ 0 < i.balanceUsed

instance (i : Invocation) : Decidable (PaidPrivate owner i) := by
  unfold PaidPrivate; infer_instance

/-- What a pass reads of the listed keys. -/
def readAll (redis : Redis) (keys : List Key) : Reads := keys.map fun k => (k, redis.hgetall k)

def step (s : State) : Action → Option State
  | .invoke i => if PaidPrivate owner i then some { s with redis := s.redis.pipeline i } else none
  | .pass keys commits =>
    let reads := readAll s.redis keys
    let redis := s.redis.delete keys
    if commits then
      some ⟨redis, (userTotals reads).foldl (deductFrom users) s.balance, s.charged ++ reads⟩
    else some { s with redis }

/-- The invocations and the tracker, over the given initial balances. -/
def system (balance : UserId → ℚ) : Lts State Action where
  init s := s = ⟨fun _ => none, balance, []⟩
  step := step users owner

/-- What deducting a hash from its user's balance takes from it. -/
def chargeOf (k : Key) (counts : Counts) : ℚ := if billed users k.1 then counts .amount else 0

/-- The amounts deducted from the invokers. -/
def debited (reads : Reads) : ℚ :=
  ((reads.filter fun read => read.1.1 ≠ owner read.1.2).map fun read =>
    chargeOf users read.1 read.2.value).sum

/-- The amounts credited to the owners. -/
def credited (reads : Reads) : ℚ :=
  -((reads.filter fun read => read.1.1 = owner read.1.2).map fun read =>
    chargeOf users read.1 read.2.value).sum

/-- **Transfers conserve money**: the owners are not credited more than the
invokers pay, and the total of all balances does not increase. -/
structure Conserved (balance : UserId → ℚ) (s : State) : Prop where
  credits : credited users owner s.charged ≤ debited users owner s.charged
  total : ∀ U : Finset UserId, (∀ u, (users u).isSome → u ∈ U) →
    ∑ u ∈ U, s.balance u ≤ ∑ u ∈ U, balance u

/-- `SCAN` lists every key that exists. -/
def Listed (s : State) : Action → Prop
  | .pass keys _ => ∀ k, (s.redis k).isSome → k ∈ keys
  | _ => True

/-- **The guard.** Where the owner is billed, so is the invoker; and a key
whose user a pass would credit is not listed twice. -/
def Fair (s : State) (a : Action) : Prop :=
  Listed s a ∧
    match a with
    | .invoke i => billed users (owner i.chuteId) → billed users i.userId
    | .pass keys _ => ∀ k ∈ keys, chargeOf users k (s.redis.pending k) < 0 → ¬ keys.Duplicate k

/-! ## One pass -/

variable {users owner}

theorem chargeOf_zero (k : Key) : chargeOf users k 0 = 0 := by simp [chargeOf]

theorem chargeOf_add (k : Key) (c c' : Counts) :
    chargeOf users k (c + c') = chargeOf users k c + chargeOf users k c' := by
  unfold chargeOf
  split <;> simp

/-- The loop deducts what is meant. -/
theorem foldl_deductFrom (balance : UserId → ℚ) (totals : List (UserId × ℚ)) (u : UserId) :
    totals.foldl (deductFrom users) balance u =
      balance u - (totals.map (Balance.charge users u)).sum := by
  induction totals generalizing balance with
  | nil => simp
  | cons total totals ih =>
    have hone : deductFrom users balance total u = balance u - Balance.charge users u total := by
      unfold deductFrom Balance.charge
      cases users total.1 with
      | none => simp
      | some user =>
        by_cases hs : Balance.skipsDeduction user <;> by_cases hu : total.1 = u <;>
          simp [hs, hu, eq_comm (a := u)]
    rw [List.foldl_cons, ih, hone, List.map_cons, List.sum_cons]
    ring

/-- **Deducted from all users** is what the reads charge. -/
theorem sum_deducted (reads : Reads) {U : Finset UserId}
    (hU : ∀ u, (users u).isSome → u ∈ U) :
    ∑ u ∈ U, deducted users reads u =
      (reads.map fun read => chargeOf users read.1 read.2.value).sum := by
  induction reads with
  | nil => simp [deducted]
  | cons read reads ih =>
    have hone : ∑ u ∈ U, deducted users [read] u = chargeOf users read.1 read.2.value := by
      have hterm : ∀ u, deducted users [read] u =
          if read.1.1 = u then chargeOf users read.1 read.2.value else 0 := by
        intro u
        unfold deducted chargeOf
        by_cases hu : read.1.1 = u <;> simp [hu]
      simp only [hterm]
      rw [Finset.sum_ite_eq]
      split
      · rfl
      · next hnot =>
        have hnone : ¬ billed users read.1.1 := fun hb =>
          hnot (hU _ (Option.isSome_of_any hb))
        simp [chargeOf, hnone]
    rw [← List.singleton_append, List.map_append, List.sum_append, ← ih]
    simp only [deducted_append, Finset.sum_add_distrib, hone, List.map_singleton,
      List.sum_singleton]

variable (users owner) in
/-- What is debited less what is credited is what is charged. -/
theorem debited_sub_credited (reads : Reads) :
    debited users owner reads - credited users owner reads =
      (reads.map fun read => chargeOf users read.1 read.2.value).sum := by
  unfold debited credited
  induction reads with
  | nil => simp
  | cons read reads ih =>
    rw [List.map_cons, List.sum_cons, ← ih]
    by_cases h : read.1.1 = owner read.1.2 <;> simp [h] <;> ring

/-- A list with repetitions has at least the sum of its set, where what
repeats is not negative. -/
theorem sum_toFinset_le {κ : Type*} [DecidableEq κ] {keys : List κ} {f : κ → ℚ}
    (h : ∀ k ∈ keys, f k < 0 → ¬ keys.Duplicate k) :
    ∑ k ∈ keys.toFinset, f k ≤ (keys.map f).sum := by
  rw [Finset.sum_list_map_count]
  refine Finset.sum_le_sum fun k hk => ?_
  rw [List.mem_toFinset] at hk
  have hpos : 1 ≤ keys.count k := List.count_pos_iff.2 hk
  rcases lt_or_ge (f k) 0 with hneg | hnonneg
  · have hone : keys.count k = 1 := by
      have := h k hk hneg
      rw [List.duplicate_iff_two_le_count] at this
      omega
    rw [hone, one_nsmul]
  · calc f k = 1 • f k := (one_nsmul _).symm
      _ ≤ keys.count k • f k := nsmul_le_nsmul_left hnonneg hpos

/-- What an invocation adds to the amount of a key. -/
theorem added_amount {i : Invocation} (hi : PaidPrivate owner i) (k : Key) :
    i.added k .amount =
      (if (i.userId, i.chuteId) = k then i.balanceUsed else 0) -
        if (owner i.chuteId, i.chuteId) = k then i.balanceUsed else 0 := by
  obtain ⟨hadd, hne, hpos⟩ := hi
  unfold Invocation.added Invocation.increments
  rw [hadd]
  simp only [hpos.ne', ne_eq, not_false_eq_true, if_true]
  by_cases h1 : (i.userId, i.chuteId) = k <;> by_cases h2 : (owner i.chuteId, i.chuteId) = k <;>
    simp [addedBy, h1, h2, Invocation.counts, amountOnly]

/-- **An invocation charges at least what it credits**, over keys that
have its two among them. -/
theorem sum_chargeOf_added {i : Invocation} {S : Finset Key} (hi : PaidPrivate owner i)
    (hfair : billed users (owner i.chuteId) → billed users i.userId)
    (hS : ∀ c ∈ i.increments, c.key ∈ S) : 0 ≤ ∑ k ∈ S, chargeOf users k (i.added k) := by
  have hterm : ∀ k, chargeOf users k (i.added k) =
      (if (i.userId, i.chuteId) = k then if billed users i.userId then i.balanceUsed else 0
        else 0) -
      if (owner i.chuteId, i.chuteId) = k then
        if billed users (owner i.chuteId) then i.balanceUsed else 0 else 0 := by
    intro k
    rw [chargeOf, added_amount hi]
    by_cases h1 : (i.userId, i.chuteId) = k <;> by_cases h2 : (owner i.chuteId, i.chuteId) = k
    · exact absurd (congrArg Prod.fst (h1.trans h2.symm)) hi.2.1
    · simp [← h1, hi.2.1.symm]
    · rw [if_neg h1, if_neg h1, if_pos h2, if_pos h2, ← h2]
      split <;> simp
    · simp [h1, h2]
  have huser : (i.userId, i.chuteId) ∈ S := hS ⟨(i.userId, i.chuteId), _, _⟩ (List.mem_cons_self ..)
  simp only [hterm]
  rw [Finset.sum_sub_distrib, Finset.sum_ite_eq, Finset.sum_ite_eq, if_pos huser]
  have hpos := hi.2.2
  by_cases hb : billed users (owner i.chuteId)
  · rw [if_pos (hfair hb), if_pos hb]
    split <;> linarith
  · rw [if_neg hb]
    split <;> split <;> linarith

/-! ## The law -/

variable (users owner) in
/-- What is pending comes from some invocations, each fair and with its
keys still there; what was charged is not negative; and the balances have
what was charged deducted. -/
structure Inv (balance : UserId → ℚ) (s : State) : Prop where
  pending : ∃ fresh : List Invocation,
    (∀ i ∈ fresh, PaidPrivate owner i ∧
      (billed users (owner i.chuteId) → billed users i.userId) ∧
        ∀ c ∈ i.increments, (s.redis c.key).isSome) ∧
    ∀ k, s.redis.pending k = (fresh.map (·.added k)).sum
  charged : 0 ≤ (s.charged.map fun read => chargeOf users read.1 read.2.value).sum
  balance : ∀ u, s.balance u = balance u - deducted users s.charged u

variable {balance : UserId → ℚ}

/-- **All that is pending, over keys that have all those that exist, is not
negative.** -/
theorem Inv.sum_chargeOf_pending {s : State} {S : Finset Key} (hs : Inv users owner balance s)
    (hS : ∀ k, (s.redis k).isSome → k ∈ S) :
    0 ≤ ∑ k ∈ S, chargeOf users k (s.redis.pending k) := by
  obtain ⟨fresh, hfresh, hpending⟩ := hs.pending
  simp only [hpending]
  clear hpending
  induction fresh with
  | nil => simp [chargeOf_zero]
  | cons i fresh ih =>
    rw [List.forall_mem_cons] at hfresh
    obtain ⟨hpaid, hfair, hkeys⟩ := hfresh.1
    have hone := sum_chargeOf_added hpaid hfair fun c hc => hS _ (hkeys c hc)
    have hrest := ih hfresh.2
    simp only [List.map_cons, List.sum_cons, chargeOf_add, Finset.sum_add_distrib]
    linarith

theorem Inv.invoke {s : State} {i : Invocation} (hs : Inv users owner balance s)
    (hpaid : PaidPrivate owner i) (hfair : billed users (owner i.chuteId) → billed users i.userId) :
    Inv users owner balance { s with redis := s.redis.pipeline i } := by
  obtain ⟨fresh, hfresh, hpending⟩ := hs.pending
  refine ⟨⟨i :: fresh, ?_, fun k => ?_⟩, hs.charged, hs.balance⟩
  · rw [List.forall_mem_cons]
    refine ⟨⟨hpaid, hfair, fun c hc => Redis.isSome_pipeline.2 (.inr ⟨c, hc, rfl⟩)⟩, ?_⟩
    intro j hj
    obtain ⟨hpaid', hfair', hkeys⟩ := hfresh j hj
    exact ⟨hpaid', hfair', fun c hc => Redis.isSome_pipeline.2 (.inl (hkeys c hc))⟩
  · rw [List.map_cons, List.sum_cons, Redis.pending_pipeline, hpending k, add_comm]

theorem Inv.pass {s s' : State} {keys : List Key} {commits : Bool}
    (hs : Inv users owner balance s)
    (hlisted : ∀ k, (s.redis k).isSome → k ∈ keys)
    (honce : ∀ k ∈ keys, chargeOf users k (s.redis.pending k) < 0 → ¬ keys.Duplicate k)
    (h : step users owner s (.pass keys commits) = some s') :
    Inv users owner balance s' := by
  have hempty : ∀ k, (s.redis.delete keys).pending k = 0 := by
    intro k
    rw [Redis.pending_delete]
    split
    · rfl
    · next hk =>
      have hnone : s.redis k = none := by
        by_contra hne
        exact hk (hlisted k (Option.isSome_iff_ne_none.2 hne))
      simp [Redis.pending, Redis.hgetall, hnone, Hash.empty]
  have hpass : 0 ≤ ((readAll s.redis keys).map fun read =>
      chargeOf users read.1 read.2.value).sum := by
    calc 0 ≤ ∑ k ∈ keys.toFinset, chargeOf users k (s.redis.pending k) :=
          hs.sum_chargeOf_pending fun k hk => List.mem_toFinset.2 (hlisted k hk)
      _ ≤ (keys.map fun k => chargeOf users k (s.redis.pending k)).sum := sum_toFinset_le honce
      _ = _ := by rw [readAll, List.map_map]; rfl
  simp only [step] at h
  split at h
  · obtain rfl := Option.some.inj h
    refine ⟨⟨[], by simp, hempty⟩, ?_, fun u => ?_⟩
    · rw [List.map_append, List.sum_append]
      exact add_nonneg hs.charged hpass
    · simp only [foldl_deductFrom, hs.balance u, sum_charge_userTotals, deducted_append]
      ring
  · obtain rfl := Option.some.inj h
    exact ⟨⟨[], by simp, hempty⟩, hs.charged, hs.balance⟩

/-- **Credits never exceed debits, and the balances never grow**, in a run
whose steps all meet the guard. -/
theorem transfers_conserved (as : List Action) (s : State)
    (h : (system users owner balance).Reach (Fair users owner) as s) :
    Conserved users owner balance s := by
  have hinv : Inv users owner balance s := by
    refine h.invariant ?_ ?_
    · rintro s rfl
      exact ⟨⟨[], by simp, fun k => rfl⟩, by simp, fun u => by simp [deducted]⟩
    · rintro s (i | ⟨keys, commits⟩) s' hs ⟨hlisted, hok⟩ hstep
      · simp only [system, step] at hstep
        split at hstep
        · next hpaid =>
          obtain rfl := Option.some.inj hstep
          exact hs.invoke hpaid hok
        · simp at hstep
      · exact hs.pass hlisted hok hstep
  refine ⟨?_, fun U hU => ?_⟩
  · have hnet := debited_sub_credited users owner s.charged
    have hcharged := hinv.charged
    linarith
  · have hall := sum_deducted s.charged hU
    have hcharged := hinv.charged
    simp only [hinv.balance, Finset.sum_sub_distrib]
    linarith

/-! ## A run on each side of the guard -/

/-- An owner and two other users, of which one has a free account. -/
private def threeUsers (userId : UserId) : Option User :=
  if userId = "o" ∨ userId = "u" then some { userId }
  else if userId = "f" then some { userId, permissionsBitmask := Permissioning.freeAccount.bitmask }
  else none

/-- A request by a user to a chute of the owner's. -/
private def shared (userId : UserId) : Invocation := ⟨userId, "c", 5, none, 7200, some "o"⟩

/-- The keys that the request leaves. -/
private theorem listed_shared (userId : UserId) (balance : UserId → ℚ) (reads : Reads)
    (commits : Bool) :
    Listed ⟨Redis.pipeline (fun _ => none) (shared userId), balance, reads⟩
      (.pass [(userId, "c"), ("o", "c")] commits) := by
  intro k hk
  obtain h | ⟨c, hc, rfl⟩ := Redis.isSome_pipeline.1 hk
  · simp at h
  · have hkeys : (shared userId).increments.map Increment.key = [(userId, "c"), ("o", "c")] := by
      simp [Invocation.increments, shared]
    exact hkeys ▸ List.mem_map_of_mem hc

theorem transfers_conserved_shared : ∃ s,
    (system threeUsers (fun _ => "o") fun _ => 10).Reach (Fair threeUsers fun _ => "o")
      [.invoke (shared "u"), .pass [("u", "c"), ("o", "c")] true] s ∧
    Conserved threeUsers (fun _ => "o") (fun _ => 10) s ∧ s.balance "u" = 5 ∧
      s.balance "o" = 15 := by
  have hfirst : (system threeUsers (fun _ => "o") fun _ => 10).Reach (Fair threeUsers fun _ => "o")
      [.invoke (shared "u")] _ :=
    Lts.Reach.init rfl |>.step ⟨trivial, by decide⟩ rfl
  have hreach := hfirst.step ⟨listed_shared "u" _ _ true, by decide +kernel⟩ rfl
  exact ⟨_, hreach, transfers_conserved _ _ hreach, by decide +kernel⟩

/-- **Money from nowhere.** A free account that is not invoiced invokes the
chute: the owner is credited what nobody pays. -/
theorem not_transfers_conserved : ¬ ∀ (users : UserId → Option User) (owner : ChuteId → UserId)
    (balance : UserId → ℚ) (as : List Action) (s : State),
      (system users owner balance).Reach Listed as s → Conserved users owner balance s := by
  intro h
  have hfirst : (system threeUsers (fun _ => "o") fun _ => 10).Reach Listed
      [.invoke (shared "f")] _ :=
    Lts.Reach.init rfl |>.step trivial rfl
  have hreach := hfirst.step (listed_shared "f" _ _ true) rfl
  exact absurd (h _ _ _ _ _ hreach).credits (by decide +kernel)

end Transfers

end ChutesApi
