import ChutesApi.Payment.Balance
import Mathlib.Algebra.Group.Pi.Basic
import Mathlib.Data.Fintype.Pi
/-!
# Usage, from an invocation to the tracker

An invocation adds what it used to a Redis hash of its user and chute, and
takes the same amount from the hash of the chute's owner where the owner is
credited. A pass of the tracker reads the hashes, adds them to `usage_data`,
totals the amounts for each user and deducts the totals from the balances.

The numbers of a hash, and of a row of `usage_data`, are a function of the
column they stand in. A key `balance:{user_id}:{chute_id}` is its two ids,
neither of which has a colon.
-/

namespace ChutesApi

namespace Usage

/-- What is counted. -/
inductive Column
  | amount
  | count
  | inputTokens
  | outputTokens
  deriving DecidableEq, Repr

instance : Fintype Column where
  elems := {.amount, .count, .inputTokens, .outputTokens}
  complete c := by cases c <;> simp

abbrev Counts := Column → ℚ

/-- The key of a user and a chute. -/
abbrev Key := UserId × ChuteId

instance : LawfulBEq Key := inferInstance

/-- A hash. A field that is not there counts as zero. -/
structure Hash where
  value : Counts
  timestamp : ℕ

def Hash.empty : Hash := ⟨0, 0⟩

abbrev Redis := Key → Option Hash

/-- `HGETALL`. -/
def Redis.hgetall (redis : Redis) (k : Key) : Hash := (redis k).getD .empty

/-- What a key holds, nothing if it does not exist. -/
def Redis.pending (redis : Redis) (k : Key) : Counts := (redis.hgetall k).value

/-! ## The pipeline of an invocation -/

/-- What `invoke` knows when it ships its usage. -/
structure Invocation where
  userId : UserId
  chuteId : ChuteId
  balanceUsed : ℚ
  /-- The input and output tokens, of a request to an LLM. -/
  tokens : Option (ℚ × ℚ)
  timestamp : ℕ
  /-- `add_balance_to`: the owner of the chute, where they are credited. -/
  addBalanceTo : Option UserId
  deriving DecidableEq

/-- The commands on one key: what they add, and the timestamp they set. -/
structure Increment where
  key : Key
  counts : Counts
  timestamp : Option ℕ

/-- What `HINCRBY` adds: nothing, if the increment is not an integer. -/
def hincrby (q : ℚ) : ℚ := if q.den = 1 then q else 0

/-- One request's counts. -/
def Invocation.counts (i : Invocation) : Counts
  | .amount => i.balanceUsed
  | .count => 1
  | .inputTokens => hincrby ((i.tokens.map Prod.fst).getD 0)
  | .outputTokens => hincrby ((i.tokens.map Prod.snd).getD 0)

/-- An amount alone. -/
def amountOnly (x : ℚ) : Counts
  | .amount => x
  | _ => 0

/-- The commands of the pipeline. -/
def Invocation.increments (i : Invocation) : List Increment :=
  ⟨(i.userId, i.chuteId), i.counts, some i.timestamp⟩ ::
    match i.addBalanceTo with
    | some owner =>
      if i.balanceUsed ≠ 0 then [⟨(owner, i.chuteId), amountOnly (0 - i.balanceUsed), none⟩] else []
    | none => []

def Redis.increment (redis : Redis) (c : Increment) : Redis :=
  Function.update redis c.key
    (some ⟨redis.pending c.key + c.counts, c.timestamp.getD (redis.hgetall c.key).timestamp⟩)

/-- **The pipeline**, which executes as one transaction. -/
def Redis.pipeline (redis : Redis) (i : Invocation) : Redis :=
  i.increments.foldl Redis.increment redis

/-- What commands add to a key. -/
def addedBy (cs : List Increment) (k : Key) : Counts :=
  ((cs.filter (·.key == k)).map Increment.counts).sum

/-- What an invocation adds to a key. -/
def Invocation.added (i : Invocation) (k : Key) : Counts := addedBy i.increments k

theorem Redis.pending_increment (redis : Redis) (c : Increment) (k : Key) :
    (redis.increment c).pending k = redis.pending k + addedBy [c] k := by
  unfold Redis.increment
  rcases eq_or_ne c.key k with rfl | hk
  · simp [Redis.pending, Redis.hgetall, addedBy]
  · simp [Redis.pending, Redis.hgetall, addedBy, hk, Function.update_of_ne hk.symm]

theorem addedBy_cons (c : Increment) (cs : List Increment) (k : Key) :
    addedBy (c :: cs) k = addedBy [c] k + addedBy cs k := by
  by_cases hk : c.key = k <;> simp [addedBy, hk]

/-- **The pipeline adds what the invocation adds.** -/
theorem Redis.pending_pipeline (redis : Redis) (i : Invocation) (k : Key) :
    (redis.pipeline i).pending k = redis.pending k + i.added k := by
  unfold Redis.pipeline Invocation.added
  generalize i.increments = cs
  induction cs generalizing redis with
  | nil => simp [addedBy]
  | cons c cs ih => rw [List.foldl_cons, ih, Redis.pending_increment, addedBy_cons c cs, add_assoc]

/-- A key that no command is on stays as it is. -/
theorem Redis.pipeline_of_notMem {redis : Redis} {i : Invocation} {k : Key}
    (h : ∀ c ∈ i.increments, c.key ≠ k) : redis.pipeline i k = redis k := by
  unfold Redis.pipeline
  generalize i.increments = cs at h
  induction cs generalizing redis with
  | nil => rfl
  | cons c cs ih =>
    simp only [List.forall_mem_cons] at h
    rw [List.foldl_cons, ih h.2, Redis.increment, Function.update_of_ne h.1.symm]

/-- The keys that exist afterwards. -/
theorem Redis.isSome_pipeline {redis : Redis} {i : Invocation} {k : Key} :
    (redis.pipeline i k).isSome ↔ (redis k).isSome ∨ ∃ c ∈ i.increments, c.key = k := by
  unfold Redis.pipeline
  generalize i.increments = cs
  induction cs generalizing redis with
  | nil => simp
  | cons c cs ih =>
    rw [List.foldl_cons, ih, List.exists_mem_cons_iff, ← or_assoc]
    refine or_congr_left ?_
    unfold Redis.increment
    rcases eq_or_ne k c.key with rfl | hk
    · simp
    · rw [Function.update_of_ne hk]
      simp [hk.symm]

/-! ## A pass of the tracker -/

/-- `DEL` of each of the keys. -/
def Redis.delete (redis : Redis) (ks : List Key) : Redis :=
  fun k => if k ∈ ks then none else redis k

theorem Redis.pending_delete (redis : Redis) (ks : List Key) (k : Key) :
    (redis.delete ks).pending k = if k ∈ ks then 0 else redis.pending k := by
  by_cases h : k ∈ ks <;> simp [Redis.delete, Redis.pending, Redis.hgetall, Hash.empty, h]

/-- What a pass has read: keys with their hashes. -/
abbrev Reads := List (Key × Hash)

/-- What a pass has read of a key. -/
def readOf (reads : Reads) (k : Key) : Counts :=
  ((reads.filter (·.1 == k)).map (·.2.value)).sum

@[simp] theorem readOf_nil (k : Key) : readOf [] k = 0 := rfl

theorem readOf_append (reads reads' : Reads) (k : Key) :
    readOf (reads ++ reads') k = readOf reads k + readOf reads' k := by
  simp [readOf]

theorem readOf_of_notMem {reads : Reads} {k : Key} (h : k ∉ reads.map Prod.fst) :
    readOf reads k = 0 := by
  have hnil : reads.filter (·.1 == k) = [] := by
    rw [List.filter_eq_nil_iff]
    rintro read hread hk
    exact h (List.mem_map.2 ⟨read, hread, by simpa using hk⟩)
  rw [readOf, hnil, List.map_nil, List.sum_nil]

theorem readOf_singleton (k k' : Key) (h : Hash) :
    readOf [(k, h)] k' = if k = k' then h.value else 0 := by
  by_cases hk : k = k' <;> simp [readOf, hk]

/-- `user_totals[user_id] += amount`, of a dictionary in its order. -/
def addTotal : List (UserId × ℚ) → UserId → ℚ → List (UserId × ℚ)
  | [], userId, amount => [(userId, 0 + amount)]
  | (u, total) :: totals, userId, amount =>
    if u = userId then (u, total + amount) :: totals
    else (u, total) :: addTotal totals userId amount

/-- `user_totals`. -/
def userTotals (reads : Reads) : List (UserId × ℚ) :=
  reads.foldl (fun totals read => addTotal totals read.1.1 (read.2.value .amount)) []

/-- `(timestamp // 3600) * 3600`. -/
def hourBucket (timestamp : ℕ) : ℕ := timestamp / 3600 * 3600

/-- A row of `usage_data`. -/
structure UsageData where
  userId : UserId
  bucket : ℕ
  chuteId : ChuteId
  counts : Counts

/-- `INSERT … ON CONFLICT (user_id, chute_id, bucket) DO UPDATE`. -/
def upsert (row : UsageData) : List UsageData → List UsageData
  | [] => [row]
  | r :: rows =>
    if r.userId = row.userId ∧ r.chuteId = row.chuteId ∧ r.bucket = row.bucket then
      { r with counts := r.counts + row.counts } :: rows
    else r :: upsert row rows

variable (users : UserId → Option User)

/-- The pass's insertion for a key, of a user who exists. -/
def insertUsage (rows : List UsageData) (read : Key × Hash) : List UsageData :=
  if (users read.1.1).isSome then
    upsert ⟨read.1.1, hourBucket read.2.timestamp, read.1.2, read.2.value⟩ rows
  else rows

/-- What `usage_data` has for a key, in all its buckets. -/
def usageOf (rows : List UsageData) (k : Key) : Counts :=
  ((rows.filter fun r => (r.userId, r.chuteId) == k).map UsageData.counts).sum

/-- A user whose usage is deducted: one who exists and is not skipped. -/
def billed (userId : UserId) : Bool := (users userId).any fun user => !Balance.skipsDeduction user

/-- What a pass deducts from a user. -/
def deducted (reads : Reads) (userId : UserId) : ℚ :=
  if billed users userId then
    ((reads.filter (·.1.1 == userId)).map (·.2.value .amount)).sum
  else 0

/-! ### What it comes to -/

variable {users}

theorem usageOf_upsert (row : UsageData) (rows : List UsageData) (k : Key) :
    usageOf (upsert row rows) k =
      usageOf rows k + if (row.userId, row.chuteId) = k then row.counts else 0 := by
  induction rows with
  | nil => by_cases hk : (row.userId, row.chuteId) = k <;> simp [usageOf, upsert, hk]
  | cons r rows ih =>
    have hcons : ∀ (r : UsageData) (rows : List UsageData), usageOf (r :: rows) k =
        (if (r.userId, r.chuteId) = k then r.counts else 0) + usageOf rows k := by
      intro r rows
      by_cases hk : (r.userId, r.chuteId) = k <;> simp [usageOf, hk]
    unfold upsert
    split
    · next heq =>
      rw [hcons, hcons, heq.1, heq.2.1]
      split <;> simp [add_comm, add_left_comm]
    · rw [hcons, hcons, ih, add_assoc]

/-- **A user who exists has their reads in `usage_data`.** -/
theorem usageOf_insertUsage (rows : List UsageData) (reads : Reads) (k : Key)
    (hk : (users k.1).isSome) :
    usageOf (reads.foldl (insertUsage users) rows) k = usageOf rows k + readOf reads k := by
  induction reads generalizing rows with
  | nil => simp
  | cons read reads ih =>
    have hread : usageOf (insertUsage users rows read) k = usageOf rows k + readOf [read] k := by
      unfold insertUsage
      rcases eq_or_ne read.1 k with rfl | hne
      · rw [if_pos hk, usageOf_upsert]
        simp [readOf]
      · split
        · rw [usageOf_upsert, if_neg hne]
          simp [readOf, hne]
        · simp [readOf, hne]
    rw [List.foldl_cons, ih, hread, add_assoc, ← readOf_append, List.singleton_append]

theorem charge_eq (u : UserId) (total : UserId × ℚ) :
    Balance.charge users u total = if total.1 = u ∧ billed users u then total.2 else 0 := by
  unfold Balance.charge billed
  rcases eq_or_ne total.1 u with rfl | hu
  · cases users total.1 <;> simp
  · cases users total.1 <;> simp [hu]

theorem sum_charge_addTotal (totals : List (UserId × ℚ)) (v u : UserId) (amount : ℚ) :
    ((addTotal totals v amount).map (Balance.charge users u)).sum =
      (totals.map (Balance.charge users u)).sum + Balance.charge users u (v, amount) := by
  induction totals with
  | nil => simp [addTotal]
  | cons total totals ih =>
    obtain ⟨w, x⟩ := total
    unfold addTotal
    split
    · next hw =>
      subst hw
      simp only [List.map_cons, List.sum_cons, charge_eq]
      split <;> ring
    · rw [List.map_cons, List.sum_cons, ih, List.map_cons, List.sum_cons, add_assoc]

/-- **The totals come to what was read of the user**, where the user is
billed. -/
theorem sum_charge_userTotals (reads : Reads) (u : UserId) :
    ((userTotals reads).map (Balance.charge users u)).sum = deducted users reads u := by
  have hfold : ∀ (reads : Reads) (totals : List (UserId × ℚ)),
      ((reads.foldl (fun totals read => addTotal totals read.1.1 (read.2.value .amount))
        totals).map (Balance.charge users u)).sum =
        (totals.map (Balance.charge users u)).sum + deducted users reads u := by
    intro reads
    induction reads with
    | nil => simp [deducted]
    | cons read reads ih =>
      intro totals
      rw [List.foldl_cons, ih, sum_charge_addTotal, charge_eq, add_assoc]
      unfold deducted
      by_cases hb : billed users u <;> by_cases hu : read.1.1 = u <;> simp [hb, hu]
  simpa [userTotals] using hfold reads []

theorem deducted_append (reads reads' : Reads) (u : UserId) :
    deducted users (reads ++ reads') u = deducted users reads u + deducted users reads' u := by
  unfold deducted
  split <;> simp

end Usage

end ChutesApi
