import ChutesApi.Common.Lts
import ChutesApi.User.Model.Quota
/-!
# The caches of quotas and discounts

Three lookups keep what they found in memcache, each under a key of its
own, and the endpoints that replace a user's rows purge too little:
`admin_quotas_change` deletes `quota:…`, under which nothing is stored, and
`admin_discounts_change` deletes the entries of the chutes that had a row,
though what a wildcard or a default gave is stored under other chutes'
keys. Lookups stay coherent exactly in the runs in which no change of rows
changes what a surviving entry stands for (`coherent_iff`).

A lookup is one event, in which it reads the rows and stores what it found, and
so is a change, with its commit and its purge.
-/

namespace ChutesApi

open Python

namespace Quota

variable (env : Env)

/-! ## What the rows define -/

/-- The last part of a quota key. -/
def counter (own : Bool) (chuteId : ChuteId) : String := if own then chuteId else "__default__"

/-- A chute is counted on its own if it has its own row or, where no row
applies, its own default. -/
def ownCounter (quotas : Dict RowKey InvocationQuota) (userId : UserId) (chuteId : ChuteId) :
    Bool :=
  match rowFor quotas userId chuteId with
  | some row => row.1.2 = chuteId
  | none => (env.defaultQuotas.get? chuteId).isSome

def definedQuota (quotas : Dict RowKey InvocationQuota) (userId : UserId) (chuteId : ChuteId) :
    ℤ :=
  ((rowFor quotas userId chuteId).map (·.2.quota)).getD (defaultFor env.defaultQuotas chuteId)

def definedKey (now : ℕ) (quotas : Dict RowKey InvocationQuota) (userId : UserId)
    (chuteId : ChuteId) : String :=
  let date := env.strftime now
  let name := counter (ownCounter env quotas userId chuteId) chuteId
  s!"q:{date}:{userId}:{name}"

def definedDiscount (discounts : Dict RowKey ℚ) (userId : UserId) (chuteId : ChuteId) : ℚ :=
  ((rowFor discounts userId chuteId).map Prod.snd).getD (defaultFor env.defaultDiscounts chuteId)

/-- **Coherence**: every lookup returns what the rows define. -/
structure Coherent (s : State) : Prop where
  quota : ∀ userId chuteId,
    (s.getQuota env userId chuteId).1 = definedQuota env s.quotas userId chuteId
  key : ∀ userId chuteId,
    (s.quotaKey env userId chuteId).1 = definedKey env s.now s.quotas userId chuteId
  discount : ∀ userId chuteId,
    (s.getDiscount env userId chuteId).1 = definedDiscount env s.discounts userId chuteId

/-! ## The runs -/

inductive Event
  | tick (seconds : ℕ)
  /-- An entry is dropped, or did not reach memcache. -/
  | evict (key : Key)
  | getQuota (userId : UserId) (chuteId : ChuteId)
  | quotaKey (userId : UserId) (chuteId : ChuteId)
  | getDiscount (userId : UserId) (chuteId : ChuteId)
  /-- A request that completes, and which of its deletions reach memcache. -/
  | quotasChange (currentUser : User) (userId : UserId) (payload : Dict ChuteId Amount)
      (reached : Key → Bool)
  | discountsChange (currentUser : User) (userId : UserId) (payload : Dict ChuteId Amount)
      (reached : Key → Bool)

def State.purge (s : State) (keys : List Key) (reached : Key → Bool) : State :=
  { s with memcache := s.memcache.deleteAll (keys.filter reached) }

def step (s : State) : Event → Option State
  | .tick seconds => some { s with now := s.now + seconds }
  | .evict key => some { s with memcache := s.memcache.delete key }
  | .getQuota userId chuteId => some (s.getQuota env userId chuteId).2
  | .quotaKey userId chuteId => some (s.quotaKey env userId chuteId).2
  | .getDiscount userId chuteId => some (s.getDiscount env userId chuteId).2
  | .quotasChange currentUser userId payload reached =>
    match adminQuotasChange env.users s.now s.quotas currentUser userId payload with
    | .ok (quotas, keys) => some ({ s with quotas := quotas }.purge keys reached)
    | .error _ => none
  | .discountsChange currentUser userId payload reached =>
    match adminDiscountsChange env.users s.discounts currentUser userId payload with
    | .ok (discounts, keys) => some ({ s with discounts := discounts }.purge keys reached)
    | .error _ => none

/-- Any rows, and nothing cached yet. -/
def system : Lts State Event where
  init s := s.memcache = .empty
  step := step env

/-! ## What the entries stand for -/

/-- What an entry is read as. -/
inductive Meaning
  | quota (n : ℤ)
  | counter (name : String)
  | discount (q : ℚ)
  | nothing
  deriving DecidableEq

def QuotaType.isOwn : QuotaType → Bool
  | .specific | .defaultSpecific => true
  | .wildcard | .defaultWildcard | .none => false

/-- How an entry is read. -/
def Key.read : (key : Key) → key.family.Value → Meaning
  | ⟨.qta, _, _⟩, n => .quota n
  | ⟨.quotaType, _, chuteId⟩, quotaType => .counter (Quota.counter quotaType.isOwn chuteId)
  | ⟨.quota, _, _⟩, _ => .nothing
  | ⟨.idiscount, _, _⟩, q => .discount q

/-- What the rows define for a key. -/
def meaning (quotas : Dict RowKey InvocationQuota) (discounts : Dict RowKey ℚ) : Key → Meaning
  | ⟨.qta, userId, chuteId⟩ => .quota (definedQuota env quotas userId chuteId)
  | ⟨.quotaType, userId, chuteId⟩ =>
    .counter (counter (ownCounter env quotas userId chuteId) chuteId)
  | ⟨.quota, _, _⟩ => .nothing
  | ⟨.idiscount, userId, chuteId⟩ => .discount (definedDiscount env discounts userId chuteId)

/-- The entry is not passed over; a text that is no number is. -/
def Family.usable : (family : Family) → family.Value → Bool
  | .qta => fun n : ℤ => 0 ≤ n
  | .quotaType | .quota | .idiscount => fun _ => true

/-- The entry that a lookup would return. -/
def State.found (s : State) (key : Key) : Option key.family.Value :=
  (s.memcacheGet key).filter key.family.usable

/-- **Every entry in use is what the rows define.** -/
def Fresh (s : State) : Prop :=
  ∀ key v, s.found key = some v → key.read v = meaning env s.quotas s.discounts key

/-- **The condition on a change of rows**: what the rows define for an
entry in use that the request does not delete is as before. -/
def Clean (s : State) : Event → Prop
  | .quotasChange _ userId payload reached =>
    ∀ key, (s.found key).isSome →
      key ∉ ((deletedChuteIds s.quotas userId).map (Key.mk .quota userId)).filter reached →
      meaning env (replaceRows s.quotas userId (newQuotas s.now payload)) s.discounts key =
        meaning env s.quotas s.discounts key
  | .discountsChange _ userId payload reached =>
    ∀ key, (s.found key).isSome →
      key ∉ ((deletedChuteIds s.discounts userId).map (Key.mk .idiscount userId)).filter reached →
      meaning env s.quotas (replaceRows s.discounts userId (newDiscounts payload)) key =
        meaning env s.quotas s.discounts key
  | _ => True

variable {env} {s s' : State} {userId : UserId} {chuteId : ChuteId}

/-! ## Each lookup, with and without an entry -/

theorem getQuota_fst : (s.getQuota env userId chuteId).1 =
    (s.cachedQuota userId chuteId).getD (definedQuota env s.quotas userId chuteId) := by
  unfold State.getQuota definedQuota
  rw [select_eq]
  cases s.cachedQuota userId chuteId with
  | some n => rfl
  | none => cases rowFor s.quotas userId chuteId <;> rfl

theorem getDiscount_fst : (s.getDiscount env userId chuteId).1 =
    (s.memcacheGet ⟨.idiscount, userId, chuteId⟩).getD
      (definedDiscount env s.discounts userId chuteId) := by
  unfold State.getDiscount definedDiscount
  rw [select_eq]
  cases s.memcacheGet ⟨.idiscount, userId, chuteId⟩ with
  | some q => rfl
  | none => cases rowFor s.discounts userId chuteId <;> rfl

/-- The type of a chute says whether it is counted on its own. -/
theorem isOwn_queryQuotaType :
    (s.queryQuotaType env userId chuteId).isOwn = ownCounter env s.quotas userId chuteId := by
  unfold State.queryQuotaType ownCounter
  rw [select_eq]
  rcases hrow : rowFor s.quotas userId chuteId with _ | row
  · simp only [Option.map_none]
    split_ifs <;> simp_all [QuotaType.isOwn]
  · obtain ⟨-, -, hchute⟩ := mem_of_rowFor hrow
    by_cases hc : row.1.2 = chuteId
    · simp [hc, QuotaType.isOwn]
    · have hstar : row.1.2 = "*" := hchute.resolve_left hc
      have hne : ¬"*" = chuteId := hstar ▸ hc
      simp [hstar, hne, QuotaType.isOwn]

theorem keyFor_eq (quotaType : QuotaType) : s.keyFor env userId chuteId quotaType =
    s!"q:{env.strftime s.now}:{userId}:{counter quotaType.isOwn chuteId}" := by
  refine String.toList_injective ?_
  cases quotaType <;> simp [State.keyFor, counter, QuotaType.isOwn, toString]

theorem quotaKey_fst : (s.quotaKey env userId chuteId).1 =
    ((s.memcacheGet ⟨.quotaType, userId, chuteId⟩).map (s.keyFor env userId chuteId)).getD
      (definedKey env s.now s.quotas userId chuteId) := by
  unfold State.quotaKey
  cases s.memcacheGet ⟨.quotaType, userId, chuteId⟩ with
  | some quotaType => rfl
  | none => exact (keyFor_eq _).trans (by rw [isOwn_queryQuotaType]; rfl)

/-- Two quota keys of a user on a day differ in their last part only. -/
theorem quotaKey_inj {date name other : String} :
    s!"q:{date}:{userId}:{name}" = s!"q:{date}:{userId}:{other}" ↔ name = other := by
  constructor
  · intro h
    have hlist := congrArg String.toList h
    simp only [toString, String.toList_append, List.append_cancel_left_eq] at hlist
    exact String.toList_injective hlist
  · exact fun h => by rw [h]

/-- **Coherence is a property of the entries.** -/
theorem coherent_iff_fresh : Coherent env s ↔ Fresh env s := by
  constructor
  · rintro ⟨hquota, hkey, hdiscount⟩ ⟨family, userId, chuteId⟩ v hv
    cases family with
    | qta =>
      have hcached : s.cachedQuota userId chuteId = some v := hv
      have := hquota userId chuteId
      rw [getQuota_fst, hcached] at this
      exact congrArg Meaning.quota this
    | quotaType =>
      have hcached := (Option.filter_eq_some_iff.1 hv).1
      have := hkey userId chuteId
      rw [quotaKey_fst, hcached, Option.map_some, Option.getD_some, keyFor_eq] at this
      exact congrArg Meaning.counter (quotaKey_inj.1 this)
    | quota => exact v.elim
    | idiscount =>
      have hcached := (Option.filter_eq_some_iff.1 hv).1
      have := hdiscount userId chuteId
      rw [getDiscount_fst, hcached] at this
      exact congrArg Meaning.discount this
  · intro hfresh
    refine ⟨fun userId chuteId => ?_, fun userId chuteId => ?_, fun userId chuteId => ?_⟩
    · rw [getQuota_fst]
      rcases hv : s.cachedQuota userId chuteId with _ | v
      · rfl
      · exact Meaning.quota.inj (hfresh ⟨.qta, userId, chuteId⟩ v hv)
    · rw [quotaKey_fst]
      rcases hv : s.memcacheGet ⟨.quotaType, userId, chuteId⟩ with _ | v
      · rfl
      · rw [Option.map_some, Option.getD_some, keyFor_eq]
        exact quotaKey_inj.2 (Meaning.counter.inj
          (hfresh ⟨.quotaType, userId, chuteId⟩ v (Option.filter_eq_some_iff.2 ⟨hv, rfl⟩)))
    · rw [getDiscount_fst]
      rcases hv : s.memcacheGet ⟨.idiscount, userId, chuteId⟩ with _ | v
      · rfl
      · exact Meaning.discount.inj
          (hfresh ⟨.idiscount, userId, chuteId⟩ v (Option.filter_eq_some_iff.2 ⟨hv, rfl⟩))

/-! ## What each event does to the entries -/

/-- Entries that are all there before, under rows that are the same, stay
fresh. -/
theorem Fresh.of_found (hs : Fresh env s) (hq : s'.quotas = s.quotas)
    (hd : s'.discounts = s.discounts) (h : ∀ key v, s'.found key = some v → s.found key = some v) :
    Fresh env s' := fun key v hv => by
  rw [hq, hd]
  exact hs key v (h key v hv)

/-- Storing what the rows define keeps the entries fresh. -/
theorem Fresh.memcacheSet (hs : Fresh env s) {key : Key} {value : key.family.Value}
    (h : key.read value = meaning env s.quotas s.discounts key) (exptime : ℕ) :
    Fresh env (s.memcacheSet key value exptime) := by
  intro key' v hv
  rcases eq_or_ne key' key with rfl | hne
  · obtain ⟨hget, -⟩ := Option.filter_eq_some_iff.1 hv
    simp only [State.memcacheGet, State.memcacheSet, Expiring.get_set_self,
      Option.ite_none_right_eq_some, Option.some.injEq] at hget
    exact hget.2 ▸ h
  · refine hs key' v ?_
    rwa [State.found, State.memcacheGet, State.memcacheSet, Expiring.get_set_of_ne hne] at hv

theorem Fresh.getQuota (hs : Fresh env s) : Fresh env (s.getQuota env userId chuteId).2 := by
  unfold State.getQuota
  cases hc : s.cachedQuota userId chuteId with
  | some n => exact hs
  | none =>
    rw [select_eq]
    cases hrow : rowFor s.quotas userId chuteId with
    | some row => exact hs.memcacheSet (by simp [Key.read, meaning, definedQuota, hrow]) 60
    | none => exact hs.memcacheSet (by simp [Key.read, meaning, definedQuota, hrow]) 60

theorem Fresh.quotaKey (hs : Fresh env s) : Fresh env (s.quotaKey env userId chuteId).2 := by
  unfold State.quotaKey
  cases hc : s.memcacheGet ⟨.quotaType, userId, chuteId⟩ with
  | some quotaType => exact hs
  | none => exact hs.memcacheSet (by rw [Key.read, meaning, isOwn_queryQuotaType]) 3600

theorem Fresh.getDiscount (hs : Fresh env s) :
    Fresh env (s.getDiscount env userId chuteId).2 := by
  unfold State.getDiscount
  cases hc : s.memcacheGet ⟨.idiscount, userId, chuteId⟩ with
  | some q => exact hs
  | none =>
    rw [select_eq]
    cases hrow : rowFor s.discounts userId chuteId with
    | some row => exact hs.memcacheSet (by simp [Key.read, meaning, definedDiscount, hrow]) 1800
    | none => exact hs.memcacheSet (by simp [Key.read, meaning, definedDiscount, hrow]) 1800

/-- What is found after a purge was found before, under a key that is not
deleted. -/
theorem found_purge {keys : List Key} {reached : Key → Bool} {key : Key} {v : key.family.Value} :
    (s.purge keys reached).found key = some v ↔
      key ∉ keys.filter reached ∧ s.found key = some v := by
  simp only [State.found, State.memcacheGet, State.purge, Option.filter_eq_some_iff,
    Expiring.get_deleteAll_eq_some, and_assoc]

/-- **A change of rows** keeps the entries fresh exactly when it changes
nothing that a surviving entry stands for. -/
theorem fresh_purge_iff (hs : Fresh env s) (quotas : Dict RowKey InvocationQuota)
    (discounts : Dict RowKey ℚ) (keys : List Key) (reached : Key → Bool) :
    Fresh env ({ s with quotas := quotas, discounts := discounts }.purge keys reached) ↔
      ∀ key, (s.found key).isSome → key ∉ keys.filter reached →
        meaning env quotas discounts key = meaning env s.quotas s.discounts key := by
  constructor
  · intro h key hsome hkey
    obtain ⟨v, hv⟩ := Option.isSome_iff_exists.1 hsome
    rw [← hs key v hv]
    exact (h key v (found_purge.2 ⟨hkey, hv⟩)).symm
  · intro h key v hv
    obtain ⟨hkey, hv⟩ := found_purge.1 hv
    have hbefore : s.found key = some v := hv
    exact (hs key v hbefore).trans
      (h key (Option.isSome_iff_exists.2 ⟨v, hbefore⟩) hkey).symm

/-- **What one event does to coherence.** -/
theorem fresh_step_iff {e : Event} (hs : Fresh env s) (h : step env s e = some s') :
    Fresh env s' ↔ Clean env s e := by
  cases e with
  | tick seconds =>
    obtain rfl := Option.some.inj h
    refine iff_of_true (hs.of_found rfl rfl fun key v hv => ?_) trivial
    obtain ⟨hget, husable⟩ := Option.filter_eq_some_iff.1 hv
    exact Option.filter_eq_some_iff.2
      ⟨Expiring.get_of_le hget (Nat.le_add_right s.now seconds), husable⟩
  | evict key =>
    obtain rfl := Option.some.inj h
    refine iff_of_true (hs.of_found rfl rfl fun key' v hv => ?_) trivial
    have hpurged : (s.purge [key] fun _ => true).found key' = some v := hv
    exact (found_purge.1 hpurged).2
  | getQuota userId chuteId =>
    obtain rfl := Option.some.inj h
    exact iff_of_true hs.getQuota trivial
  | quotaKey userId chuteId =>
    obtain rfl := Option.some.inj h
    exact iff_of_true hs.quotaKey trivial
  | getDiscount userId chuteId =>
    obtain rfl := Option.some.inj h
    exact iff_of_true hs.getDiscount trivial
  | quotasChange currentUser userId payload reached =>
    simp only [step] at h
    split at h
    · next quotas keys hok =>
      obtain ⟨rfl, rfl⟩ := adminQuotasChange_eq_ok hok
      obtain rfl := Option.some.inj h
      exact fresh_purge_iff hs _ s.discounts _ reached
    · cases h
  | discountsChange currentUser userId payload reached =>
    simp only [step] at h
    split at h
    · next discounts keys hok =>
      obtain ⟨rfl, rfl⟩ := adminDiscountsChange_eq_ok hok
      obtain rfl := Option.some.inj h
      exact fresh_purge_iff hs s.quotas _ _ reached
    · cases h

/-- **Exactly when the caches are coherent**: in a run, every lookup returns
what the rows define, at every moment, if and only if no change of rows
changes what a surviving entry stands for. -/
theorem coherent_iff {t : State} {es : List Event} (h0 : s.memcache = .empty)
    (he : (system env).exec s es = some t) :
    (∀ bs u, bs <+: es → (system env).exec s bs = some u → Coherent env u) ↔
      (system env).Meets (Clean env) s es := by
  simp only [coherent_iff_fresh]
  have hfresh : Fresh env s := fun key v hv => by
    simp [State.found, State.memcacheGet, h0] at hv
  exact Lts.forall_prefix_iff_meets (J := fun _ => True) (fun _ _ _ _ _ _ _ => trivial)
    (fun _ _ _ _ hs h => fresh_step_iff hs h) trivial hfresh he

private def customer : User := { userId := "u" }

private def deployment : Env where
  defaultQuotas := Dict.ofList [("*", 200)]
  defaultDiscounts := Dict.ofList [("*", 0)]
  users := ⟨[customer], List.pairwise_singleton _ _⟩
  strftime _ := "20250101"

private def billingAdmin : User := { userId := "admin", permissionsBitmask := 64 }

private def noRows : State := ⟨0, .empty, .empty, .empty⟩

/-- A quota is looked up, and then set for all chutes. -/
private def raised : List Event :=
  [.getQuota "u" "c",
    .quotasChange billingAdmin "u" (Dict.ofList [("*", .int 7 "7")]) fun _ => true]

/-- **The old quota is looked up** after the new one is set. -/
theorem not_coherent :
    ¬ ∀ (env : Env) (s t : State) (es : List Event), s.memcache = .empty →
      (system env).exec s es = some t → Coherent env t := by
  intro h
  have hrun : (system deployment).exec noRows raised = some _ := rfl
  have hquota := (h deployment noRows _ raised rfl hrun).quota "u" "c"
  exact absurd hquota (by decide +kernel)

private def unrelated : List Event :=
  [.getQuota "v" "c",
    .quotasChange billingAdmin "u" (Dict.ofList [("*", .int 7 "7")]) fun _ => true]

/-- The quota of another user is set. -/
theorem coherent_iff_unrelated :
    (noRows.memcache = .empty ∧ ∃ t, (system deployment).exec noRows unrelated = some t) ∧
      ((∀ bs u, bs <+: unrelated → (system deployment).exec noRows bs = some u →
          Coherent deployment u) ↔
        (system deployment).Meets (Clean deployment) noRows unrelated) :=
  ⟨⟨rfl, _, rfl⟩, coherent_iff rfl rfl⟩

end Quota

end ChutesApi
