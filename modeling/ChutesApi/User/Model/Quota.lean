import ChutesApi.Common.Dict
import ChutesApi.Common.Expiring
import ChutesApi.Python.Exc
import ChutesApi.Python.Str
import ChutesApi.User.Model
import Mathlib.Algebra.Order.Ring.Rat
import Mathlib.Data.List.MinMax
/-!
# Quotas and discounts

The rows of `invocation_quotas` and `invocation_discounts`, their lookups
through memcache, and the two endpoints by which a billing admin replaces a
user's rows. Each table is a `Dict` under its primary key.
-/

namespace ChutesApi

open Python

namespace Quota

/-- The primary key of both tables. -/
abbrev RowKey := UserId × ChuteId

/-- A row of `invocation_quotas`, but for its key. -/
structure InvocationQuota where
  isDefault : Bool := true
  paymentRefreshDate : Option ℕ := none
  updatedAt : ℕ
  quota : ℤ
  deriving DecidableEq, Repr

/-- What the module reads of the deployment. -/
structure Env where
  /-- `settings.default_quotas`. -/
  defaultQuotas : Dict ChuteId ℤ
  /-- `settings.default_discounts`. -/
  defaultDiscounts : Dict ChuteId ℚ
  users : Users
  /-- `datetime.now().strftime("%Y%m%d")`, in the machine's time zone. -/
  strftime : ℕ → String

variable {ν : Type*}

/-! ## The queries -/

/-- `WHERE user_id = :userId AND chute_id IN (:chuteId, '*') ORDER BY CASE
WHEN chute_id = :chuteId THEN 0 ELSE 1 END LIMIT 1`. -/
def select (rows : Dict RowKey ν) (userId : UserId) (chuteId : ChuteId) : Option (RowKey × ν) :=
  (rows.items.filter fun row =>
      row.1.1 = userId && (row.1.2 = chuteId || row.1.2 = "*")).argmin
    fun row => if row.1.2 = chuteId then 0 else 1

/-- `settings.default_…s.get(chute_id, settings.default_…s.get("*", 200))`. -/
def defaultFor [OfNat ν 200] (defaults : Dict ChuteId ν) (chuteId : ChuteId) : ν :=
  (defaults.get? chuteId).getD ((defaults.get? "*").getD 200)

/-- **What a lookup by chute means**: the chute's own row, else the row for
all chutes. -/
def rowFor (rows : Dict RowKey ν) (userId : UserId) (chuteId : ChuteId) : Option (RowKey × ν) :=
  ((rows.get? (userId, chuteId)).map fun v => ((userId, chuteId), v)).or
    ((rows.get? (userId, "*")).map fun v => ((userId, "*"), v))

theorem mem_of_rowFor {rows : Dict RowKey ν} {userId : UserId} {chuteId : ChuteId}
    {row : RowKey × ν} (h : rowFor rows userId chuteId = some row) :
    row ∈ rows.items ∧ row.1.1 = userId ∧ (row.1.2 = chuteId ∨ row.1.2 = "*") := by
  unfold rowFor at h
  rw [Option.or_eq_some_iff] at h
  rcases h with h | ⟨-, h⟩
  all_goals
    obtain ⟨v, hv, rfl⟩ := Option.map_eq_some_iff.1 h
    refine ⟨Dict.get?_eq_some.1 hv, rfl, ?_⟩
  · exact .inl rfl
  · exact .inr rfl

/-- **The row under one key, else the row under another**, is what a query for
both finds that orders the one in front of the other. -/
theorem argmin_filter_eq {κ : Type*} [DecidableEq κ] {d : Dict κ ν} {k k' : κ} {p : κ × ν → Bool}
    {rank : κ × ν → ℕ}
    (hp : ∀ e ∈ d.items, p e ↔ e.1 = k ∨ e.1 = k')
    (hrank : k ≠ k' → ∀ v v', rank (k, v) < rank (k', v')) :
    (d.items.filter p).argmin rank =
      ((d.get? k).map (k, ·)).or ((d.get? k').map (k', ·)) := by
  have hmem : ∀ e, e ∈ d.items.filter p ↔ e ∈ d.items ∧ (e.1 = k ∨ e.1 = k') := fun e => by
    rw [List.mem_filter]
    exact and_congr_right (hp e)
  rcases hs : (d.items.filter p).argmin rank with _ | ⟨k₀, v⟩
  · -- no row was found, so neither lookup finds one
    have hnone : ∀ k₀, k₀ = k ∨ k₀ = k' → d.get? k₀ = none := by
      intro k₀ hk₀
      rw [Option.eq_none_iff_forall_ne_some]
      intro v hv
      have := (hmem (k₀, v)).2 ⟨Dict.get?_eq_some.1 hv, hk₀⟩
      rw [List.argmin_eq_none.1 hs] at this
      cases this
    rw [hnone k (.inl rfl), hnone k' (.inr rfl)]
    rfl
  · obtain ⟨hrow, hk₀⟩ := (hmem _).1 (List.argmin_mem hs)
    have hget : d.get? k₀ = some v := Dict.get?_eq_some.2 hrow
    rcases hk₀ with hk₀ | hk₀
    · obtain rfl : k₀ = k := hk₀
      rw [hget]
      rfl
    · obtain rfl : k₀ = k' := hk₀
      by_cases hkk : k = k₀
      · rw [hkk, hget]
        rfl
      · -- the one key has no row, for it would have come first
        have hnone : d.get? k = none := by
          rw [Option.eq_none_iff_forall_ne_some]
          intro w hw
          have hfirst := List.le_of_mem_argmin
            ((hmem (k, w)).2 ⟨Dict.get?_eq_some.1 hw, .inl rfl⟩) hs
          exact absurd (hrank hkk w v) hfirst.not_gt
        rw [hnone, hget]
        rfl

/-- **The query is the lookup**: ordering by the `CASE` puts a row of the
chute before the row for all. -/
theorem select_eq (rows : Dict RowKey ν) (userId : UserId) (chuteId : ChuteId) :
    select rows userId chuteId = rowFor rows userId chuteId := by
  refine argmin_filter_eq (fun row _ => ?_) fun hne v v' => ?_
  · simp [Prod.ext_iff, and_or_left]
  · have hchute : "*" ≠ chuteId := fun h => hne (h ▸ rfl)
    simp [hchute]

/-! ## memcache -/

/-- What a key is for. -/
inductive Family
  | qta
  | quotaType
  | quota
  | idiscount
  deriving DecidableEq, Repr

def Family.name : Family → String
  | .qta => "qta"
  | .quotaType => "quota_type"
  | .quota => "quota"
  | .idiscount => "idiscount"

/-- What `quota_key` remembers. -/
inductive QuotaType
  | specific
  | wildcard
  | defaultSpecific
  | defaultWildcard
  | none
  deriving DecidableEq, Repr

/-- What the values of a family stand for. A value is stored as its text,
which reads back as the value; under `quota` nothing is ever stored. -/
abbrev Family.Value : Family → Type
  | .qta => ℤ
  | .quotaType => QuotaType
  | .quota => Empty
  | .idiscount => ℚ

structure Key where
  family : Family
  userId : UserId
  chuteId : ChuteId
  deriving DecidableEq, Repr

/-- `f"{family}:{user_id}:{chute_id}"`. -/
def Key.text (key : Key) : String := s!"{key.family.name}:{key.userId}:{key.chuteId}"

/-! ## The rows and their caches -/

structure State where
  now : ℕ
  quotas : Dict RowKey InvocationQuota
  discounts : Dict RowKey ℚ
  memcache : Expiring Key (·.family.Value)

namespace State

variable (env : Env) (s : State) (userId : UserId) (chuteId : ChuteId)

def memcacheGet (key : Key) : Option key.family.Value := s.memcache.get s.now key

def memcacheSet (key : Key) (value : key.family.Value) (exptime : ℕ) : State :=
  { s with memcache := s.memcache.set key value (s.now + exptime) }

/-- `cached and cached.isdigit()`. -/
def cachedQuota : Option ℤ :=
  Option.filter (fun n : ℤ => 0 ≤ n) (s.memcacheGet ⟨.qta, userId, chuteId⟩)

/-- **`InvocationQuota.get`.** -/
def getQuota : ℤ × State :=
  match s.cachedQuota userId chuteId with
  | some cached => (cached, s)
  | none =>
    match select s.quotas userId chuteId with
    | some row => (row.2.quota, s.memcacheSet ⟨.qta, userId, chuteId⟩ row.2.quota 60)
    | none =>
      let defaultQuota := defaultFor env.defaultQuotas chuteId
      (defaultQuota, s.memcacheSet ⟨.qta, userId, chuteId⟩ defaultQuota 60)

/-- What the query of `quota_key` and the defaults make of a chute. -/
def queryQuotaType : QuotaType :=
  let dbChuteId := (select s.quotas userId chuteId).map (·.1.2)
  if dbChuteId = some chuteId then .specific
  else if dbChuteId = some "*" then .wildcard
  else if (env.defaultQuotas.get? chuteId).isSome then .defaultSpecific
  else if (env.defaultQuotas.get? "*").isSome then .defaultWildcard
  else .none

/-- The counter a type stands for: the chute's own, or the shared one. -/
def keyFor (quotaType : QuotaType) : String :=
  let date := env.strftime s.now
  match quotaType with
  | .specific | .defaultSpecific => s!"q:{date}:{userId}:{chuteId}"
  | .wildcard | .defaultWildcard | .none => s!"q:{date}:{userId}:__default__"

/-- **`InvocationQuota.quota_key`.** -/
def quotaKey : String × State :=
  match s.memcacheGet ⟨.quotaType, userId, chuteId⟩ with
  | some quotaType => (s.keyFor env userId chuteId quotaType, s)
  | none =>
    let quotaType := s.queryQuotaType env userId chuteId
    (s.keyFor env userId chuteId quotaType,
      s.memcacheSet ⟨.quotaType, userId, chuteId⟩ quotaType 3600)

/-- **`InvocationDiscount.get`.** -/
def getDiscount : ℚ × State :=
  match s.memcacheGet ⟨.idiscount, userId, chuteId⟩ with
  | some cached => (cached, s)
  | none =>
    match select s.discounts userId chuteId with
    | some row => (row.2, s.memcacheSet ⟨.idiscount, userId, chuteId⟩ row.2 1800)
    | none =>
      let defaultDiscount := defaultFor env.defaultDiscounts chuteId
      (defaultDiscount, s.memcacheSet ⟨.idiscount, userId, chuteId⟩ defaultDiscount 1800)

end State

/-! ## The endpoints -/

/-- A value of the payload, with its `repr`. A bool is an `int`. -/
inductive Amount
  | int (n : ℤ) (repr : String)
  | float (q : ℚ) (repr : String)
  | other (repr : String)
  deriving DecidableEq

namespace Amount

def repr : Amount → String
  | int _ repr | float _ repr | other repr => repr

/-- The value, once it is known to be an `int`. -/
def toInt : Amount → ℤ
  | int n _ => n
  | _ => 0

/-- The value, once it is known to be a `float`. -/
def toFloat : Amount → ℚ
  | float q _ => q
  | _ => 0

/-- `isinstance(value, int)` and it is not negative. -/
def isQuota : Amount → Bool
  | int n _ => 0 ≤ n
  | _ => false

/-- `isinstance(value, float) and 0.0 < value < 1.0`. -/
def isDiscount : Amount → Bool
  | float q _ => 0 < q && q < 1
  | _ => false

end Amount

/-- The loop over the payload. -/
def validate (what : String) (valid : Amount → Bool) (payload : Dict ChuteId Amount) :
    Except Exc Unit :=
  payload.items.forM fun (key, value) => do
    let k := Python.repr key
    let v := value.repr
    ensure (valid value = true) (.http 400 s!"Invalid {what} value key={k} value={v}")
    if key ≠ "*" then
      ensure (isUuid key = true) (.http 400 s!"Invalid chute_id specified: {key}")

/-- The `DELETE` of a user's rows, and the new rows. -/
def replaceRows (rows : Dict RowKey ν) (userId : UserId) (new : Dict ChuteId ν) : Dict RowKey ν :=
  new.items.foldl (fun rows e => rows.set (userId, e.1) e.2)
    (rows.filter fun row => row.1.1 ≠ userId)

/-- `RETURNING chute_id`. -/
def deletedChuteIds (rows : Dict RowKey ν) (userId : UserId) : List ChuteId :=
  (rows.items.filter fun row => row.1.1 = userId).map (·.1.2)

/-- The rows that a payload of quotas is stored as. -/
def newQuotas (now : ℕ) (payload : Dict ChuteId Amount) : Dict ChuteId InvocationQuota :=
  payload.map fun _ value => { updatedAt := now, quota := value.toInt }

/-- The rows that a payload of discounts is stored as. -/
def newDiscounts (payload : Dict ChuteId Amount) : Dict ChuteId ℚ :=
  payload.map fun _ value => value.toFloat

/-- What both endpoints check. -/
def admitChange (users : Users) (currentUser : User) (userId : UserId) (what : String)
    (valid : Amount → Bool) (payload : Dict ChuteId Amount) : Except Exc Unit := do
  ensure (currentUser.hasRole Permissioning.billingAdmin = true)
    (.http 403 "This action can only be performed by billing admin accounts.")
  validate what valid payload
  match ← scalarOneOrNone (users.rows.filter (·.userId = userId)) with
  | none => throw (.http 404 s!"User not found: {userId}")
  | some _ => return ()

/-- **`admin_quotas_change`**: the rows after the commit, and the keys the
request has deleted. A quota that is too large for its column fails in the
commit. -/
def adminQuotasChange (users : Users) (now : ℕ) (quotas : Dict RowKey InvocationQuota)
    (currentUser : User) (userId : UserId) (payload : Dict ChuteId Amount) :
    Except Exc (Dict RowKey InvocationQuota × List Key) := do
  admitChange users currentUser userId "quota" Amount.isQuota payload
  ensure (∀ e ∈ payload.items, e.2.toInt < 2 ^ 63) (.raised .other)
  return (replaceRows quotas userId (newQuotas now payload),
    (deletedChuteIds quotas userId).map fun chuteId => ⟨.quota, userId, chuteId⟩)

/-- **`admin_discounts_change`.** -/
def adminDiscountsChange (users : Users) (discounts : Dict RowKey ℚ) (currentUser : User)
    (userId : UserId) (payload : Dict ChuteId Amount) :
    Except Exc (Dict RowKey ℚ × List Key) := do
  admitChange users currentUser userId "discount" Amount.isDiscount payload
  return (replaceRows discounts userId (newDiscounts payload),
    (deletedChuteIds discounts userId).map fun chuteId => ⟨.idiscount, userId, chuteId⟩)

theorem adminQuotasChange_eq_ok {users : Users} {now : ℕ} {rows rows' : Dict RowKey InvocationQuota}
    {currentUser : User} {userId : UserId} {payload : Dict ChuteId Amount} {keys : List Key}
    (h : adminQuotasChange users now rows currentUser userId payload = .ok (rows', keys)) :
    rows' = replaceRows rows userId (newQuotas now payload) ∧
      keys = (deletedChuteIds rows userId).map (Key.mk .quota userId) := by
  simp only [adminQuotasChange, bind_eq_ok, return_eq_ok, Prod.mk.injEq] at h
  obtain ⟨-, -, -, -, hrows, hkeys⟩ := h
  exact ⟨hrows.symm, hkeys.symm⟩

theorem adminDiscountsChange_eq_ok {users : Users} {rows rows' : Dict RowKey ℚ}
    {currentUser : User} {userId : UserId} {payload : Dict ChuteId Amount} {keys : List Key}
    (h : adminDiscountsChange users rows currentUser userId payload = .ok (rows', keys)) :
    rows' = replaceRows rows userId (newDiscounts payload) ∧
      keys = (deletedChuteIds rows userId).map (Key.mk .idiscount userId) := by
  simp only [adminDiscountsChange, bind_eq_ok, return_eq_ok, Prod.mk.injEq] at h
  obtain ⟨-, -, hrows, hkeys⟩ := h
  exact ⟨hrows.symm, hkeys.symm⟩

/-! ## What the new rows define -/

/-- **A change replaces the user's rows** and no other. -/
theorem get?_replaceRows (rows : Dict RowKey ν) (userId : UserId) (new : Dict ChuteId ν)
    (k : RowKey) :
    (replaceRows rows userId new).get? k =
      if k.1 = userId then new.get? k.2 else rows.get? k := by
  have hkeys : (new.items.map fun e => (userId, e.1)).Nodup := by
    have := new.nodup.map (f := fun chuteId => (userId, chuteId)) fun _ _ h => (Prod.mk.inj h).2
    rwa [List.map_map] at this
  rw [replaceRows, Dict.get?_foldl_set hkeys, Dict.get?_filter]
  by_cases hu : k.1 = userId
  · have hfind : (new.items.find? fun e => (userId, e.1) = k) =
        new.items.find? fun e => e.1 = k.2 := by
      congr 1
      funext e
      simp [Prod.ext_iff, hu]
    rw [if_pos hu, hfind]
    rcases rows.get? k with _ | v <;> simp [hu, Dict.get?]
  · have hfind : (new.items.find? fun e => (userId, e.1) = k) = none := by
      rw [List.find?_eq_none]
      intro e _ he
      have hek : (userId, e.1) = k := by simpa using he
      exact hu (congrArg Prod.fst hek).symm
    rw [if_neg hu, hfind]
    rcases rows.get? k with _ | v <;> simp [hu]

end Quota

end ChutesApi
