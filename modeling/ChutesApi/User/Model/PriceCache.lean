import ChutesApi.Common.SharedCache
import ChutesApi.Python.JsonText
import ChutesApi.User.Model.Quota
/-!
# The cache of discounts and price overrides

`InvocationDiscount.get` and `PriceOverride.get` keep what they read of their
tables in memcache, under one key. A discount is kept as the text of a number,
an override as a JSON object.
-/

namespace ChutesApi

open Python

namespace PriceCache

/-- A row of `price_overrides`, but for its key. -/
structure Prices where
  perRequest : Option Double
  perMillionIn : Option Double
  perMillionOut : Option Double
  perStep : Option Double

/-- What the lookups read. -/
structure Env where
  /-- `settings.default_discounts`. -/
  defaultDiscounts : Dict ChuteId Number
  /-- The rows of `invocation_discounts`. -/
  discounts : Dict Quota.RowKey Double
  /-- The rows of `price_overrides`. -/
  overrides : Dict Quota.RowKey Prices

instance : OfNat Number 200 := ⟨.int 200 (representable_intCast (by decide))⟩

/-- `f"idiscount:{user_id}:{chute_id}"`. -/
def cacheKey (userId : UserId) (chuteId : ChuteId) : String := s!"idiscount:{userId}:{chuteId}"

variable (json : JsonModule) (env : Env) (userId : UserId) (chuteId : ChuteId)

namespace InvocationDiscount

/-- The lookup in the table, where the cache had nothing. -/
def query : CacheProg String String PyError PyFloat :=
  let key := cacheKey userId chuteId
  match Quota.select env.discounts userId chuteId with
  | some row => .set key row.2.str (.done (.ok row.2.value))
  | none =>
    let defaultDiscount := Quota.defaultFor env.defaultDiscounts chuteId
    .set key defaultDiscount.str (.done (.ok defaultDiscount.value))

/-- **`InvocationDiscount.get`.** -/
def get : CacheProg String String PyError PyFloat :=
  let key := cacheKey userId chuteId
  .get key fun cached =>
    let cached := cached.getD ""
    if cached ≠ "" then
      match float cached with
      | .ok discount => .done (.ok discount)
      | .error .valueError => .delete key (query env userId chuteId)
      | .error e => .done (.error e)
    else query env userId chuteId

end InvocationDiscount

/-- **An instance of `PriceOverride`**, with whatever its constructor was given. -/
structure PriceOverride where
  perRequest : Document
  perMillionIn : Document
  perMillionOut : Document
  perStep : Document
  userId : Document
  chuteId : Document

namespace PriceOverride

def columns : List String :=
  ["per_request", "per_million_in", "per_million_out", "per_step", "user_id", "chute_id"]

/-- `PriceOverride(**kwargs)`. -/
def ofKwargs : Document → Except PyError PriceOverride
  | .object kwargs =>
    if ∀ entry ∈ kwargs, entry.1 ∈ columns.map Text.ofString then
      .ok {
        perRequest := Document.get kwargs "per_request"
        perMillionIn := Document.get kwargs "per_million_in"
        perMillionOut := Document.get kwargs "per_million_out"
        perStep := Document.get kwargs "per_step"
        userId := Document.get kwargs "user_id"
        chuteId := Document.get kwargs "chute_id" }
    else .error .typeError
  | _ => .error .typeError

/-- A price of a row. -/
def price : Option Double → Document
  | some x => .number x.value
  | none => .null

/-- The instance that the query makes of a row. -/
def ofRow (row : Quota.RowKey × Prices) : PriceOverride where
  perRequest := price row.2.perRequest
  perMillionIn := price row.2.perMillionIn
  perMillionOut := price row.2.perMillionOut
  perStep := price row.2.perStep
  userId := .text (Text.ofString row.1.1)
  chuteId := .text (Text.ofString row.1.2)

/-- A price, as it is written to the cache. -/
def scalar : Option Double → Scalar
  | some x => .float x
  | none => .none

/-- The `dict` that is written to the cache. -/
def entries (row : Quota.RowKey × Prices) : List (String × Scalar) :=
  [("per_request", scalar row.2.perRequest), ("per_million_in", scalar row.2.perMillionIn),
    ("per_million_out", scalar row.2.perMillionOut), ("per_step", scalar row.2.perStep),
    ("user_id", .str row.1.1), ("chute_id", .str row.1.2)]

/-- `WHERE user_id IN (:userId, '*') AND chute_id = :chuteId ORDER BY CASE
WHEN user_id = :userId THEN 0 ELSE 1 END LIMIT 1`. -/
def select (rows : Dict Quota.RowKey Prices) : Option (Quota.RowKey × Prices) :=
  (rows.items.filter fun row =>
      (row.1.1 = userId || row.1.1 = "*") && row.1.2 = chuteId).argmin
    fun row => if row.1.1 = userId then 0 else 1

/-- The lookup in the table, where the cache had nothing. -/
def query : CacheProg String String PyError (Option PriceOverride) :=
  match select userId chuteId env.overrides with
  | some row =>
    .set (cacheKey userId chuteId) (json.dumps (entries row)) (.done (.ok (some (ofRow row))))
  | none => .done (.ok none)

/-- **`PriceOverride.get`.** -/
def get : CacheProg String String PyError (Option PriceOverride) :=
  let key := cacheKey userId chuteId
  .get key fun cached =>
    let cached := cached.getD ""
    if cached ≠ "" then
      match json.loads cached >>= ofKwargs with
      | .ok priceOverride => .done (.ok (some priceOverride))
      | .error _ => .delete key (query json env userId chuteId)
    else query json env userId chuteId

end PriceOverride

/-! ## The calls -/

inductive Table
  | discount
  | override
  deriving DecidableEq

abbrev Table.Result : Table → Type
  | .discount => PyFloat
  | .override => Option PriceOverride

/-- The lookup of each table. -/
def lookup : (table : Table) → CacheProg String String PyError table.Result
  | .discount => InvocationDiscount.get env userId chuteId
  | .override => PriceOverride.get json env userId chuteId

/-- **What a lookup by user means**: the user's own row, else the row for all
users. -/
def overrideFor : Option (Quota.RowKey × Prices) :=
  ((env.overrides.get? (userId, chuteId)).map ((userId, chuteId), ·)).or
    ((env.overrides.get? ("*", chuteId)).map (("*", chuteId), ·))

/-- **What its own table defines** for a call. -/
def defined : (table : Table) → table.Result
  | .discount =>
    match Quota.rowFor env.discounts userId chuteId with
    | some row => row.2.value
    | none => (Quota.defaultFor env.defaultDiscounts chuteId).value
  | .override => (overrideFor env userId chuteId).map PriceOverride.ofRow

/-- **The caches do not mix**: in every run of calls for the user and the
chute, each call returns what its own table defines, after three operations
of the cache at most. -/
def CachesApart : Prop :=
  ∀ as s, (SharedCache.system (lookup json env userId chuteId)).Run as s →
    SharedCache.Answered (fun table a => a = defined env userId chuteId table) 3 as s

/-- Every price there is is finite. -/
def Prices.Finite (prices : Prices) : Prop :=
  ∀ price ∈ [prices.perRequest, prices.perMillionIn, prices.perMillionOut, prices.perStep],
    ∀ x ∈ price, x.value ≠ .inf ∧ x.value ≠ .negInf ∧ x.value ≠ .nan

end PriceCache

end ChutesApi
