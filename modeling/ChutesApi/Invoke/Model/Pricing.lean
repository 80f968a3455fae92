import ChutesApi.Invoke.Model.Attempt
/-!
# What a completed invocation costs

The price of a request: by its tokens, its steps or its time, with the
overrides of the user, the discounts of the chute and of the user, and the
part of a re-roll. What the database and the caches return comes as values
that may have raised, in the order in which they are asked for.
-/

namespace ChutesApi

namespace Invoke

def llmPriceMultPerMillionIn : ℚ := 1358695 / 100000000

def llmPriceMultPerMillionOut : ℚ := 5434782 / 100000000

def llmMinPriceIn : ℚ := 1 / 100

def llmMinPriceOut : ℚ := 1 / 100

def diffusionPriceMultPerStep : ℚ := 5 / 1000

/-- The highest hourly rate of a GPU. -/
def computeUnitPriceBasis : ℚ := 7 / 2

/-- A row of `price_overrides`. -/
structure PriceOverride where
  perRequest : Option ℚ := none
  perMillionIn : Option ℚ := none
  perMillionOut : Option ℚ := none
  perStep : Option ℚ := none
  deriving DecidableEq

/-- What the pricing asks the database and the caches for. -/
structure Quotes where
  /-- `selector_hourly_price`. -/
  hourlyPrice : Except Failure ℚ
  priceOverride : Except Failure (Option PriceOverride) := .ok none
  /-- `InvocationDiscount.get`. -/
  userDiscount : Except Failure ℚ := .ok 0

/-- `metrics.get("it", 0) or 0`, and so for `ot`. -/
def tokensOf : Option Metrics → ℚ × ℚ
  | some (.llm m) => (m.it, m.ot)
  | _ => (0, 0)

/-- `(metrics or {}).get("steps", 0) or 0`. -/
def stepsOf : Option Metrics → ℚ
  | some (.diffusion m) => m.steps
  | _ => 0

/-- The price of tokens, of which each has its price for a million. -/
def tokenPrice (metrics : Option Metrics) (perMillionIn perMillionOut : ℚ) : ℚ :=
  (tokensOf metrics).1 / 1000000 * perMillionIn + (tokensOf metrics).2 / 1000000 * perMillionOut

/-- The price for a million input tokens by the hourly price. -/
def perMillionIn (hourlyPrice : ℚ) : ℚ := max (hourlyPrice * llmPriceMultPerMillionIn) llmMinPriceIn

def perMillionOut (hourlyPrice : ℚ) : ℚ :=
  max (hourlyPrice * llmPriceMultPerMillionOut) llmMinPriceOut

/-- A price override that applies, and what it comes to. Steps are asked
of the metrics without asking whether there are any. -/
def overridden (req : Request) (metrics : Option Metrics) (hourlyPrice : ℚ)
    (price : PriceOverride) : Except Failure (Option ℚ) :=
  if req.chute.standardTemplate = some .vllm ∧ metrics.isSome ∧
      (price.perMillionIn.isSome ∨ price.perMillionOut.isSome) then
    .ok (some (tokenPrice metrics (price.perMillionIn.getD (perMillionIn hourlyPrice))
      (price.perMillionOut.getD (perMillionOut hourlyPrice))))
  else match req.chute.standardTemplate, price.perStep with
    | some .diffusion, some perStep =>
      if metrics.isNone then .error (.other "'NoneType' object has no attribute 'get'")
      else .ok (some (stepsOf metrics * perStep))
    | _, _ => .ok price.perRequest

/-- The standard pricing. -/
def standardPrice (req : Request) (metrics : Option Metrics) (computeUnits hourlyPrice : ℚ) :
    Except Failure ℚ :=
  let discount := req.chute.discounted
  let less := fun price : ℚ => price - price * discount
  if discount < 1 then do
    let price ←
      if req.chute.standardTemplate = some .vllm ∧ metrics.isSome then
        let scarcity := req.chute.scarcity
        pure (less (tokenPrice metrics (perMillionIn hourlyPrice * scarcity)
          (perMillionOut hourlyPrice * scarcity)))
      else if req.chute.standardTemplate = some .diffusion then
        if metrics.isNone then throw (.other "'NoneType' object has no attribute 'get'")
        else pure (less (stepsOf metrics * hourlyPrice * diffusionPriceMultPerStep))
      else pure 0
    return if price = 0 then less (computeUnits * computeUnitPriceBasis / 3600) else price
  else return 0

/-- **`balance_used`**, before the owner of a private chute is looked at. -/
def balanceUsed (rerollMultiplier : ℚ) (req : Request) (metrics : Option Metrics)
    (computeUnits : Option ℚ) (quotes : Quotes) : Except Failure ℚ :=
  match computeUnits with
  | none => return 0
  | some computeUnits =>
    if computeUnits = 0 ∨ req.freeInvocation then return 0
    else do
      let hourlyPrice ← quotes.hourlyPrice
      let applied ←
        match ← quotes.priceOverride with
        | none => pure none
        | some price => overridden req metrics hourlyPrice price
      match applied with
      | some price => return price
      | none =>
        let price ← standardPrice req metrics computeUnits hourlyPrice
        let price := if req.reroll then price * rerollMultiplier else price
        if price = 0 then return 0
        else return price - price * (← quotes.userDiscount)

end Invoke

end ChutesApi
