import ChutesApi.Invoke.Model.Pricing
import Mathlib.Tactic.Linarith
import Mathlib.Tactic.NormNum
import Mathlib.Tactic.Positivity
import Mathlib.Tactic.Ring
/-!
# Advertised and billed prices

The price of tokens is computed three times: when an invocation is billed,
when the details of a model are stored, and when a chute is shown. Each
applies the least price, the factor for a low concurrency and the discount
in an order of its own. `advertisedAsBilled_iff` says for which chutes the
three agree.
-/

namespace ChutesApi

open Python Invoke

/-! ## The prices that are advertised -/

/-- A price in dollars, and in TAO where its rate is known. -/
structure Price where
  usd : PyFloat
  tao : Option PyFloat
  deriving DecidableEq

/-- The prices of a million tokens. -/
structure TokenPrices where
  input : Price
  output : Price
  deriving DecidableEq

/-- A price as it is given out: what is divided by the rate is not
rounded. -/
def quote (round : PyFloat → PyFloat) (taoUsd : Option ℚ) (price : PyFloat) : Price where
  usd := round price
  tao := (taoUsd.filter (· ≠ 0)).map fun rate => price.scale (1 / rate)

/-- What `get_and_store_llm_details` adds to a model's details. -/
structure LlmPricing where
  price : TokenPrices
  /-- The same prices, in OpenRouter's format. -/
  prompt : PyFloat
  completion : PyFloat
  deriving DecidableEq

namespace Chute

variable (chute : Chute) (hourly : ℚ) (taoUsd : Option ℚ)

/-- `price -= price * chute.discount`, if there is a discount. -/
def less (price : ℚ) : PyFloat :=
  match chute.discount with
  | some discount =>
    if discount.truthy then .subFrom price (discount.scale price) else .finite price
  | none => .finite price

/-- A price in the details of a model: the discount, whatever it is, and then
the factor for a low concurrency. -/
def stored (perMillion : ℚ) : PyFloat :=
  if chute.slots < 16 then (chute.less perMillion).scale (16 / chute.slots)
  else chute.less perMillion

/-- **`get_and_store_llm_details`**, its prices. -/
def llmPricing : LlmPricing where
  price :=
    { input := quote id taoUsd (chute.stored (perMillionIn hourly))
      output := quote id taoUsd (chute.stored (perMillionOut hourly)) }
  prompt := chute.stored (perMillionIn hourly)
  completion := chute.stored (perMillionOut hourly)

/-- The hourly price that is shown: a concurrency that is missing or zero
does not raise it. -/
def estimatedHourly : PyFloat :=
  chute.less (match chute.concurrency with
    | some concurrency =>
      if concurrency ≠ 0 ∧ concurrency < 16 then hourly * (16 / concurrency) else hourly
    | none => hourly)

/-- **`_inject_current_estimated_price`**, its prices of tokens. -/
def estimatedPrice : TokenPrices where
  input := quote (·.round 2) taoUsd
    (((chute.estimatedHourly hourly).scale llmPriceMultPerMillionIn).max llmMinPriceIn)
  output := quote (·.round 2) taoUsd
    (((chute.estimatedHourly hourly).scale llmPriceMultPerMillionOut).max llmMinPriceOut)

/-! ## The price that is billed -/

/-- What a million input tokens are billed at. -/
def billedPerMillionIn : ℚ := perMillionIn hourly * chute.scarcity * (1 - chute.discounted)

def billedPerMillionOut : ℚ := perMillionOut hourly * chute.scarcity * (1 - chute.discounted)

/-- **The advertised prices are the billed ones**, whatever the rate of TAO,
but for the rounding of what is shown in dollars. -/
def AdvertisedAsBilled : Prop :=
  ∀ taoUsd : Option ℚ,
    let perMillionIn := PyFloat.finite (chute.billedPerMillionIn hourly)
    let perMillionOut := PyFloat.finite (chute.billedPerMillionOut hourly)
    chute.llmPricing hourly taoUsd =
        ⟨⟨quote id taoUsd perMillionIn, quote id taoUsd perMillionOut⟩, perMillionIn,
          perMillionOut⟩ ∧
      chute.estimatedPrice hourly taoUsd =
        ⟨quote (·.round 2) taoUsd perMillionIn, quote (·.round 2) taoUsd perMillionOut⟩

variable {chute hourly}

theorem discounted_le_one (chute : Chute) : chute.discounted ≤ 1 := by
  unfold discounted
  split
  · split
    · next h => exact h.2.2
    · norm_num
  · norm_num

/-- **The standard price of an LLM's request** is that of its tokens at the
billed prices, or by time where that comes to nothing. -/
theorem standardPrice_of_vllm {req : Request} {metrics : Option Metrics} (computeUnits hourly : ℚ)
    (hvllm : req.chute.standardTemplate = some .vllm) (hm : metrics.isSome)
    (hprice : tokenPrice metrics (req.chute.billedPerMillionIn hourly)
      (req.chute.billedPerMillionOut hourly) ≠ 0) :
    standardPrice req metrics computeUnits hourly =
      .ok (tokenPrice metrics (req.chute.billedPerMillionIn hourly)
        (req.chute.billedPerMillionOut hourly)) := by
  have hless : ∀ d : ℚ, tokenPrice metrics (perMillionIn hourly * req.chute.scarcity)
        (perMillionOut hourly * req.chute.scarcity) -
      tokenPrice metrics (perMillionIn hourly * req.chute.scarcity)
        (perMillionOut hourly * req.chute.scarcity) * d =
      tokenPrice metrics (perMillionIn hourly * req.chute.scarcity * (1 - d))
        (perMillionOut hourly * req.chute.scarcity * (1 - d)) := by
    intro d
    unfold tokenPrice
    ring
  have hlt : req.chute.discounted < 1 := by
    refine lt_of_le_of_ne (discounted_le_one _) fun h => hprice ?_
    simp [billedPerMillionIn, billedPerMillionOut, h, tokenPrice]
  unfold billedPerMillionIn billedPerMillionOut at hprice ⊢
  rw [← hless] at hprice ⊢
  simp [standardPrice, hlt, hvllm, hm, hprice, bind, Except.bind, pure, Except.pure]

/-! ## The factors -/

theorem slots_pos (chute : Chute) : 0 < chute.slots := by
  unfold slots
  split
  · norm_num
  · next n hn _ => exact_mod_cast Nat.pos_of_ne_zero (by rintro rfl; exact hn rfl)
  · norm_num

theorem scarcity_pos (chute : Chute) : 0 < chute.scarcity := by
  have := slots_pos chute
  unfold scarcity
  split
  · positivity
  · norm_num

theorem perMillionIn_pos (hourly : ℚ) : 0 < perMillionIn hourly :=
  lt_max_of_lt_right (by norm_num [llmMinPriceIn])

theorem perMillionOut_pos (hourly : ℚ) : 0 < perMillionOut hourly :=
  lt_max_of_lt_right (by norm_num [llmMinPriceOut])

/-! ## The discount -/

/-- The discount is a number: none counts as zero. -/
def Discounts (chute : Chute) (d : ℚ) : Prop :=
  chute.discount = none ∧ d = 0 ∨ chute.discount = some (.finite d)

variable {d : ℚ}

theorem less_of_discounts (h : chute.Discounts d) (price : ℚ) :
    chute.less price = .finite (price * (1 - d)) := by
  unfold less
  rcases h with ⟨h, rfl⟩ | h
  · rw [h, sub_zero, mul_one]
  · rw [h]
    by_cases hd : d = 0
    · simp [PyFloat.truthy, hd]
    · simp only [PyFloat.truthy, hd, ne_eq, not_false_eq_true, decide_true, if_true,
        PyFloat.scale, PyFloat.subFrom, PyFloat.finite.injEq]
      ring

theorem stored_of_discounts (h : chute.Discounts d) (perMillion : ℚ) :
    chute.stored perMillion = .finite (perMillion * chute.scarcity * (1 - d)) := by
  unfold stored scarcity
  rw [less_of_discounts h]
  split
  · simp only [PyFloat.scale, PyFloat.finite.injEq]
    ring
  · rw [mul_one]

theorem discounted_of_discounts (h : chute.Discounts d) :
    chute.discounted = if -3 < d ∧ d ≤ 1 then d else 0 := by
  unfold discounted
  rcases h with ⟨h, rfl⟩ | h
  · simp [h]
  · rw [h]
    by_cases hd : d = 0
    · simp [hd]
    · simp [hd]

/-- **A discount that is not a number** leaves no price that is one. -/
theorem stored_ne_finite (h : ∀ d, ¬ chute.Discounts d) {perMillion : ℚ} (hpos : 0 < perMillion)
    (q : ℚ) : chute.stored perMillion ≠ .finite q := by
  have hfactor : 0 < 16 / chute.slots := div_pos (by norm_num) (slots_pos chute)
  unfold stored less
  rcases hd : chute.discount with _ | _ | _ | _ | _
  · exact absurd (.inl ⟨hd, rfl⟩) (h 0)
  · exact absurd (.inr hd) (h _)
  · split <;> simp [PyFloat.truthy, PyFloat.scale, PyFloat.subFrom, hpos, hfactor]
  · split <;> simp [PyFloat.truthy, PyFloat.scale, PyFloat.subFrom, hpos, hfactor]
  · split <;> simp [PyFloat.truthy, PyFloat.scale, PyFloat.subFrom]

/-! ## Prices as they are given out -/

/-- The rate of TAO shows a price as it is. -/
theorem forall_quote_eq_iff (round : PyFloat → PyFloat) {price price' : PyFloat} :
    (∀ taoUsd, quote round taoUsd price = quote round taoUsd price') ↔ price = price' := by
  constructor
  · intro h
    have hone : ∀ x : PyFloat, (quote round (some 1) x).tao = some x := by
      intro x
      rcases x with x | _ | _ | _ <;> simp [quote, PyFloat.scale, Option.filter]
    have htao := congrArg Price.tao (h (some 1))
    rwa [hone, hone, Option.some.injEq] at htao
  · rintro rfl taoUsd
    rfl

/-- The three prices compared, without what is given out of them. -/
theorem advertisedAsBilled_iff_prices : chute.AdvertisedAsBilled hourly ↔
    (chute.stored (perMillionIn hourly) = .finite (chute.billedPerMillionIn hourly) ∧
      chute.stored (perMillionOut hourly) = .finite (chute.billedPerMillionOut hourly)) ∧
    ((chute.estimatedHourly hourly).scale llmPriceMultPerMillionIn).max llmMinPriceIn =
        .finite (chute.billedPerMillionIn hourly) ∧
      ((chute.estimatedHourly hourly).scale llmPriceMultPerMillionOut).max llmMinPriceOut =
        .finite (chute.billedPerMillionOut hourly) := by
  constructor
  · intro h
    refine ⟨⟨?_, ?_⟩, ?_, ?_⟩
    · exact congrArg LlmPricing.prompt (h none).1
    · exact congrArg LlmPricing.completion (h none).1
    · exact (forall_quote_eq_iff (·.round 2)).1 fun taoUsd =>
        congrArg TokenPrices.input (h taoUsd).2
    · exact (forall_quote_eq_iff (·.round 2)).1 fun taoUsd =>
        congrArg TokenPrices.output (h taoUsd).2
  · rintro ⟨⟨h1, h2⟩, h3, h4⟩ taoUsd
    refine ⟨?_, ?_⟩
    · simp only [llmPricing, h1, h2]
    · simp only [estimatedPrice, h3, h4]

/-- **The stored price is the billed one** exactly where the discount is one
that billing takes. -/
theorem stored_eq_billed_iff (h : chute.Discounts d) {perMillion : ℚ} (hpos : 0 < perMillion) :
    chute.stored perMillion = .finite (perMillion * chute.scarcity * (1 - chute.discounted)) ↔
      -3 < d ∧ d ≤ 1 := by
  have hne : perMillion * chute.scarcity ≠ 0 := (mul_pos hpos (scarcity_pos chute)).ne'
  rw [stored_of_discounts h, discounted_of_discounts h, PyFloat.finite.injEq,
    mul_right_inj' hne, sub_right_inj]
  constructor
  · intro hd
    split at hd
    · assumption
    · exact hd ▸ ⟨by norm_num, by norm_num⟩
  · intro hd
    rw [if_pos hd]

/-! ## The floor -/

/-- A price scaled before and after its floor is the same where nothing is
scaled or the floor plays no part. -/
theorem max_mul_eq_iff {y floor t : ℚ} (hfloor : 0 < floor) (ht : 0 < t) :
    max (y * t) floor = max y floor * t ↔ t = 1 ∨ floor ≤ y ∧ floor ≤ y * t := by
  constructor
  · intro h
    rcases le_or_gt floor y with hy | hy
    · rw [max_eq_left hy] at h
      exact .inr ⟨hy, h ▸ le_max_right _ _⟩
    · rw [max_eq_right hy.le] at h
      have hyt : y * t < floor * t := mul_lt_mul_of_pos_right hy ht
      have hmax : max (y * t) floor = floor := by
        rcases max_choice (y * t) floor with h' | h'
        · exact absurd (h'.symm.trans h) hyt.ne
        · exact h'
      exact .inl (mul_left_cancel₀ hfloor.ne' ((hmax.symm.trans h).symm.trans (mul_one _).symm))
  · rintro (rfl | ⟨hy, hyt⟩)
    · rw [mul_one, mul_one]
    · rw [max_eq_left hy, max_eq_left hyt]

/-- The same where only the billed price is scaled up, by sixteen. -/
theorem max_mul_sixteen_eq_iff {y floor e : ℚ} (hfloor : 0 < floor) (he : 0 < e) :
    max (y * e) floor = max y floor * 16 * e ↔ 16 * e * max y floor = floor := by
  have hmax : 0 < max y floor := lt_max_of_lt_right hfloor
  have hye : y * e ≤ max y floor * e := mul_le_mul_of_nonneg_right (le_max_left _ _) he.le
  have hpos : 0 < max y floor * e := mul_pos hmax he
  constructor
  · intro h
    rcases max_choice (y * e) floor with h' | h'
    · rw [h'] at h
      linarith
    · rw [h'] at h
      linarith
  · intro h
    rw [max_eq_right (by linarith)]
    linarith

/-! ## The factor for a low concurrency -/

/-- What the shown price is multiplied by. -/
def estimateFactor (chute : Chute) : ℚ :=
  match chute.concurrency with
  | some concurrency => if concurrency ≠ 0 ∧ concurrency < 16 then 16 / concurrency else 1
  | none => 1

theorem estimated_of_discounts (h : chute.Discounts d) (mult floor : ℚ) :
    ((chute.estimatedHourly hourly).scale mult).max floor =
      .finite (max (hourly * mult * ((1 - d) * chute.estimateFactor)) floor) := by
  have hhourly : chute.estimatedHourly hourly = chute.less (hourly * chute.estimateFactor) := by
    unfold estimatedHourly estimateFactor
    split
    · split <;> simp
    · rw [mul_one]
  rw [hhourly, less_of_discounts h, PyFloat.scale,
    show hourly * chute.estimateFactor * (1 - d) * mult =
      hourly * mult * ((1 - d) * chute.estimateFactor) by ring, PyFloat.max_finite]

theorem estimateFactor_of_limited (h : chute.concurrency.getD 0 ≠ 0) :
    chute.estimateFactor = chute.scarcity := by
  rcases hc : chute.concurrency with _ | concurrency
  · rw [hc] at h
    exact absurd rfl h
  · have hne : concurrency ≠ 0 := by simpa [hc] using h
    have hslots : chute.slots = concurrency := by
      unfold slots
      rw [hc]
      split
      · next h0 => exact absurd (Option.some.inj h0) hne
      · next h0 => rw [Option.some.inj h0]
      · next h0 => cases h0
    unfold estimateFactor scarcity
    rw [hc, hslots]
    by_cases hlt : concurrency < 16
    · simp [hne, hlt, show ((concurrency : ℕ) : ℚ) < 16 by exact_mod_cast hlt]
    · simp [hne, hlt, show ¬ ((concurrency : ℕ) : ℚ) < 16 by exact_mod_cast hlt]

theorem factors_of_unlimited (h : chute.concurrency.getD 0 = 0) :
    chute.estimateFactor = 1 ∧ chute.scarcity = 16 := by
  unfold estimateFactor scarcity slots
  rcases hc : chute.concurrency with _ | _ | concurrency
  · norm_num
  · norm_num
  · rw [hc] at h
    cases h

/-! ## When the prices agree -/

/-- **The condition on a chute and its hourly price.** The discount is a
number over -3 and below 1. With a concurrency, the factors cancel out or the
least price does not apply to input tokens, as they are and as scaled;
without one, or with one of zero, the discount makes up for the factor and
the least price applies to all tokens. -/
def PricedAlike (chute : Chute) (hourly : ℚ) : Prop :=
  ∃ d, chute.Discounts d ∧ (-3 < d ∧ d < 1) ∧
    if chute.concurrency.getD 0 = 0 then
      d = 15 / 16 ∧ hourly * llmPriceMultPerMillionOut ≤ llmMinPriceOut
    else (1 - d) * chute.scarcity = 1 ∨
      llmMinPriceIn ≤ hourly * llmPriceMultPerMillionIn ∧
        llmMinPriceIn ≤ hourly * llmPriceMultPerMillionIn * ((1 - d) * chute.scarcity)

theorem Discounts.unique {d' : ℚ} (h : chute.Discounts d) (h' : chute.Discounts d') : d = d' := by
  rcases h with ⟨h, rfl⟩ | h <;> rcases h' with ⟨h', rfl⟩ | h'
  · rfl
  · rw [h] at h'
    cases h'
  · rw [h] at h'
    cases h'
  · rw [h] at h'
    cases h'
    rfl

/-- Where input tokens are above the least price, so are output tokens, which
cost more. -/
theorem floor_le_out {t : ℚ} (h : llmMinPriceIn ≤ hourly * llmPriceMultPerMillionIn * t) :
    llmMinPriceOut ≤ hourly * llmPriceMultPerMillionOut * t := by
  norm_num only [llmMinPriceIn, llmMinPriceOut, llmPriceMultPerMillionIn,
    llmPriceMultPerMillionOut] at h ⊢
  have hpos : 0 ≤ hourly * t := by linarith
  linarith

/-- With a concurrency, both prices shown are the billed ones. -/
theorem estimated_eq_limited {t : ℚ} (ht : 0 < t) :
    (max (hourly * llmPriceMultPerMillionIn * t) llmMinPriceIn = perMillionIn hourly * t ∧
      max (hourly * llmPriceMultPerMillionOut * t) llmMinPriceOut = perMillionOut hourly * t) ↔
    t = 1 ∨ llmMinPriceIn ≤ hourly * llmPriceMultPerMillionIn ∧
      llmMinPriceIn ≤ hourly * llmPriceMultPerMillionIn * t := by
  rw [perMillionIn, perMillionOut, max_mul_eq_iff (by norm_num [llmMinPriceIn]) ht,
    max_mul_eq_iff (by norm_num [llmMinPriceOut]) ht]
  constructor
  · exact fun h => h.1
  · refine fun h => ⟨h, h.imp_right fun ⟨h1, ht1⟩ => ⟨?_, floor_le_out ht1⟩⟩
    have hout := floor_le_out (t := 1) (by rwa [mul_one])
    rwa [mul_one] at hout

/-- Without one, they are where the discount is of fifteen sixteenths and no
price exceeds the least. -/
theorem estimated_eq_unlimited {e : ℚ} (he : 0 < e) :
    (max (hourly * llmPriceMultPerMillionIn * e) llmMinPriceIn = perMillionIn hourly * 16 * e ∧
      max (hourly * llmPriceMultPerMillionOut * e) llmMinPriceOut =
        perMillionOut hourly * 16 * e) ↔
    e = 1 / 16 ∧ hourly * llmPriceMultPerMillionOut ≤ llmMinPriceOut := by
  rw [perMillionIn, perMillionOut, max_mul_sixteen_eq_iff (by norm_num [llmMinPriceIn]) he,
    max_mul_sixteen_eq_iff (by norm_num [llmMinPriceOut]) he]
  norm_num only [llmMinPriceIn, llmMinPriceOut, llmPriceMultPerMillionIn,
    llmPriceMultPerMillionOut]
  constructor
  · rintro ⟨hin, hout⟩
    have hmul : 16 * e * max (hourly * (271739 / 20000000)) (1 / 100) =
        16 * e * max (hourly * (2717391 / 50000000)) (1 / 100) := hin.trans hout.symm
    have hmax := mul_left_cancel₀ (by positivity : 16 * e ≠ 0) hmul
    -- The two prices differ unless both are the least price.
    have hle : hourly * (2717391 / 50000000) ≤ 1 / 100 := by
      by_contra hgt
      rw [not_le] at hgt
      rw [max_eq_left hgt.le] at hmax
      rcases max_choice (hourly * (271739 / 20000000)) (1 / 100 : ℚ) with h | h
      · rw [h] at hmax
        linarith
      · rw [h] at hmax
        linarith
    rw [max_eq_right hle] at hout
    exact ⟨by linarith, hle⟩
  · rintro ⟨rfl, hle⟩
    have hle' : hourly * (271739 / 20000000) ≤ 1 / 100 := by
      rcases le_total hourly 0 with h | h <;> linarith
    rw [max_eq_right hle, max_eq_right hle']
    norm_num

/-- **The advertised prices are the billed ones exactly under the
condition.** -/
theorem advertisedAsBilled_iff (chute : Chute) (hourly : ℚ) :
    chute.AdvertisedAsBilled hourly ↔ chute.PricedAlike hourly := by
  rw [advertisedAsBilled_iff_prices]
  by_cases hex : ∃ d, chute.Discounts d
  swap
  · refine iff_of_false (fun h => ?_) fun ⟨d, hd, _⟩ => hex ⟨d, hd⟩
    exact stored_ne_finite (not_exists.1 hex) (perMillionIn_pos hourly) _ h.1.1
  obtain ⟨d, hd⟩ := hex
  have hcond : chute.PricedAlike hourly ↔ (-3 < d ∧ d < 1) ∧
      if chute.concurrency.getD 0 = 0 then
        d = 15 / 16 ∧ hourly * llmPriceMultPerMillionOut ≤ llmMinPriceOut
      else (1 - d) * chute.scarcity = 1 ∨
        llmMinPriceIn ≤ hourly * llmPriceMultPerMillionIn ∧
          llmMinPriceIn ≤ hourly * llmPriceMultPerMillionIn * ((1 - d) * chute.scarcity) := by
    constructor
    · rintro ⟨d', hd', h⟩
      rwa [hd.unique hd']
    · exact fun h => ⟨d, hd, h⟩
  rw [hcond, billedPerMillionIn, billedPerMillionOut,
    stored_eq_billed_iff hd (perMillionIn_pos hourly),
    stored_eq_billed_iff hd (perMillionOut_pos hourly), and_self,
    estimated_of_discounts hd, estimated_of_discounts hd, PyFloat.finite.injEq,
    PyFloat.finite.injEq]
  by_cases hrange : -3 < d ∧ d ≤ 1
  swap
  · exact iff_of_false (fun h => hrange h.1) fun h => hrange ⟨h.1.1, h.1.2.le⟩
  rw [discounted_of_discounts hd, if_pos hrange]
  rcases hrange.2.eq_or_lt with rfl | hlt
  · -- Free of charge, and shown at the least price.
    refine iff_of_false (fun h => ?_) fun h => h.1.2.false
    have hin := h.2.1
    norm_num [llmMinPriceIn] at hin
  have he : 0 < 1 - d := by linarith
  refine and_congr ⟨fun _ => ⟨hrange.1, hlt⟩, fun _ => hrange⟩ ?_
  by_cases hlimit : chute.concurrency.getD 0 = 0
  · obtain ⟨hfactor, hscarce⟩ := factors_of_unlimited hlimit
    rw [if_pos hlimit, hfactor, hscarce, mul_one, estimated_eq_unlimited he]
    exact and_congr_left fun _ => ⟨fun h => by linarith, fun h => by linarith⟩
  · rw [if_neg hlimit, estimateFactor_of_limited hlimit,
      ← estimated_eq_limited (mul_pos he (scarcity_pos chute))]
    have hcomm : ∀ price : ℚ, price * chute.scarcity * (1 - d) =
        price * ((1 - d) * chute.scarcity) := fun price => by ring
    rw [hcomm, hcomm]

/-- A chute for LLMs, with a concurrency and no discount. -/
private def llmChute (concurrency : ℕ) (discount : ℚ) : Chute where
  chuteId := "c"
  userId := "u"
  name := "llm"
  isPublic := true
  standardTemplate := some .vllm
  concurrency := some concurrency
  discount := some (.finite discount)
  createdAt := 0

example : (llmChute 16 0).PricedAlike (1 / 2) :=
  ⟨0, .inr rfl, by norm_num, .inl (by decide +kernel)⟩

/-- **Prices are not always billed as advertised**: at 50 cents an hour and
with a concurrency of one, the least price is applied before the factor in
one place and after it in the other. -/
theorem not_advertisedAsBilled : ¬ ∀ (chute : Chute) (hourly : ℚ),
    chute.standardTemplate = some .vllm → 0 < hourly → chute.AdvertisedAsBilled hourly := by
  intro h
  have hin := (advertisedAsBilled_iff_prices.1 (h (llmChute 1 0) (1 / 2) rfl (by norm_num))).2.1
  revert hin
  decide +kernel

end Chute

end ChutesApi
