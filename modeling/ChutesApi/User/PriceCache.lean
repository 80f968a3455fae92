import ChutesApi.User.Model.PriceCache
/-!
# Discounts and overrides under one key

A number's text has no brace and an object's has one, so neither lookup takes
the other's value for its own: it deletes it and asks its table. A discount is
read as it was written. An override is as well, but for a price that is not
finite, which is written as a null and read as none.
-/

namespace ChutesApi

open Python

namespace PriceCache

variable {json : JsonModule} {env : Env} {userId : UserId} {chuteId : ChuteId}
  {row : Quota.RowKey × Prices} {text : String}

/-- **The query is the lookup.** -/
theorem select_eq : PriceOverride.select userId chuteId env.overrides =
    overrideFor env userId chuteId := by
  refine Quota.argmin_filter_eq (fun row _ => ?_) fun hne v v' => ?_
  · simp [Prod.ext_iff, or_and_right]
  · have huser : "*" ≠ userId := fun h => hne (h ▸ rfl)
    simp [huser]

/-! ## What is read of an override -/

/-- The instance that is made of what was written. -/
def reread (row : Quota.RowKey × Prices) : PriceOverride where
  perRequest := (PriceOverride.scalar row.2.perRequest).written
  perMillionIn := (PriceOverride.scalar row.2.perMillionIn).written
  perMillionOut := (PriceOverride.scalar row.2.perMillionOut).written
  perStep := (PriceOverride.scalar row.2.perStep).written
  userId := .text (Text.ofString row.1.1)
  chuteId := .text (Text.ofString row.1.2)

theorem ofKwargs_dumps (json : JsonModule) (row : Quota.RowKey × Prices) :
    json.loads (json.dumps (PriceOverride.entries row)) >>= PriceOverride.ofKwargs =
      .ok (reread row) := by
  have hnodup : ((PriceOverride.entries row).map Prod.fst).Nodup := by
    change PriceOverride.columns.Nodup
    decide
  rw [json.loads_dumps _ hnodup]
  change PriceOverride.ofKwargs (.object _) = _
  rw [PriceOverride.ofKwargs, if_pos]
  · simp only [Document.get_written]
    rfl
  · intro entry hentry
    obtain ⟨written, hwritten, rfl⟩ := List.mem_map.1 hentry
    have hcolumn : written.1 ∈ PriceOverride.columns :=
      List.mem_map_of_mem (f := Prod.fst) hwritten
    exact List.mem_map_of_mem hcolumn

theorem written_scalar {x : Option Double} :
    (PriceOverride.scalar x).written = PriceOverride.price x ↔
      ∀ y ∈ x, y.value ≠ .inf ∧ y.value ≠ .negInf ∧ y.value ≠ .nan := by
  rcases x with _ | ⟨q | _ | _ | _, h⟩
  · simp [PriceOverride.scalar, PriceOverride.price, Scalar.written]
  all_goals simp [PriceOverride.scalar, PriceOverride.price, Scalar.written]

/-- **An override is read as it was written** when its prices are finite. -/
theorem reread_eq_ofRow : reread row = PriceOverride.ofRow row ↔ row.2.Finite := by
  simp [reread, PriceOverride.ofRow, Prices.Finite, written_scalar]

/-! ## What is in the cache -/

/-- **What the lookups write**: the discount as a number's text, or the row of
the override as an object's. -/
def Written (json : JsonModule) (env : Env) (userId : UserId) (chuteId : ChuteId)
    (key text : String) : Prop :=
  key = cacheKey userId chuteId →
    (float text = .ok (defined env userId chuteId .discount) ∨
      ∃ row ∈ overrideFor env userId chuteId, text = json.dumps (PriceOverride.entries row))

theorem float_error {e : PyError} (h : float text = .error e) : e = .valueError := by
  unfold float at h
  dsimp only at h
  split at h
  · cases h
  split at h
  · cases h
  split at h
  · cases h
  · exact (Except.error.inj h).symm

theorem float_dumps (json : JsonModule) (row : Quota.RowKey × Prices) :
    float (json.dumps (PriceOverride.entries row)) = .error .valueError := by
  rcases hfloat : float (json.dumps (PriceOverride.entries row)) with e | x
  · rw [float_error hfloat]
  · exact absurd (json.brace_mem_dumps _) (brace_notMem_of_float hfloat)

/-- **A number is no override.** -/
theorem ofKwargs_number {x : PyFloat} (h : float text = .ok x) :
    ∃ e, json.loads text >>= PriceOverride.ofKwargs = .error e := by
  rcases hloads : json.loads text with e | value
  · exact ⟨e, rfl⟩
  · cases value with
    | object entries => exact absurd (json.brace_mem_of_loads hloads) (brace_notMem_of_float h)
    | null | bool | number | text | array => exact ⟨.typeError, rfl⟩

theorem ne_empty_of_written (h : Written json env userId chuteId (cacheKey userId chuteId) text) :
    text ≠ "" := by
  rintro rfl
  rcases h rfl with hfloat | ⟨row, -, htext⟩
  · have hempty : float "" = .error .valueError := rfl
    rw [hempty] at hfloat
    cases hfloat
  · have hbrace := json.brace_mem_dumps (PriceOverride.entries row)
    rw [← htext] at hbrace
    exact absurd hbrace (by decide)

/-! ## Each lookup by itself -/

theorem safe_query_discount {n : ℕ} :
    (InvocationDiscount.query env userId chuteId).Safe (Written json env userId chuteId)
      (· = defined env userId chuteId .discount) (n + 1) := by
  rw [InvocationDiscount.query, Quota.select_eq, defined]
  split
  case h_1 row hrow =>
    refine ⟨fun _ => .inl ?_, CacheProg.safe_done.2 ⟨_, rfl, rfl⟩⟩
    rw [defined, hrow]
    exact float_str row.2
  case h_2 hrow =>
    refine ⟨fun _ => .inl ?_, CacheProg.safe_done.2 ⟨_, rfl, rfl⟩⟩
    rw [defined, hrow]
    exact Number.float_str _

/-- **A discount is what its table defines**, whatever was written. -/
theorem safe_discount :
    (InvocationDiscount.get env userId chuteId).Safe (Written json env userId chuteId)
      (· = defined env userId chuteId .discount) 3 := by
  rw [InvocationDiscount.get, CacheProg.Safe]
  refine ⟨?_, fun text htext => ?_⟩
  · rw [Option.getD_none, if_neg (not_not_intro rfl)]
    exact safe_query_discount
  have hread : float text = .ok (defined env userId chuteId .discount) ∨
      float text = .error .valueError := by
    refine (htext rfl).imp_right ?_
    rintro ⟨row, -, rfl⟩
    exact float_dumps json row
  rw [Option.getD_some, if_pos (ne_empty_of_written htext)]
  generalize float text = read at hread
  rcases hread with rfl | rfl
  · exact ⟨_, rfl, rfl⟩
  · exact safe_query_discount

theorem safe_query_override {n : ℕ} :
    (PriceOverride.query json env userId chuteId).Safe (Written json env userId chuteId)
      (· = defined env userId chuteId .override) (n + 1) := by
  rw [PriceOverride.query, select_eq, defined]
  split
  case h_1 row hrow =>
    refine ⟨fun _ => .inr ⟨row, hrow, rfl⟩, CacheProg.safe_done.2 ⟨_, rfl, ?_⟩⟩
    rw [hrow]
    rfl
  case h_2 hrow =>
    refine ⟨_, rfl, ?_⟩
    rw [hrow]
    rfl

/-- **An override is what its table defines**, whatever was written, if its
prices are finite. -/
theorem safe_override (h : ∀ row ∈ overrideFor env userId chuteId, row.2.Finite) :
    (PriceOverride.get json env userId chuteId).Safe (Written json env userId chuteId)
      (· = defined env userId chuteId .override) 3 := by
  rw [PriceOverride.get, CacheProg.Safe]
  refine ⟨?_, fun text htext => ?_⟩
  · rw [Option.getD_none, if_neg (not_not_intro rfl)]
    exact safe_query_override
  rw [Option.getD_some, if_pos (ne_empty_of_written htext)]
  rcases htext rfl with hfloat | ⟨row, hrow, rfl⟩
  · obtain ⟨e, he⟩ := ofKwargs_number hfloat
    rw [he]
    exact safe_query_override
  · rw [ofKwargs_dumps]
    refine ⟨_, rfl, ?_⟩
    rw [defined, hrow, reread_eq_ofRow.2 (h row hrow)]
    rfl

/-- **Finite prices are enough.** -/
theorem cachesApart_of_finite (h : ∀ row ∈ overrideFor env userId chuteId, row.2.Finite) :
    CachesApart json env userId chuteId := by
  intro as s hr
  have hsafe : ∀ table, (lookup json env userId chuteId table).Safe
      (Written json env userId chuteId) (· = defined env userId chuteId table) 3 := by
    intro table
    cases table with
    | discount => exact safe_discount
    | override => exact safe_override h
  exact SharedCache.answered_of_safe hsafe hr

/-! ## An override is read back -/

theorem get_miss : (PriceOverride.get json env userId chuteId).step false (fun _ => none) =
    some (fun _ => none, PriceOverride.query json env userId chuteId) := by
  rw [PriceOverride.get, CacheProg.step]
  simp

theorem query_eq (hrow : overrideFor env userId chuteId = some row) :
    PriceOverride.query json env userId chuteId =
      .set (cacheKey userId chuteId) (json.dumps (PriceOverride.entries row))
        (.done (.ok (some (PriceOverride.ofRow row)))) := by
  rw [PriceOverride.query, select_eq, hrow]

theorem get_hit {store : String → Option String}
    (hstore : store (cacheKey userId chuteId) = some (json.dumps (PriceOverride.entries row))) :
    (PriceOverride.get json env userId chuteId).step false store =
      some (store, .done (.ok (some (reread row)))) := by
  have hne : json.dumps (PriceOverride.entries row) ≠ "" := by
    intro hempty
    have hbrace := json.brace_mem_dumps (PriceOverride.entries row)
    rw [hempty] at hbrace
    exact absurd hbrace (by decide)
  rw [PriceOverride.get, CacheProg.step]
  simp only [Bool.false_eq_true, if_false, hstore, Option.getD_some]
  rw [if_pos hne, ofKwargs_dumps]

/-- **Two lookups one after the other**, the second of which finds what the
first one wrote. -/
theorem run_twice (hrow : overrideFor env userId chuteId = some row) :
    ∃ as s, (SharedCache.system (lookup json env userId chuteId)).Run as s ∧
      ⟨.override, .done (.ok (some (reread row)))⟩ ∈ s.calls := by
  have h₀ : (SharedCache.system (lookup json env userId chuteId)).Run [] ⟨fun _ => none, []⟩ :=
    .init rfl
  have h₁ := h₀.step (a := .call .override) trivial rfl
  have h₂ := h₁.step trivial (SharedCache.step_run 0 false rfl get_miss)
  rw [query_eq hrow] at h₂
  have h₃ := h₂.step trivial (SharedCache.step_run 0 false rfl rfl)
  have h₄ := h₃.step (a := .call .override) trivial rfl
  have h₅ := h₄.step trivial
    (SharedCache.step_run 1 false rfl (get_hit (Function.update_self ..)))
  exact ⟨_, _, h₅, List.mem_cons_of_mem _ List.mem_cons_self⟩

/-- **Finite prices are needed.** -/
theorem finite_of_cachesApart (h : CachesApart json env userId chuteId) :
    ∀ row ∈ overrideFor env userId chuteId, row.2.Finite := by
  intro row hrow
  obtain ⟨as, s, hr, hcall⟩ := run_twice hrow
  obtain ⟨a, ha, hdefined⟩ := (h as s hr).returned _ hcall _ rfl
  obtain rfl := Except.ok.inj ha
  have hsame : some (reread row) = (overrideFor env userId chuteId).map PriceOverride.ofRow :=
    hdefined
  rw [hrow] at hsame
  exact reread_eq_ofRow.1 (Option.some.inj hsame)

/-- **When the caches do not mix**: exactly when the override that the table
defines, if there is one, has only finite prices. -/
theorem cachesApart_iff :
    CachesApart json env userId chuteId ↔
      ∀ row ∈ overrideFor env userId chuteId, row.2.Finite :=
  ⟨finite_of_cachesApart, cachesApart_of_finite⟩

/-- An override of all users whose requests have no finite price. -/
def unbounded : Env where
  defaultDiscounts := Dict.empty
  discounts := Dict.empty
  overrides := Dict.empty.set ("*", "chute")
    { perRequest := some ⟨.inf, trivial⟩, perMillionIn := none, perMillionOut := none,
      perStep := none }

/-- The second of two lookups finds no price at all. -/
theorem not_cachesApart : ¬CachesApart .compact unbounded "user" "chute" := by
  intro h
  have hfinite := finite_of_cachesApart h (("*", "chute"), _) rfl
  exact (hfinite _ List.mem_cons_self _ rfl).1 rfl

end PriceCache

end ChutesApi
