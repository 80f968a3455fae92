import ChutesApi.Python.Exc
import ChutesApi.Python.Str
import Mathlib.Algebra.Order.Ring.Rat
import Mathlib.Data.List.Dedup
/-!
# Node selectors

Which GPUs a chute may run on. A Python set has no order, so what is
listed here is meant up to order. `supportedGpus_eq_ok` says what a
selector admits, and `admits_exclude` what an exclusion takes away.
-/

namespace ChutesApi

open Python

/-- What the selectors read of an entry of `SUPPORTED_GPUS`. -/
structure GpuInfo where
  memory : ℕ
  hourlyRate : ℚ

/-- `SUPPORTED_GPUS`. -/
def supportedGpuTable : List (String × GpuInfo) :=
  [("3090", ⟨24, 3 / 25⟩), ("4090", ⟨24, 1 / 4⟩), ("5090", ⟨32, 7 / 20⟩),
   ("a4000", ⟨16, 1 / 10⟩), ("a4000_ada", ⟨20, 11 / 100⟩), ("a5000", ⟨24, 9 / 50⟩),
   ("a6000", ⟨48, 33 / 100⟩), ("a6000_ada", ⟨48, 9 / 25⟩), ("pro_6000", ⟨96, 11 / 10⟩),
   ("l4", ⟨24, 17 / 100⟩), ("a10", ⟨24, 1 / 4⟩), ("a40", ⟨48, 7 / 20⟩), ("l40", ⟨48, 7 / 20⟩),
   ("l40s", ⟨48, 41 / 100⟩), ("a100_40gb", ⟨40, 11 / 20⟩), ("a100_40gb_sxm", ⟨40, 57 / 100⟩),
   ("a100", ⟨80, 3 / 5⟩), ("a100_sxm", ⟨80, 31 / 50⟩), ("h100", ⟨80, 3 / 2⟩),
   ("h100_nvl", ⟨96, 31 / 20⟩), ("h100_sxm", ⟨80, 17 / 10⟩), ("h800", ⟨80, 13 / 10⟩),
   ("h20", ⟨96, 3 / 5⟩), ("h200", ⟨140, 23 / 10⟩), ("mi300x", ⟨192, 21 / 10⟩),
   ("b200", ⟨192, 7 / 2⟩)]

/-- `SUPPORTED_GPUS[gpu]`. -/
def gpuInfo (gpu : String) : Except Exc GpuInfo :=
  match supportedGpuTable.lookup gpu with
  | some info => .ok info
  | none => .error (.raised .keyError)

/-- `set(SUPPORTED_GPUS)`. -/
def allGpus : List String := supportedGpuTable.map Prod.fst

/-- `COMPUTE_UNIT_PRICE_BASIS`, the highest rate. -/
def computeUnitPriceBasis : ℚ := 7 / 2

/-- **A node selector.** -/
structure NodeSelector where
  gpuCount : Option ℕ := some 1
  minVramGbPerGpu : Option ℕ := some 16
  exclude : Option (List String) := none
  /-- `include`, which is a keyword here. -/
  included : Option (List String) := none
  deriving DecidableEq, Repr

namespace NodeSelector

/-- `x or []`, of a list that may be `None`. -/
def orEmpty (gpus : Option (List String)) : List String := gpus.getD []

/-- What both validators of the lists ask for. -/
def Identifiers (gpus : Option (List String)) : Prop := ∀ gpu ∈ orEmpty gpus, lower gpu ∈ allGpus

instance (gpus : Option (List String)) : Decidable (Identifiers gpus) := by
  unfold Identifiers
  infer_instance

/-- **What a selector must meet** to be accepted. -/
structure Valid (selector : NodeSelector) : Prop where
  gpuCount : ∀ n ∈ selector.gpuCount, 1 ≤ n ∧ n ≤ 8
  minVram : ∀ n ∈ selector.minVramGbPerGpu, 16 ≤ n ∧ n ≤ 140
  included : Identifiers selector.included
  exclude : Identifiers selector.exclude

/-- The GPUs that are neither left out nor excluded. -/
def allowedGpus (selector : NodeSelector) : List String :=
  let allowed :=
    if orEmpty selector.included ≠ [] then (orEmpty selector.included).dedup else allGpus
  allowed.filter fun gpu => gpu ∉ orEmpty selector.exclude

/-- The filter by memory, which looks every GPU up. -/
def withMemory (minVram : ℕ) : List String → Except Exc (List String)
  | [] => .ok []
  | gpu :: gpus => do
    let info ← gpuInfo gpu
    let rest ← withMemory minVram gpus
    return if minVram ≤ info.memory then gpu :: rest else rest

/-- **`supported_gpus`.** -/
def supportedGpus (selector : NodeSelector) : Except Exc (List String) :=
  match selector.minVramGbPerGpu with
  | none | some 0 => .ok selector.allowedGpus
  | some minVram => withMemory minVram selector.allowedGpus

/-- `compute_multiplier`. -/
def computeMultiplier (selector : NodeSelector) : Except Exc ℚ := do
  let supported ← selector.supportedGpus
  ensure (supported ≠ []) (.raised .valueError)
  let multipliers ← supported.mapM fun gpu => do
    let info ← gpuInfo gpu
    return info.hourlyRate / computeUnitPriceBasis
  match selector.gpuCount, multipliers.min? with
  | some gpuCount, some multiplier => return gpuCount * multiplier
  | _, _ => throw (.raised .typeError)

/-- `await self.current_estimated_price()`: its price of an hour in dollars,
and nothing where the price of TAO is not known. -/
def estimatedHourlyPrice (taoUsd : Option ℚ) (selector : NodeSelector) : Except Exc (Option ℚ) :=
  match taoUsd with
  | none => .ok none
  | some _ => do
    let multiplier ← selector.computeMultiplier
    return some (computeUnitPriceBasis * multiplier)

/-! ## What a selector admits -/

/-- `gpu in selector.supported_gpus`. -/
def Admits (selector : NodeSelector) (gpu : String) : Prop :=
  ∃ supported, selector.supportedGpus = .ok supported ∧ gpu ∈ supported

/-- The memory is looked up. -/
def LooksUp (selector : NodeSelector) : Prop :=
  selector.minVramGbPerGpu ≠ none ∧ selector.minVramGbPerGpu ≠ some 0

/-- A GPU that is known has the memory, where it is looked up. -/
def fits (selector : NodeSelector) (gpu : String) : Bool :=
  match selector.minVramGbPerGpu with
  | none | some 0 => true
  | some minVram => (gpuInfo gpu).toOption.any (minVram ≤ ·.memory)

variable {selector : NodeSelector} {gpu : String} {supported gpus : List String} {minVram : ℕ}
variable {exclude exclude' : Option (List String)}

theorem mem_allowedGpus : gpu ∈ { selector with exclude := exclude }.allowedGpus ↔
    gpu ∈ { selector with exclude := none }.allowedGpus ∧ gpu ∉ orEmpty exclude := by
  simp only [allowedGpus, List.mem_filter, decide_eq_true_eq]
  simp [orEmpty]

/-- The filter gets through where every GPU is known, and keeps those with
the memory. -/
theorem withMemory_eq_ok : withMemory minVram gpus = .ok supported ↔
    (∀ gpu ∈ gpus, ∃ info, gpuInfo gpu = .ok info) ∧
      supported = gpus.filter fun gpu => (gpuInfo gpu).toOption.any (minVram ≤ ·.memory) := by
  induction gpus generalizing supported with
  | nil => simp [withMemory, eq_comm]
  | cons gpu gpus ih =>
    have hfilter : ∀ info, gpuInfo gpu = .ok info → ∀ rest : List String,
        (if minVram ≤ info.memory then gpu :: rest else rest) =
          if (gpuInfo gpu).toOption.any (minVram ≤ ·.memory) then gpu :: rest else rest := by
      intro info hinfo rest
      simp [hinfo, Except.toOption]
    rw [withMemory, bind_eq_ok, List.forall_mem_cons, List.filter_cons]
    constructor
    · rintro ⟨info, hinfo, h⟩
      obtain ⟨rest, hrest, h⟩ := bind_eq_ok.1 h
      obtain ⟨hknown, rfl⟩ := ih.1 hrest
      obtain rfl := return_eq_ok.1 h
      exact ⟨⟨⟨info, hinfo⟩, hknown⟩, hfilter info hinfo _⟩
    · rintro ⟨⟨⟨info, hinfo⟩, hknown⟩, rfl⟩
      refine ⟨info, hinfo, bind_eq_ok.2 ⟨_, ih.2 ⟨hknown, rfl⟩, ?_⟩⟩
      rw [return_eq_ok]
      exact hfilter info hinfo _

theorem supportedGpus_eq_ok : selector.supportedGpus = .ok supported ↔
    (selector.LooksUp → ∀ gpu ∈ selector.allowedGpus, ∃ info, gpuInfo gpu = .ok info) ∧
      supported = selector.allowedGpus.filter selector.fits := by
  unfold supportedGpus LooksUp
  rcases hmin : selector.minVramGbPerGpu with _ | _ | minVram
  · have hfits : selector.fits = fun _ => true := funext fun gpu => by simp [fits, hmin]
    simp [hfits, eq_comm]
  · have hfits : selector.fits = fun _ => true := funext fun gpu => by simp [fits, hmin]
    simp [hfits, eq_comm]
  · have hfits : selector.fits = fun gpu =>
        (gpuInfo gpu).toOption.any (minVram + 1 ≤ ·.memory) := funext fun gpu => by
      simp [fits, hmin]
    rw [hfits]
    simpa using @withMemory_eq_ok supported selector.allowedGpus (minVram + 1)

/-- **Only which GPUs are excluded matters**, not in which order or how
often. -/
theorem supportedGpus_congr (h : ∀ gpu, gpu ∈ orEmpty exclude ↔ gpu ∈ orEmpty exclude') :
    { selector with exclude := exclude }.supportedGpus =
      { selector with exclude := exclude' }.supportedGpus := by
  have hallowed : { selector with exclude := exclude }.allowedGpus =
      { selector with exclude := exclude' }.allowedGpus := by
    unfold allowedGpus
    simp only [h]
  unfold supportedGpus
  rw [hallowed]

/-- **Excluding GPUs that are known** takes them away, and no others. -/
theorem admits_exclude (hnone : orEmpty selector.exclude = [])
    (hknown : ∀ gpu ∈ gpus, ∃ info, gpuInfo gpu = .ok info)
    (hok : { selector with exclude := some gpus }.supportedGpus = .ok supported) :
    { selector with exclude := some gpus }.Admits gpu ↔ selector.Admits gpu ∧ gpu ∉ gpus := by
  have hsplit : ∀ gpu, gpu ∈ { selector with exclude := some gpus }.allowedGpus ↔
      gpu ∈ selector.allowedGpus ∧ gpu ∉ gpus := fun gpu => by
    rw [mem_allowedGpus, @mem_allowedGpus selector gpu selector.exclude, hnone]
    simp [orEmpty]
  obtain ⟨hall, hsupported⟩ := supportedGpus_eq_ok.1 hok
  -- the GPUs that were excluded are known, so the submitted selector gets through as well
  have hsubmitted : selector.supportedGpus = .ok (selector.allowedGpus.filter selector.fits) := by
    refine supportedGpus_eq_ok.2 ⟨fun hlook gpu hgpu => ?_, rfl⟩
    by_cases hmem : gpu ∈ gpus
    · exact hknown gpu hmem
    · exact hall hlook gpu ((hsplit gpu).2 ⟨hgpu, hmem⟩)
  have hfits : { selector with exclude := some gpus }.fits = selector.fits := rfl
  simp only [Admits, hok, hsubmitted, Except.ok.injEq, exists_eq_left', hsupported,
    List.mem_filter, hsplit, hfits]
  tauto

end NodeSelector

end ChutesApi
