import ChutesApi.Chute.Model.NodeSelector
/-!
# The GPUs a selector means

The validators of `include` and `exclude` compare names in lower case, and
so accept `H100`. What they accept is stored as it was written, and
`supported_gpus`, `compute_multiplier` and `Node.is_suitable` take it
literally: an inclusion in another case is a GPU that is not known, and an
exclusion in another case excludes nothing. `faithful_iff` has the
selectors that are taken as they are meant.
-/

namespace ChutesApi

open Python

namespace NodeSelector

/-- What the check reads of a node. -/
structure Node where
  verifiedAt : Option ℕ
  gpuIdentifier : String
  deriving DecidableEq

/-- `allowed_gpus`, which a node computes once more. -/
def Node.allowedGpus (selector : NodeSelector) : Except Exc (List String) :=
  match selector.minVramGbPerGpu with
  | none | some 0 => .ok selector.allowedGpus
  | some minVram => withMemory minVram selector.allowedGpus

/-- **`Node.is_suitable`.** -/
def Node.isSuitable (node : Node) (selector : NodeSelector) : Except Exc Bool :=
  if node.verifiedAt = none then .ok false
  else do
    let allowed ← Node.allowedGpus selector
    return decide (node.gpuIdentifier ∈ allowed)

/-- **A GPU that the selector means**, by the names as the validators compare
them. -/
structure Meant (selector : NodeSelector) (gpu : String) : Prop where
  known : gpu ∈ allGpus
  included : orEmpty selector.included ≠ [] → gpu ∈ (orEmpty selector.included).map lower
  exclude : gpu ∉ (orEmpty selector.exclude).map lower
  fits : selector.fits gpu

/-- **A selector is taken as it is meant**: its GPUs are those it means, no
price raises but where it means none, and a node is suitable if it is
verified and has such a GPU. -/
structure Faithful (selector : NodeSelector) : Prop where
  supported : ∃ gpus, selector.supportedGpus = .ok gpus ∧ ∀ gpu, gpu ∈ gpus ↔ selector.Meant gpu
  multiplier : (∃ multiplier, selector.computeMultiplier = .ok multiplier) ∨
    selector.computeMultiplier = .error (.raised .valueError) ∧ ∀ gpu, ¬selector.Meant gpu
  suitable : ∀ node : Node, ∃ suitable, node.isSuitable selector = .ok suitable ∧
    (suitable ↔ node.verifiedAt ≠ none ∧ selector.Meant node.gpuIdentifier)

/-- **The condition**: what is included is in lower case, unless it is
excluded as it is written; what is excluded is there in lower case as well,
if it could be meant; and there is a number of GPUs, unless none is meant. -/
structure Literal (selector : NodeSelector) : Prop where
  included : ∀ gpu ∈ orEmpty selector.included, gpu ∉ orEmpty selector.exclude → lower gpu = gpu
  exclude : ∀ gpu ∈ orEmpty selector.exclude,
    (orEmpty selector.included = [] ∨ lower gpu ∈ orEmpty selector.included) →
      selector.fits (lower gpu) → lower gpu ∈ orEmpty selector.exclude
  gpuCount : selector.gpuCount = none → ∀ gpu, ¬selector.Meant gpu

variable {selector : NodeSelector} {gpu : String} {gpus : List String}

/-! ## Names -/

/-- The names that are known are in lower case. -/
theorem lower_of_known (h : gpu ∈ allGpus) : lower gpu = gpu := by
  have hall : ∀ gpu ∈ allGpus, lower gpu = gpu := by decide
  exact hall gpu h

/-- Whatever the validators accept is known in lower case. -/
theorem Identifiers.known {names : Option (List String)} (h : Identifiers names)
    (hmem : gpu ∈ orEmpty names) (hlower : lower gpu = gpu) : gpu ∈ allGpus :=
  hlower ▸ h gpu hmem

theorem lookup_isSome {ν : Type*} (table : List (String × ν)) (gpu : String) :
    (table.lookup gpu).isSome ↔ gpu ∈ table.map Prod.fst := by
  rw [List.lookup_isSome_iff, List.mem_map]
  simp only [beq_iff_eq]
  exact exists_congr fun row => and_congr_right fun _ => eq_comm

theorem gpuInfo_eq_ok : (∃ info, gpuInfo gpu = .ok info) ↔ gpu ∈ allGpus := by
  unfold allGpus
  rw [← lookup_isSome, Option.isSome_iff_exists]
  unfold gpuInfo
  cases supportedGpuTable.lookup gpu <;> simp

theorem mem_allowedGpus_iff : gpu ∈ selector.allowedGpus ↔
    (orEmpty selector.included = [] ∧ gpu ∈ allGpus ∨ gpu ∈ orEmpty selector.included) ∧
      gpu ∉ orEmpty selector.exclude := by
  unfold allowedGpus
  by_cases hempty : orEmpty selector.included = []
  · simp [hempty]
  · simp [hempty]

/-- Where no memory is asked for, every name fits. -/
theorem fits_of_not_looksUp (h : ¬selector.LooksUp) : selector.fits gpu := by
  unfold LooksUp at h
  unfold fits
  rcases hmin : selector.minVramGbPerGpu with _ | _ | n
  · rfl
  · rfl
  · exact absurd ⟨by simp [hmin], by simp [hmin]⟩ h

/-! ## What raises -/

theorem mapM_eq_ok {α β ε : Type} {f : α → Except ε β} {l : List α}
    (h : ∀ a ∈ l, ∃ b, f a = .ok b) : ∃ bs, l.mapM f = .ok bs ∧ bs.length = l.length := by
  induction l with
  | nil => exact ⟨[], rfl, rfl⟩
  | cons a l ih =>
    obtain ⟨b, hb⟩ := h a List.mem_cons_self
    obtain ⟨bs, hbs, hlength⟩ := ih fun a ha => h a (List.mem_cons_of_mem _ ha)
    refine ⟨b :: bs, ?_, by simp [hlength]⟩
    rw [List.mapM_cons, hb]
    simp [hbs, bind, Except.bind, pure, Except.pure]

/-- The last step of `compute_multiplier`. -/
def multiplied (gpuCount : Option ℕ) (multiplier : Option ℚ) : Except Exc ℚ :=
  match gpuCount, multiplier with
  | some gpuCount, some multiplier => .ok (gpuCount * multiplier)
  | _, _ => .error (.raised .typeError)

/-- **A selector that admits known GPUs** has a price, if it admits any and
has a number of them. -/
theorem computeMultiplier_eq (hok : selector.supportedGpus = .ok gpus)
    (hknown : ∀ gpu ∈ gpus, gpu ∈ allGpus) :
    (gpus = [] → selector.computeMultiplier = .error (.raised .valueError)) ∧
      (gpus ≠ [] → selector.gpuCount = none →
        selector.computeMultiplier = .error (.raised .typeError)) ∧
      (gpus ≠ [] → selector.gpuCount ≠ none →
        ∃ multiplier, selector.computeMultiplier = .ok multiplier) := by
  obtain ⟨multipliers, hmultipliers, hlength⟩ :
      ∃ multipliers, (gpus.mapM fun gpu => do
        let info ← gpuInfo gpu
        return info.hourlyRate / computeUnitPriceBasis) = .ok multipliers ∧
          multipliers.length = gpus.length := by
    refine mapM_eq_ok fun gpu hgpu => ?_
    obtain ⟨info, hinfo⟩ := gpuInfo_eq_ok.2 (hknown gpu hgpu)
    exact ⟨info.hourlyRate / computeUnitPriceBasis, by rw [hinfo]; rfl⟩
  have hprice (hne : gpus ≠ []) :
      selector.computeMultiplier = multiplied selector.gpuCount multipliers.min? := by
    have hensure : ensure (gpus ≠ []) (.raised .valueError) = .ok () := ensure_eq_ok.2 hne
    unfold computeMultiplier
    rw [hok]
    change (ensure (gpus ≠ []) (.raised .valueError) >>= fun _ => _ >>= _) = _
    rw [hensure]
    show (gpus.mapM (m := Except Exc) _ >>= _) = _
    rw [hmultipliers]
    rfl
  refine ⟨fun hempty => ?_, fun hne hcount => ?_, fun hne hcount => ?_⟩
  · subst hempty
    unfold computeMultiplier
    rw [hok]
    rfl
  · rw [hprice hne, hcount]
    rfl
  · obtain ⟨gpuCount, hcount⟩ := Option.ne_none_iff_exists'.1 hcount
    obtain ⟨multiplier, hmin⟩ : ∃ multiplier, multipliers.min? = some multiplier := by
      rw [← Option.isSome_iff_exists, List.isSome_min?_iff]
      rintro rfl
      exact hne (List.length_eq_zero_iff.1 hlength.symm)
    rw [hprice hne, hcount, hmin]
    exact ⟨_, rfl⟩

/-! ## What a selector admits -/

/-- Where it is literal, it admits what it means. -/
theorem Literal.supportedGpus (h : selector.Literal) (hvalid : selector.Valid) :
    selector.supportedGpus = .ok (selector.allowedGpus.filter selector.fits) ∧
      ∀ gpu, gpu ∈ selector.allowedGpus.filter selector.fits ↔ selector.Meant gpu := by
  have hknown : ∀ gpu ∈ selector.allowedGpus, gpu ∈ allGpus := by
    intro gpu hgpu
    obtain ⟨⟨-, hall⟩ | hincluded, hexclude⟩ := mem_allowedGpus_iff.1 hgpu
    · exact hall
    · exact hvalid.included.known hincluded (h.included gpu hincluded hexclude)
  refine ⟨supportedGpus_eq_ok.2 ⟨fun _ gpu hgpu => gpuInfo_eq_ok.2 (hknown gpu hgpu), rfl⟩,
    fun gpu => ?_⟩
  rw [List.mem_filter]
  constructor
  · rintro ⟨hallowed, hfits⟩
    have hlower := lower_of_known (hknown gpu hallowed)
    obtain ⟨hfrom, hexclude⟩ := mem_allowedGpus_iff.1 hallowed
    refine ⟨hknown gpu hallowed, fun hne => ?_, fun hmem => ?_, hfits⟩
    · have hincluded := hfrom.resolve_left fun hempty => hne hempty.1
      exact List.mem_map.2 ⟨gpu, hincluded, hlower⟩
    · obtain ⟨excluded, hexcluded, rfl⟩ := List.mem_map.1 hmem
      exact hexclude (h.exclude excluded hexcluded (hfrom.imp_left And.left) hfits)
  · intro hmeant
    have hlower := lower_of_known hmeant.known
    have hexclude : gpu ∉ orEmpty selector.exclude := fun hmem =>
      hmeant.exclude (List.mem_map.2 ⟨gpu, hmem, hlower⟩)
    refine ⟨mem_allowedGpus_iff.2 ⟨?_, hexclude⟩, hmeant.fits⟩
    by_cases hempty : orEmpty selector.included = []
    · exact .inl ⟨hempty, hmeant.known⟩
    · obtain ⟨name, hname, rfl⟩ := List.mem_map.1 (hmeant.included hempty)
      -- a name that is excluded as it is written is excluded in lower case too
      have hnot : name ∉ orEmpty selector.exclude := fun hmem =>
        hmeant.exclude (List.mem_map.2 ⟨name, hmem, rfl⟩)
      rw [h.included name hname hnot]
      exact .inr hname

/-- Where it admits what it means, what is admitted is literal. -/
theorem literal_of_supported (hvalid : selector.Valid) (hok : selector.supportedGpus = .ok gpus)
    (hmeant : ∀ gpu, gpu ∈ gpus ↔ selector.Meant gpu)
    (hcount : selector.gpuCount = none → ∀ gpu, ¬selector.Meant gpu) : selector.Literal := by
  obtain ⟨hlookup, rfl⟩ := supportedGpus_eq_ok.1 hok
  refine ⟨fun gpu hincluded hexclude => ?_, fun excluded hexcluded hfrom hfits => ?_, hcount⟩
  · have hallowed := mem_allowedGpus_iff.2 ⟨.inr hincluded, hexclude⟩
    by_cases hlooks : selector.LooksUp
    · exact lower_of_known (gpuInfo_eq_ok.1 (hlookup hlooks gpu hallowed))
    · exact lower_of_known ((hmeant gpu).1
        (List.mem_filter.2 ⟨hallowed, fits_of_not_looksUp hlooks⟩)).known
  · by_contra hnot
    have hknown : lower excluded ∈ allGpus := hvalid.exclude excluded hexcluded
    have hallowed := mem_allowedGpus_iff.2 ⟨hfrom.imp_left (⟨·, hknown⟩), hnot⟩
    exact ((hmeant _).1 (List.mem_filter.2 ⟨hallowed, hfits⟩)).exclude
      (List.mem_map.2 ⟨excluded, hexcluded, rfl⟩)

/-- A node is matched with the GPUs the selector admits. -/
theorem Node.isSuitable_eq (node : Node) (hok : selector.supportedGpus = .ok gpus) :
    node.isSuitable selector =
      .ok (decide (node.verifiedAt ≠ none ∧ node.gpuIdentifier ∈ gpus)) := by
  have hallowed : Node.allowedGpus selector = .ok gpus := hok
  unfold Node.isSuitable
  by_cases hverified : node.verifiedAt = none
  · simp [hverified]
  · rw [if_neg hverified, hallowed]
    simp [hverified, bind, Except.bind, pure, Except.pure]

/-- **A valid selector is taken as it is meant** exactly if it is literal. -/
theorem faithful_iff (hvalid : selector.Valid) : selector.Faithful ↔ selector.Literal := by
  constructor
  · intro h
    obtain ⟨gpus, hok, hmeant⟩ := h.supported
    refine literal_of_supported hvalid hok hmeant fun hcount gpu hgpu => ?_
    have hne : gpus ≠ [] := List.ne_nil_of_mem ((hmeant gpu).2 hgpu)
    have hraise := (computeMultiplier_eq hok fun gpu hgpu => ((hmeant gpu).1 hgpu).known).2.1 hne
      hcount
    rcases h.multiplier with ⟨multiplier, hmultiplier⟩ | ⟨-, hnone⟩
    · rw [hraise] at hmultiplier
      exact nomatch hmultiplier
    · exact hnone gpu hgpu
  · intro h
    obtain ⟨hok, hmeant⟩ := h.supportedGpus hvalid
    obtain ⟨hempty, -, hprice⟩ :=
      computeMultiplier_eq hok fun gpu hgpu => ((hmeant gpu).1 hgpu).known
    refine ⟨⟨_, hok, hmeant⟩, ?_, fun node => ⟨_, node.isSuitable_eq hok, ?_⟩⟩
    · by_cases hnil : selector.allowedGpus.filter selector.fits = []
      · refine .inr ⟨hempty hnil, fun gpu hgpu => ?_⟩
        rw [← hmeant, hnil] at hgpu
        exact nomatch hgpu
      · obtain ⟨gpu, hgpu⟩ := List.exists_mem_of_ne_nil _ hnil
        exact .inl (hprice hnil fun hcount => h.gpuCount hcount gpu ((hmeant gpu).1 hgpu))
    · rw [decide_eq_true_eq, hmeant]

theorem faithful_iff_default : ({} : NodeSelector).Faithful ↔ ({} : NodeSelector).Literal :=
  faithful_iff ⟨by decide, by decide, by decide, by decide⟩

/-- A selector of H100s, in upper case, raises. -/
theorem not_faithful_upperCase : ({ included := some ["H100"] } : NodeSelector).Valid ∧
    ¬({ included := some ["H100"] } : NodeSelector).Faithful := by
  refine ⟨⟨by decide, by decide, by decide, by decide⟩, fun h => ?_⟩
  obtain ⟨gpus, hok, -⟩ := h.supported
  have hraise : ({ included := some ["H100"] } : NodeSelector).supportedGpus =
      .error (.raised .keyError) := by decide
  rw [hraise] at hok
  exact nomatch hok

end NodeSelector

end ChutesApi
