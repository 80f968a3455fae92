import ChutesApi.Affine.Model.Check
import ChutesApi.Chute.Model.NodeSelector
import ChutesApi.User.Model
/-!
# The GPUs that a deployment may not use

`deploy_chute` and `_deploy_chute` each mean to add GPUs to what the
selector excludes. Both write `exclude or [] + forced`, which adds them
only where nothing is excluded: a selector that excludes anything keeps
whatever else it admitted (`restricted_iff`).
-/

namespace ChutesApi

open Python NodeSelector

namespace Deploy

/-- What a deployment reads of its request. -/
structure ChuteArgs where
  name : String
  code : String
  nodeSelector : NodeSelector

/-- What the handlers read elsewhere. -/
structure Env where
  /-- `await chutes_user_id()`. -/
  chutesUserId : UserId
  /-- `is_affine_registered` of the user. -/
  affineRegistered : Bool
  /-- `ensure_is_developer(raise_=False)`. -/
  notDeveloper : Option Exc
  parse : String → Except Affine.ParseError (List Affine.Ast)
  /-- `required_gpus` and `min_vram_per_gpu` of the guessed configuration. -/
  guessed : Except Exc (ℕ × ℕ)
  /-- `limit_deployments` and `is_bad_code`. -/
  limits : Except Exc Unit
  /-- The checks of `_deploy_chute` on the image and the version. -/
  image : Except Exc Unit
  /-- The user has a chute of that name. -/
  replaces : Bool
  taoUsd : Option ℚ
  /-- The checks on the deployment fee, which is for an hourly price. -/
  fee : ℚ → Except Exc Unit
  /-- The checks after the selector, and the commit. -/
  commit : Except Exc Unit

variable (env : Env) (user : User) (args : ChuteArgs)

/-- What a deployment forces out. -/
def premium : List String := ["h200", "b200", "mi300x"]

/-- What the deployment of an affine model forces out. -/
def affinePremium : List String := ["b200", "mi300x"]

/-- `list(set(exclude or [] + forced))`. The addition binds more tightly
than the `or`. -/
def excludeOr (exclude : Option (List String)) (forced : List String) : Option (List String) :=
  let exclude := orEmpty exclude
  some (if exclude ≠ [] then exclude else [] ++ forced).dedup

/-- The user is subject to the restriction. -/
def isOrdinary : Bool :=
  user.userId != env.chutesUserId && !user.hasRole Permissioning.unlimitedDev &&
    !env.affineRegistered

/-- `re.match(r"[^/]+/affine.*", name, re.I)`. -/
def isNamedAffine (name : String) : Bool :=
  let name := (lower name).toList
  let owner := name.takeWhile (· != '/')
  owner != [] && ("/affine".toList).isPrefixOf (name.drop owner.length)

/-- The deployment is that of an affine model. -/
def isAffineModel : Bool :=
  contains (lower args.name) "affine" && !user.hasRole Permissioning.unlimitedDev &&
    !(["affine", "affine2", "unconst", "nonaffine"].contains (lower user.username))

/-- What `_deploy_chute` does to the selector of an ordinary user. -/
def restrict (selector : NodeSelector) : Except Exc NodeSelector := do
  ensure (¬ ∃ minVram ∈ selector.minVramGbPerGpu, 80 < minVram)
    (.http 403 "You are not allowed to require > 80gb VRAM per GPU at this time.")
  let selector := { selector with exclude := excludeOr selector.exclude premium }
  let supported ← selector.supportedGpus
  ensure (supported ≠ []) (.http 400 "No supported GPUs based on node selector!")
  ensure (∃ gpu ∈ supported, gpu ∉ ["b200", "h200", "mi300x"])
    (.http 403 "You are not allowed to require h200, b200 or mi300x at this time.")
  return selector

def restrictOrdinary (selector : NodeSelector) : Except Exc NodeSelector :=
  if isOrdinary env user then restrict selector else .ok selector

/-- The hourly price that the deployment fee is for: that of a new chute, unless
the account is free. -/
def feeBasis (estimate : Option ℚ) : Except Exc ℚ :=
  if user.hasRole Permissioning.freeAccount || env.replaces then .ok 0
  else match estimate with
    | none => .error (.raised .typeError)
    | some hourly => .ok hourly

/-- **`_deploy_chute`**: the selector that is stored. -/
def deployInner (selector : NodeSelector) : Except Exc NodeSelector := do
  env.image
  let supported ← selector.supportedGpus
  ensure (¬ (supported ≠ [] ∧ ∀ gpu ∈ supported, gpu = "5090"))
    (.http 403 "You are not allowed to require 5090s")
  let estimate ← selector.estimatedHourlyPrice env.taoUsd
  let hourly ← feeBasis env user estimate
  env.fee hourly
  let selector ← restrictOrdinary env user selector
  env.commit
  return selector

/-- The checks of an affine model, and what it excludes. -/
def affineSelector (affineChecked : Bool) : Except Exc NodeSelector := do
  ensure (affineChecked ∨ env.affineRegistered) (.http 403
    "Only users with hotkeys registered on affine may deploy chutes with 'affine' in the name")
  let (valid, message) ← (Affine.checkAffineCode env.parse args.code).mapError .raised
  ensure (valid = true) (.http 400 message)
  let (requiredGpus, minVramPerGpu) ← env.guessed
  let selector :=
    { args.nodeSelector with exclude := excludeOr args.nodeSelector.exclude affinePremium }
  let minVramRequired := requiredGpus * minVramPerGpu
  let supported ← selector.supportedGpus
  let memories := supportedGpuTable.filterMap fun (gpu, info) =>
    if gpu ∈ supported then some info.memory else none
  match memories.min?, selector.gpuCount with
  | none, _ => throw (.raised .valueError)
  | some _, none => throw (.raised .typeError)
  | some memory, some gpuCount =>
    let nodeSelectorMinVram := gpuCount * memory
    ensure (¬ (minVramRequired < 8 * 140 ∧ nodeSelectorMinVram < minVramRequired)) (.http 400
      (s!"node_selector specs are insufficient to support the model: " ++
        s!"min_vram_required={minVramRequired} " ++
        s!"node_selector_min_vram={nodeSelectorMinVram}, please fix and try again."))
    return selector

/-- The check that a user is a developer or registered on affine: whether
the registration has been looked up. -/
def admitUser : Except Exc Bool :=
  match env.notDeveloper with
  | none => .ok false
  | some e => do
    ensure (env.affineRegistered = true) e
    ensure (isNamedAffine args.name = true)
      (.http 403 "Affine miners may only deploy chutes named */affine*")
    return true

def restrictAffine (affineChecked : Bool) : Except Exc NodeSelector :=
  if isAffineModel user args then affineSelector env args affineChecked else .ok args.nodeSelector

/-- **`deploy_chute`**: the selector that is stored. -/
def deployChute : Except Exc NodeSelector := do
  let affineChecked ← admitUser env args
  let selector ← restrictAffine env user args affineChecked
  env.limits
  deployInner env user selector

/-! ## What is forced out -/

/-- What the handlers mean to force out. -/
def forced : List String :=
  if isAffineModel user args then affinePremium
  else if isOrdinary env user then premium
  else []

/-- **The restriction**: the stored selector admits none of these GPUs, and
all the others that the submitted one admitted. -/
structure Restricted (stored : NodeSelector) : Prop where
  forced : ∀ gpu ∈ forced env user args, ¬ stored.Admits gpu
  kept : ∀ gpu ∉ Deploy.forced env user args, args.nodeSelector.Admits gpu → stored.Admits gpu

variable {env user args} {selector stored : NodeSelector} {gpu : String} {gpus : List String}

theorem known_of_mem_premium (h : gpu ∈ premium) : ∃ info, gpuInfo gpu = .ok info := by
  simp only [premium, List.mem_cons, List.not_mem_nil, or_false] at h
  rcases h with rfl | rfl | rfl <;> exact ⟨_, rfl⟩

theorem known_of_mem_affinePremium (h : gpu ∈ affinePremium) : ∃ info, gpuInfo gpu = .ok info :=
  known_of_mem_premium (List.mem_cons_of_mem _ h)

/-- **A selector that excludes something** admits what it admitted. -/
theorem admits_excludeOr_of_ne (h : orEmpty selector.exclude ≠ []) :
    { selector with exclude := excludeOr selector.exclude gpus }.Admits gpu ↔
      selector.Admits gpu := by
  have hmem : ∀ gpu, gpu ∈ orEmpty (excludeOr selector.exclude gpus) ↔
      gpu ∈ orEmpty selector.exclude := fun gpu => by
    rw [excludeOr, if_pos h, orEmpty, Option.getD_some, List.mem_dedup]
  unfold Admits
  rw [supportedGpus_congr hmem]

/-- A selector that excludes nothing loses what is forced out. -/
theorem admits_excludeOr_of_eq {supported : List String} (h : orEmpty selector.exclude = [])
    (hknown : ∀ gpu ∈ gpus, ∃ info, gpuInfo gpu = .ok info)
    (hok : { selector with exclude := excludeOr selector.exclude gpus }.supportedGpus =
      .ok supported) :
    { selector with exclude := excludeOr selector.exclude gpus }.Admits gpu ↔
      selector.Admits gpu ∧ gpu ∉ gpus := by
  have hexclude : excludeOr selector.exclude gpus = some gpus.dedup := by
    rw [excludeOr, if_neg (not_not.2 h), List.nil_append]
  rw [hexclude] at hok ⊢
  rw [admits_exclude h (fun gpu hgpu => hknown gpu (List.mem_dedup.1 hgpu)) hok, List.mem_dedup]

/-! ## What is stored -/

theorem restrict_eq_ok (h : restrict selector = .ok stored) :
    stored = { selector with exclude := excludeOr selector.exclude premium } ∧
      ∃ supported, stored.supportedGpus = .ok supported := by
  simp only [restrict, bind_eq_ok, ensure_eq_ok, return_eq_ok] at h
  obtain ⟨-, -, supported, hsupported, -, -, -, -, rfl⟩ := h
  exact ⟨rfl, supported, hsupported⟩

theorem deployInner_eq_ok (h : deployInner env user selector = .ok stored) :
    isOrdinary env user = true ∧ restrict selector = .ok stored ∨
      isOrdinary env user = false ∧ stored = selector := by
  simp only [deployInner, bind_eq_ok, return_eq_ok] at h
  obtain ⟨-, -, -, -, -, -, -, -, -, -, -, -, restricted, hrestrict, -, -, rfl⟩ := h
  unfold restrictOrdinary at hrestrict
  cases hord : isOrdinary env user with
  | true =>
    rw [hord, if_pos rfl] at hrestrict
    exact .inl ⟨rfl, hrestrict⟩
  | false =>
    rw [hord] at hrestrict
    exact .inr ⟨rfl, (Except.ok.inj hrestrict).symm⟩

/-- Only a user registered on affine gets through, whose selector then
excludes what `excludeOr` makes of it. -/
theorem affineSelector_eq_ok {affineChecked : Bool}
    (h : affineSelector env args affineChecked = .ok stored) :
    (affineChecked = true ∨ env.affineRegistered = true) ∧
      stored = { args.nodeSelector with
        exclude := excludeOr args.nodeSelector.exclude affinePremium } ∧
        ∃ supported, stored.supportedGpus = .ok supported := by
  simp only [affineSelector, bind_eq_ok, ensure_eq_ok] at h
  obtain ⟨-, hregistered, ⟨valid, message⟩, -, h⟩ := h
  obtain ⟨-, -, ⟨requiredGpus, minVramPerGpu⟩, -, h⟩ := h
  obtain ⟨supported, hsupported, h⟩ := h
  refine ⟨hregistered, ?_⟩
  split at h
  · simp at h
  · simp at h
  · simp only [bind_eq_ok, return_eq_ok] at h
    obtain ⟨-, -, rfl⟩ := h
    exact ⟨rfl, supported, hsupported⟩

theorem admitUser_eq_ok {affineChecked : Bool} (h : admitUser env args = .ok affineChecked) :
    affineChecked = true → env.affineRegistered = true := by
  unfold admitUser at h
  split at h
  · cases h
    exact fun h => by cases h
  · simp only [bind_eq_ok, ensure_eq_ok] at h
    obtain ⟨-, hregistered, -⟩ := h
    exact fun _ => hregistered

/-- **What a deployment stores**: the submitted selector where nothing is
forced out, and otherwise that selector with what `excludeOr` makes of its
exclusions. -/
theorem deployChute_eq_ok (h : deployChute env user args = .ok stored) :
    forced env user args = [] ∧ stored = args.nodeSelector ∨
      stored = { args.nodeSelector with
        exclude := excludeOr args.nodeSelector.exclude (forced env user args) } ∧
        ∃ supported, stored.supportedGpus = .ok supported := by
  simp only [deployChute, bind_eq_ok] at h
  obtain ⟨affineChecked, hadmit, selector, hselector, -, -, h⟩ := h
  unfold restrictAffine at hselector
  cases haffine : isAffineModel user args with
  | true =>
    rw [haffine, if_pos rfl] at hselector
    obtain ⟨hregistered, hstored, hsupported⟩ := affineSelector_eq_ok hselector
    have hreg : env.affineRegistered = true := hregistered.elim (admitUser_eq_ok hadmit) id
    have hord : isOrdinary env user = false := by simp [isOrdinary, hreg]
    obtain ⟨hord', -⟩ | ⟨-, rfl⟩ := deployInner_eq_ok h
    · rw [hord] at hord'
      cases hord'
    · rw [forced, haffine, if_pos rfl]
      exact .inr ⟨hstored, hsupported⟩
  | false =>
    rw [haffine] at hselector
    obtain rfl := Except.ok.inj hselector
    obtain ⟨hord, hrestrict⟩ | ⟨hord, rfl⟩ := deployInner_eq_ok h
    · rw [forced, haffine, hord]
      exact .inr (restrict_eq_ok hrestrict)
    · rw [forced, haffine, hord]
      exact .inl ⟨rfl, rfl⟩

theorem known_of_mem_forced (h : gpu ∈ forced env user args) :
    ∃ info, gpuInfo gpu = .ok info := by
  unfold forced at h
  split at h
  · exact known_of_mem_affinePremium h
  · split at h
    · exact known_of_mem_premium h
    · cases h

/-- **Exactly when the restriction holds** of a chute that is deployed: the
submitted selector excludes nothing, or did not admit what is forced out
in the first place. -/
theorem restricted_iff (h : deployChute env user args = .ok stored) :
    Restricted env user args stored ↔
      orEmpty args.nodeSelector.exclude = [] ∨
        ∀ gpu ∈ forced env user args, ¬ args.nodeSelector.Admits gpu := by
  rcases deployChute_eq_ok h with ⟨hnone, rfl⟩ | ⟨rfl, supported, hsupported⟩
  · refine iff_of_true ⟨?_, fun _ _ hadmits => hadmits⟩ (.inr ?_)
    all_goals
      rw [hnone]
      exact fun gpu hgpu => absurd hgpu List.not_mem_nil
  · by_cases hexclude : orEmpty args.nodeSelector.exclude = []
    · refine iff_of_true ⟨fun gpu hgpu hadmits => ?_, fun gpu hgpu hadmits => ?_⟩ (.inl hexclude)
      · exact ((admits_excludeOr_of_eq hexclude (fun _ => known_of_mem_forced) hsupported).1
          hadmits).2 hgpu
      · exact (admits_excludeOr_of_eq hexclude (fun _ => known_of_mem_forced) hsupported).2
          ⟨hadmits, hgpu⟩
    · rw [or_iff_right hexclude]
      constructor
      · exact fun hr gpu hgpu hadmits =>
          hr.forced gpu hgpu ((admits_excludeOr_of_ne hexclude).2 hadmits)
      · intro hno
        refine ⟨fun gpu hgpu hadmits => ?_, fun gpu _ hadmits => ?_⟩
        · exact hno gpu hgpu ((admits_excludeOr_of_ne hexclude).1 hadmits)
        · exact (admits_excludeOr_of_ne hexclude).2 hadmits

/-- Everything but the selector is in order. -/
private def inOrder : Env where
  chutesUserId := "chutes"
  affineRegistered := false
  notDeveloper := none
  parse _ := .ok []
  guessed := .ok (1, 16)
  limits := .ok ()
  image := .ok ()
  replaces := false
  taoUsd := some 300
  fee _ := .ok ()
  commit := .ok ()

private def ordinary : User := { userId := "u" }

private def submit (selector : NodeSelector) : ChuteArgs := ⟨"chute", "", selector⟩

/-- One GPU is excluded, of which nothing is required. -/
private def excluding : NodeSelector := { exclude := some ["3090"] }

/-- **A chute for H200s.** -/
theorem not_restricted :
    ¬ ∀ (env : Env) (user : User) (args : ChuteArgs) (stored : NodeSelector),
      args.nodeSelector.Valid → deployChute env user args = .ok stored →
        Restricted env user args stored := by
  intro h
  have hvalid : excluding.Valid :=
    ⟨by decide +kernel, by decide +kernel, by decide +kernel, by decide +kernel⟩
  have hrun : deployChute inOrder ordinary (submit excluding) = .ok excluding := by decide +kernel
  refine (h inOrder ordinary (submit excluding) excluding hvalid hrun).forced "h200"
    (by decide +kernel) ⟨excluding.allowedGpus.filter excluding.fits, ?_, by decide +kernel⟩
  decide +kernel

theorem restricted_iff_default :
    deployChute inOrder ordinary (submit {}) =
        .ok { exclude := some ["h200", "b200", "mi300x"] } ∧
      (Restricted inOrder ordinary (submit {}) { exclude := some ["h200", "b200", "mi300x"] } ↔
        orEmpty (submit {}).nodeSelector.exclude = [] ∨
          ∀ gpu ∈ forced inOrder ordinary (submit {}), ¬ (submit {}).nodeSelector.Admits gpu) := by
  have hrun : deployChute inOrder ordinary (submit {}) =
      .ok { exclude := some ["h200", "b200", "mi300x"] } := by decide +kernel
  exact ⟨hrun, restricted_iff hrun⟩

end Deploy

end ChutesApi
