import ChutesApi.Chute.Model.NodeSelector
import ChutesApi.Common.Dict
import Mathlib.Algebra.Order.Floor.Ring
import Mathlib.Data.List.Sort
import Mathlib.Data.Prod.Lex
import Mathlib.Data.Rat.Floor
import Mathlib.Order.Bounds.Basic
import Mathlib.Tactic.NormNum
/-!
# The guess of a GPU configuration

`_get_min_gpu_config` of the guesser goes through the counts of GPUs and for
each through the sizes of their memory, and keeps the best pair so far.
`Configuration` is what a pair must meet, and `getMinGpuConfig_spec` says
that the least such pair in the lexicographic order is returned.
-/

namespace ChutesApi

namespace Guesser

/-- What is read of a model's `config.json`; a null is `none`. -/
abbrev Config := Dict String (Option ℤ)

/-- `config.get(key, default)`. -/
def Config.get (config : Config) (key : String) (default : Option ℤ) : Option ℤ :=
  (config.get? key).getD default

/-- `available_vram_sizes`. -/
def availableVramSizes : List ℕ :=
  (((supportedGpuTable.map fun gpu => gpu.2.memory).filter (· ≤ 140)).dedup).insertionSort (· ≤ ·)

/-- `x and x % gpu_count != 0`. -/
def indivisible (gpuCount : ℕ) : Option ℤ → Bool
  | none => false
  | some n => n ≠ 0 && n % gpuCount ≠ 0

/-- The pair is better than the best one so far, where `none` is infinite. -/
def improves (gpuCount vramSize : ℕ) : Option (ℕ × ℕ) → Bool
  | none => true
  | some (bestGpuCount, bestVramSize) => gpuCount < bestGpuCount ||
      gpuCount = bestGpuCount && vramSize < bestVramSize

/-- The loop over the sizes, which ends at the first one that is large
enough. -/
def searchSizes (gpuCount : ℕ) (vramPerGpu : ℤ) (best : Option (ℕ × ℕ)) :
    List ℕ → Option (ℕ × ℕ)
  | [] => best
  | vramSize :: vramSizes =>
    if vramPerGpu ≤ vramSize then
      if improves gpuCount vramSize best then some (gpuCount, vramSize) else best
    else searchSizes gpuCount vramPerGpu best vramSizes

variable (totalVram : ℚ) (config : Config)

def numAttentionHeads : Option ℤ := config.get "num_attention_heads" (some 0)

def numKvHeads : Option ℤ := config.get "num_key_value_heads" (numAttentionHeads config)

def hiddenSize : Option ℤ := config.get "hidden_size" (some 0)

/-- One round of the loop over the counts. -/
def searchCount (best : Option (ℕ × ℕ)) (gpuCount : ℕ) : Option (ℕ × ℕ) :=
  if indivisible gpuCount (numAttentionHeads config) || indivisible gpuCount (numKvHeads config) ||
      indivisible gpuCount (hiddenSize config) then best
  else searchSizes gpuCount ⌈totalVram / gpuCount⌉ best availableVramSizes

/-- `range(1, 9)`. -/
def gpuCounts : List ℕ := List.range' 1 8

/-- **`_get_min_gpu_config`**; an error is the text of its `ValueError`. -/
def getMinGpuConfig : Except String (ℕ × ℕ) :=
  match gpuCounts.foldl (searchCount totalVram config) none with
  | none => .error "Could not find a valid GPU configuration"
  | some best => .ok best

/-! ## Configurations -/

/-- A count that is known and not zero is divisible. -/
def Divides (gpuCount : ℕ) (x : Option ℤ) : Prop := ∀ n ∈ x, (gpuCount : ℤ) ∣ n

/-- **A configuration**: a count that divides the heads and the hidden size,
and a size, which together have the memory. -/
structure Configuration (c : ℕ × ℕ) : Prop where
  count : c.1 ∈ gpuCounts
  size : c.2 ∈ availableVramSizes
  attentionHeads : Divides c.1 (numAttentionHeads config)
  kvHeads : Divides c.1 (numKvHeads config)
  hiddenSize : Divides c.1 (hiddenSize config)
  memory : totalVram ≤ c.1 * c.2

/-- The least of the pairs that meet `p`, if any does. -/
def Least (p : ℕ × ℕ → Prop) : Option (ℕ × ℕ) → Prop
  | none => ∀ c, ¬p c
  | some c => p c ∧ ∀ c', p c' → toLex c ≤ toLex c'

variable {totalVram config} {gpuCount vramSize : ℕ} {vramPerGpu : ℤ} {best : Option (ℕ × ℕ)}
variable {p q : ℕ × ℕ → Prop} {c : ℕ × ℕ}

/-! ## The search -/

theorem indivisible_eq_false {x : Option ℤ} :
    indivisible gpuCount x = false ↔ Divides gpuCount x := by
  cases x with
  | none => simp [indivisible, Divides]
  | some n =>
    have hdvd : (gpuCount : ℤ) ∣ n ↔ n = 0 ∨ n % gpuCount = 0 := by
      rw [Int.dvd_iff_emod_eq_zero]
      refine ⟨.inr, fun h => h.elim (fun h0 => ?_) id⟩
      rw [h0, Int.zero_emod]
    simp only [Divides, Option.mem_some_iff, forall_eq', hdvd]
    by_cases h : n = 0 <;> simp [indivisible, h]

theorem improves_iff : improves gpuCount vramSize best ↔
    ∀ c ∈ best, toLex (gpuCount, vramSize) < toLex c := by
  cases best with
  | none => simp [improves]
  | some c => simp [improves, Prod.Lex.toLex_lt_toLex]

/-- **The loop over the sizes** takes the first that is large enough, if it
improves on the best. -/
theorem searchSizes_eq (vramSizes : List ℕ) : searchSizes gpuCount vramPerGpu best vramSizes =
    match vramSizes.find? fun vramSize : ℕ => vramPerGpu ≤ vramSize with
    | none => best
    | some vramSize =>
      if improves gpuCount vramSize best then some (gpuCount, vramSize) else best := by
  induction vramSizes with
  | nil => rfl
  | cons vramSize vramSizes ih =>
    rw [searchSizes, List.find?_cons]
    by_cases h : vramPerGpu ≤ vramSize
    · simp [h]
    · simp [h, ih]

theorem pairwise_availableVramSizes : availableVramSizes.Pairwise (· ≤ ·) :=
  List.pairwise_insertionSort _ _

/-- The first of the sizes is the least. -/
theorem le_of_find? {p : ℕ → Bool} {vramSizes : List ℕ} (hsorted : vramSizes.Pairwise (· ≤ ·))
    (h : vramSizes.find? p = some vramSize) {vramSize' : ℕ} (hmem : vramSize' ∈ vramSizes)
    (hp : p vramSize') : vramSize ≤ vramSize' := by
  obtain ⟨-, before, after, rfl, hbefore⟩ := List.find?_eq_some_iff_append.1 h
  rcases List.mem_append.1 hmem with hin | hin
  · exact absurd hp (by simpa using hbefore _ hin)
  · rcases List.mem_cons.1 hin with rfl | hin
    · exact le_rfl
    · exact List.rel_of_pairwise_cons (List.pairwise_append.1 hsorted).2.1 hin

/-- What is rounded up to whole gigabytes is met by the sizes that meet the
requirement. -/
theorem ceil_le_iff (hcount : gpuCount ∈ gpuCounts) :
    ⌈totalVram / gpuCount⌉ ≤ (vramSize : ℤ) ↔ totalVram ≤ gpuCount * vramSize := by
  have hpos : (0 : ℚ) < gpuCount := by
    have hone : 1 ≤ gpuCount := (List.mem_range'_1.1 hcount).1
    exact_mod_cast hone
  rw [Int.ceil_le, div_le_iff₀ hpos, mul_comm, Int.cast_natCast]

/-- The least of the pairs so far and one that is less than all others. -/
theorem Least.insert (h : Least p best) (hq : ∀ c', q c' → toLex c ≤ toLex c') (hc : q c) :
    Least (fun c' => p c' ∨ q c') (if improves c.1 c.2 best then some c else best) := by
  by_cases himproves : improves c.1 c.2 best
  · rw [if_pos himproves]
    rw [improves_iff] at himproves
    refine ⟨.inr hc, fun c' hc' => hc'.elim (fun hp => ?_) (hq c')⟩
    cases best with
    | none => exact absurd hp (h c')
    | some b => exact (himproves b rfl).le.trans (h.2 c' hp)
  · rw [if_neg himproves]
    rw [improves_iff] at himproves
    push Not at himproves
    obtain ⟨b, rfl, hle⟩ := himproves
    exact ⟨.inl h.1, fun c' hc' => hc'.elim (h.2 c') fun hq' => hle.trans (hq c' hq')⟩

theorem Least.congr (h : Least p best) (hpq : ∀ c, p c ↔ q c) : Least q best := by
  obtain rfl : p = q := funext fun c => propext (hpq c)
  exact h

variable (totalVram config) in
/-- **One round** adds the configurations of its count. -/
theorem least_searchCount (hcount : gpuCount ∈ gpuCounts) (h : Least p best) :
    Least (fun c => p c ∨ c.1 = gpuCount ∧ Configuration totalVram config c)
      (searchCount totalVram config best gpuCount) := by
  unfold searchCount
  split
  · next hindivisible =>
    -- the count breaks a rule, so that it has no configuration
    refine h.congr fun c => ⟨.inl, fun hc => hc.elim id ?_⟩
    rintro ⟨rfl, hconf⟩
    rw [indivisible_eq_false.2 hconf.attentionHeads, indivisible_eq_false.2 hconf.kvHeads,
      indivisible_eq_false.2 hconf.hiddenSize] at hindivisible
    exact absurd hindivisible (by decide)
  · next hdivisible =>
    simp only [Bool.or_eq_true, not_or, Bool.not_eq_true, indivisible_eq_false] at hdivisible
    obtain ⟨⟨hattention, hkv⟩, hhidden⟩ := hdivisible
    rw [searchSizes_eq]
    cases hfind : availableVramSizes.find? fun vramSize : ℕ =>
        ⌈totalVram / gpuCount⌉ ≤ vramSize with
    | none =>
      refine h.congr fun c => ⟨.inl, fun hc => hc.elim id ?_⟩
      rintro ⟨rfl, hconf⟩
      have hsmall := List.find?_eq_none.1 hfind c.2 hconf.size
      exact absurd ((ceil_le_iff hcount).2 hconf.memory) (by simpa using hsmall)
    | some vramSize =>
      have hlarge : ⌈totalVram / gpuCount⌉ ≤ (vramSize : ℤ) := by
        simpa using List.find?_some hfind
      have hconf : Configuration totalVram config (gpuCount, vramSize) :=
        ⟨hcount, List.mem_of_find?_eq_some hfind, hattention, hkv, hhidden,
          (ceil_le_iff hcount).1 hlarge⟩
      refine h.insert (c := (gpuCount, vramSize)) ?_ ⟨rfl, hconf⟩
      rintro ⟨_, vramSize'⟩ ⟨rfl, hconf'⟩
      have hle : vramSize ≤ vramSize' := le_of_find? pairwise_availableVramSizes hfind hconf'.size
        (by simpa using (ceil_le_iff hcount).2 hconf'.memory)
      exact Prod.Lex.toLex_le_toLex.2 (.inr ⟨rfl, hle⟩)

variable (totalVram config) in
/-- **The loop over the counts.** -/
theorem least_foldl {counts : List ℕ} (hcounts : ∀ n ∈ counts, n ∈ gpuCounts) (h : Least p best) :
    Least (fun c => p c ∨ c.1 ∈ counts ∧ Configuration totalVram config c)
      (counts.foldl (searchCount totalVram config) best) := by
  induction counts generalizing best p with
  | nil => exact h.congr fun c => by simp
  | cons n counts ih =>
    have hstep := least_searchCount totalVram config
      (hcounts n List.mem_cons_self) h
    have hrest := ih (fun m hm => hcounts m (List.mem_cons_of_mem n hm)) hstep
    refine hrest.congr fun c => ?_
    rw [List.mem_cons]
    tauto

variable (totalVram config) in
theorem least_search : Least (Configuration totalVram config)
    (gpuCounts.foldl (searchCount totalVram config) none) := by
  have hloop := least_foldl totalVram config (fun n hn => hn)
    (show Least (fun _ => False) none from fun _ => id)
  exact hloop.congr fun c => ⟨fun hc => (hc.resolve_left id).2, fun hc => .inr ⟨hc.count, hc⟩⟩

/-- **The least configuration is returned**, and the error is raised where
there is none. -/
theorem getMinGpuConfig_spec (totalVram : ℚ) (config : Config) :
    (∀ c, getMinGpuConfig totalVram config = .ok c ↔ Configuration totalVram config c ∧
      ∀ c', Configuration totalVram config c' → toLex c ≤ toLex c') ∧
    (getMinGpuConfig totalVram config = .error "Could not find a valid GPU configuration" ↔
      ¬∃ c, Configuration totalVram config c) := by
  have hleast := least_search totalVram config
  unfold getMinGpuConfig
  cases hsearch : gpuCounts.foldl (searchCount totalVram config) none with
  | none =>
    rw [hsearch] at hleast
    exact ⟨fun c => ⟨nofun, fun hc => absurd hc.1 (hleast c)⟩,
      fun _ ⟨c, hc⟩ => hleast c hc, fun _ => rfl⟩
  | some best =>
    rw [hsearch] at hleast
    refine ⟨fun c => ?_, nofun, fun hnone => absurd ⟨best, hleast.1⟩ hnone⟩
    rw [Except.ok.injEq]
    constructor
    · rintro rfl
      exact hleast
    · rintro ⟨hc, hmin⟩
      exact toLex_inj.1 (le_antisymm (hleast.2 c hc) (hmin best hleast.1))

/-- An exact fit, and one gigabyte more. -/
example : getMinGpuConfig 96 (.ofList [("num_attention_heads", some 32)]) = .ok (1, 96) ∧
    getMinGpuConfig 141 (.ofList [("num_attention_heads", some 28)]) = .ok (2, 80) := by
  decide +kernel

end Guesser

end ChutesApi
