import ChutesApi.Watchtower.Model.Weights
import Mathlib.Data.Finset.Card
/-!
# Which instances a weight check fails

The list of those with a wrong digest is appended to the hard failures as
one entry, once for each of them, and none of them is in it. Up to that, the
lists are those that were meant: `checkLlmWeights_eq` has them file by file,
and `weights_checked_iff` says that the check does what it is for exactly
where Hugging Face answers and every file with a wrong digest is one all
instances agree on.
-/

namespace ChutesApi

namespace Watchtower

open Python

/-- **A file that is checked**: which instances are asked, what they answer,
and what is too slow. -/
structure FileCheck where
  asked : List Instance
  expected : String
  outcome : Instance → Slurp
  /-- Of a digest, after a time. -/
  slow : String → ℚ → Bool

namespace FileCheck

variable (f : FileCheck) (inst : Instance)

/-- It answers, with this digest. -/
def Reports (digest : String) : Prop := ∃ duration, f.outcome inst = .data digest duration

def noData : Bool := f.outcome inst = .noData

def softly : Bool :=
  match f.outcome inst with
  | .noData => false
  | .raised => true
  | .data digest duration => f.slow digest duration

def wrong : Bool :=
  match f.outcome inst with
  | .data digest _ => digest ≠ f.expected
  | _ => false

def incorrect : List Instance := f.asked.filter f.wrong

/-- **All that answer agree** on one digest, and two hotkeys report it. -/
def Consensus : Prop :=
  ∃ digest, (∀ inst ∈ f.asked, ∀ d, f.Reports inst d → d = digest) ∧
    ∃ a ∈ f.incorrect, ∃ b ∈ f.incorrect, a.minerHotkey ≠ b.minerHotkey

/-- What is wrong is what is agreed on. -/
def Settled : Prop := f.incorrect = [] ∨ f.Consensus

open Classical in
/-- What is appended to the hard failures: those without data, and the list
of those with a wrong digest, as often as it is long. -/
noncomputable def hardEntries : List Entry :=
  (f.asked.filter f.noData).map .one ++
    if f.Settled then [] else f.incorrect.map fun _ => .many f.incorrect

def softEntries : List Instance := f.asked.filter f.softly

end FileCheck

/-! ## The files -/

variable (env : Env)

/-- The check of a configuration file. -/
def configCheck (model revision target expected : String) : FileCheck where
  asked := env.instances
  expected := expected
  outcome inst := env.slurp inst ⟨snapshotPath model revision target, none⟩
  slow _ duration := 9 < duration

/-- The configuration files that are checked, and the weight map. -/
def configFiles (model revision : String) (weightMap : WeightMap) :
    List String → Except Exc (List FileCheck × WeightMap)
  | [] => .ok ([], weightMap)
  | target :: targets => do
    match ← env.hfContent target with
    | none => configFiles model revision weightMap targets
    | some (expected, content) =>
      let weightMap ← readWeightMap env weightMap target content
      let (files, weightMap) ← configFiles model revision weightMap targets
      return (configCheck env model revision target expected :: files, weightMap)

/-- The check of a piece of the weights. -/
def rangeCheck (model revision path expected : String) (range : ℕ × ℕ)
    (asked : List Instance) : FileCheck where
  asked := asked
  expected := expected
  outcome inst := env.slurp inst ⟨snapshotPath model revision path, some range⟩
  slow digest duration := digest = expected && 5 < duration

/-- The piece of the weights that is checked, if any is, with the instances
that were right so far and not too slow, or wrong. -/
def weightFile (model revision : String) (files : List FileCheck)
    (weightFiles : Except Exc (List String)) : Except Exc (List FileCheck) :=
  let asked := env.instances.filter fun inst =>
    files.all fun f => !f.noData inst && !f.softly inst
  if asked = [] then .ok []
  else do
    let weightFiles ← weightFiles
    if weightFiles = [] then return []
    let path := env.choose weightFiles
    match ← env.fileSize path with
    | none => return []
    | some fileSize =>
      let range := offsets env.random fileSize
      let expected ← env.rangeDigest path range
      return [rangeCheck env model revision path expected range asked]

/-- **The files that are checked.** -/
def checkedFiles (instances : List Instance) : Except Exc (List FileCheck) :=
  if instances = [] ∨ env.chute.chuteId = exemptChute then .ok []
  else
    match env.chute.checkedRevision with
    | none => .ok []
    | some revision => do
      let _ ← ChutesVersion.useEncryptedSlurp env.chute.chutesVersion
      if env.instances = [] then return []
      let model := env.chute.modelName
      let (files, weightMap) ← configFiles env model revision .falsy targetPaths
      match weightMap with
      | .falsy => return files
      | .paths weightFiles => return files ++ (← weightFile env model revision files weightFiles)

/-! ## One file -/

variable {env} {f : FileCheck} {t t' t'' : Tally} {lists : Lists} {inst : Instance}
variable {asked asked' : List Instance} {files : List FileCheck} {instances : List Instance}
variable {model revision : String}

/-- What the loop over the instances adds. -/
structure FileCheck.Tallied (f : FileCheck) (asked : List Instance) (t t' : Tally) : Prop where
  hardFailed : t'.hardFailed = t.hardFailed ++ (asked.filter f.noData).map .one
  softFailed : t'.softFailed = t.softFailed ++ asked.filter f.softly
  incorrect : t'.incorrect = t.incorrect ++ asked.filter f.wrong
  digests : ∀ d, d ∈ t'.digests ↔ d ∈ t.digests ∨ ∃ inst ∈ asked, f.Reports inst d
  nodup : t.digests.Nodup → t'.digests.Nodup

theorem FileCheck.Tallied.trans (h : f.Tallied asked t t') (h' : f.Tallied asked' t' t'') :
    f.Tallied (asked ++ asked') t t'' where
  hardFailed := by simp [h'.hardFailed, h.hardFailed]
  softFailed := by simp [h'.softFailed, h.softFailed]
  incorrect := by simp [h'.incorrect, h.incorrect]
  digests d := by
    rw [h'.digests, h.digests, or_assoc]
    simp only [List.mem_append, or_and_right, exists_or]
  nodup hn := h'.nodup (h.nodup hn)

/-- **The loop**, from its body. -/
theorem FileCheck.tallied_foldl {body : Tally → Instance → Tally}
    (hbody : ∀ t inst, f.Tallied [inst] t (body t inst)) (asked : List Instance) (t : Tally) :
    f.Tallied asked t (asked.foldl body t) := by
  induction asked generalizing t with
  | nil => exact ⟨by simp, by simp, by simp, by simp, id⟩
  | cons inst asked ih => exact (hbody t inst).trans (ih (body t inst))

theorem mem_count {d digest : String} :
    d ∈ (t.count digest).digests ↔ d ∈ t.digests ∨ d = digest := by
  unfold Tally.count
  dsimp only
  split_ifs with h
  · exact ⟨Or.inl, fun hd => hd.elim id fun heq => heq ▸ h⟩
  · simp

theorem nodup_count {digest : String} (h : t.digests.Nodup) : (t.count digest).digests.Nodup := by
  unfold Tally.count
  dsimp only
  split_ifs with hmem
  · exact h
  · refine List.nodup_append.2 ⟨h, by simp, ?_⟩
    intro d hd d' hd' heq
    rw [List.mem_singleton] at hd'
    exact hmem (hd' ▸ heq ▸ hd)

/-- An instance that does not answer. -/
theorem tallied_of_noData (h : f.outcome inst = .noData) (t : Tally) :
    f.Tallied [inst] t { t with hardFailed := t.hardFailed ++ [.one inst] } := by
  refine ⟨?_, ?_, ?_, fun d => ?_, id⟩
  · simp [FileCheck.noData, h]
  · simp [FileCheck.softly, h]
  · simp [FileCheck.wrong, h]
  · simp [FileCheck.Reports, h]

theorem tallied_of_raised (h : f.outcome inst = .raised) (t : Tally) :
    f.Tallied [inst] t { t with softFailed := t.softFailed ++ [inst] } := by
  refine ⟨?_, ?_, ?_, fun d => ?_, id⟩
  · simp [FileCheck.noData, h]
  · simp [FileCheck.softly, h]
  · simp [FileCheck.wrong, h]
  · simp [FileCheck.Reports, h]

/-- One that does, whose digest is counted. -/
theorem tallied_of_data {digest : String} {duration : ℚ}
    (h : f.outcome inst = .data digest duration) (t : Tally) :
    f.Tallied [inst] t { t.count digest with
      incorrect := t.incorrect ++ if digest ≠ f.expected then [inst] else []
      softFailed := t.softFailed ++ if f.slow digest duration then [inst] else [] } := by
  refine ⟨?_, ?_, ?_, fun d => ?_, fun hn => nodup_count hn⟩
  · simp [FileCheck.noData, h, Tally.count]
  · cases hslow : f.slow digest duration <;> simp [FileCheck.softly, h, hslow]
  · by_cases hwrong : digest = f.expected <;> simp [FileCheck.wrong, h, hwrong]
  · have hcount : d ∈ (t.count digest).digests ↔ d ∈ t.digests ∨ d = digest := mem_count
    simp [hcount, FileCheck.Reports, h, eq_comm]

/-- The body for a configuration file. -/
theorem tallied_checkConfig (env : Env) (model revision target expected : String) (t : Tally)
    (inst : Instance) : (configCheck env model revision target expected).Tallied [inst] t
      (checkConfig expected (configCheck env model revision target expected).outcome t inst) := by
  set f := configCheck env model revision target expected with hf
  unfold checkConfig
  cases h : f.outcome inst with
  | noData => exact tallied_of_noData h t
  | raised => exact tallied_of_raised h t
  | data digest duration =>
    have hdata := tallied_of_data h t
    have hslow : f.slow digest duration = decide (9 < duration) := rfl
    rw [hslow] at hdata
    by_cases hwrong : digest = expected
    · by_cases hlate : 9 < duration <;>
        simpa [hwrong, hlate, hf, configCheck, Tally.count] using hdata
    · have hne : expected ≠ digest := Ne.symm hwrong
      by_cases hlate : 9 < duration <;>
        simpa [hwrong, hne, hlate, hf, configCheck, Tally.count] using hdata

/-- The body for a piece of the weights. -/
theorem tallied_checkRange (env : Env) (model revision path expected : String) (range : ℕ × ℕ)
    (asked : List Instance) (t : Tally) (inst : Instance) :
    (rangeCheck env model revision path expected range asked).Tallied [inst] t
      (checkRange expected (rangeCheck env model revision path expected range asked).outcome t
        inst) := by
  set f := rangeCheck env model revision path expected range asked with hf
  unfold checkRange
  cases h : f.outcome inst with
  | noData => exact tallied_of_noData h t
  | raised => exact tallied_of_raised h t
  | data digest duration =>
    have hdata := tallied_of_data h t
    have hslow : f.slow digest duration = (decide (digest = expected) && decide (5 < duration)) :=
      rfl
    rw [hslow] at hdata
    by_cases hwrong : digest = expected <;> by_cases hlate : 5 < duration <;>
      simpa [hwrong, hlate, hf, rangeCheck, Tally.count] using hdata

theorem two_le_dedup {l : List String} : 2 ≤ l.dedup.length ↔ ∃ a ∈ l, ∃ b ∈ l, a ≠ b := by
  rw [← List.card_toFinset, Nat.succ_le_iff, Finset.one_lt_card]
  simp only [List.mem_toFinset]

/-- The test for consensus. -/
theorem consensus_iff (h : f.Tallied f.asked { lists with } t) (hne : f.incorrect ≠ []) :
    (t.digests.length = 1 ∧ 2 ≤ (t.incorrect.map Instance.minerHotkey).dedup.length) ↔
      f.Consensus := by
  have hincorrect : t.incorrect = f.incorrect := h.incorrect
  have hdigests : ∀ d, d ∈ t.digests ↔ ∃ inst ∈ f.asked, f.Reports inst d := by
    intro d
    rw [h.digests]
    simp
  have hnodup : t.digests.Nodup := h.nodup List.nodup_nil
  rw [hincorrect, two_le_dedup]
  have hkeys : (∃ a ∈ f.incorrect.map Instance.minerHotkey,
      ∃ b ∈ f.incorrect.map Instance.minerHotkey, a ≠ b) ↔
        ∃ a ∈ f.incorrect, ∃ b ∈ f.incorrect, a.minerHotkey ≠ b.minerHotkey := by
    simp
  rw [hkeys]
  constructor
  · rintro ⟨hone, htwo⟩
    obtain ⟨digest, hdigest⟩ := List.length_eq_one_iff.1 hone
    refine ⟨digest, fun inst hinst d hd => ?_, htwo⟩
    have hmem := (hdigests d).2 ⟨inst, hinst, hd⟩
    rwa [hdigest, List.mem_singleton] at hmem
  · rintro ⟨digest, hall, htwo⟩
    refine ⟨?_, htwo⟩
    have hsame : ∀ d ∈ t.digests, d = digest := by
      intro d hd
      obtain ⟨inst, hinst, hreports⟩ := (hdigests d).1 hd
      exact hall inst hinst d hreports
    -- an instance that is wrong has reported a digest
    obtain ⟨inst, hinst⟩ := List.exists_mem_of_ne_nil _ hne
    obtain ⟨hasked, hwrong⟩ := List.mem_filter.1 hinst
    have hpos : t.digests ≠ [] := by
      cases houtcome : f.outcome inst with
      | noData => simp [FileCheck.wrong, houtcome] at hwrong
      | raised => simp [FileCheck.wrong, houtcome] at hwrong
      | data d duration =>
        exact List.ne_nil_of_mem ((hdigests d).2 ⟨inst, hasked, duration, houtcome⟩)
    have hreplicate := List.eq_replicate_iff.2 ⟨rfl, hsame⟩
    rw [hreplicate, List.nodup_replicate] at hnodup
    have hlength := List.length_pos_iff.2 hpos
    omega

/-- **What follows the loop** appends the entries of the file. -/
theorem settle_eq (h : f.Tallied f.asked { lists with } t) :
    t.settle f.asked = some ⟨lists.hardFailed ++ f.hardEntries,
      lists.softFailed ++ f.softEntries⟩ := by
  have hincorrect : t.incorrect = f.incorrect := h.incorrect
  have hhard : t.hardFailed = lists.hardFailed ++ (f.asked.filter f.noData).map .one :=
    h.hardFailed
  have hsoft : t.softFailed = lists.softFailed ++ f.softEntries := h.softFailed
  have hlists : t.toLists = ⟨t.hardFailed, t.softFailed⟩ := rfl
  unfold Tally.settle
  rw [hlists, hhard, hsoft, hincorrect]
  by_cases hnil : f.incorrect = []
  · rw [if_pos hnil]
    simp [FileCheck.hardEntries, FileCheck.Settled, hnil]
  · have hasked : f.asked ≠ [] := fun hasked => hnil (by simp [FileCheck.incorrect, hasked])
    -- no instance is equal to a list, so all of them would remain
    have hremaining : t.remaining f.asked = f.asked := by simp [Tally.remaining, equalsList]
    have hconsensus := consensus_iff h hnil
    rw [hincorrect] at hconsensus
    rw [if_neg hnil, hremaining, if_neg hasked]
    by_cases hsettled : f.Consensus
    · rw [if_pos (hconsensus.2 hsettled)]
      simp [FileCheck.hardEntries, FileCheck.Settled, hsettled]
    · rw [if_neg (mt hconsensus.1 hsettled)]
      simp [FileCheck.hardEntries, FileCheck.Settled, hsettled, hnil]

/-! ## The lists, file by file -/

/-- Entries of files that follow. -/
noncomputable def Lists.add (lists : Lists) (files : List FileCheck) : Lists :=
  ⟨lists.hardFailed ++ files.flatMap FileCheck.hardEntries,
    lists.softFailed ++ files.flatMap FileCheck.softEntries⟩

@[simp] theorem Lists.add_nil (lists : Lists) : lists.add [] = lists := by simp [add]

theorem Lists.add_cons (lists : Lists) (f : FileCheck) (files : List FileCheck) :
    lists.add (f :: files) = (lists.add [f]).add files := by
  simp [add]

theorem Lists.add_append (lists : Lists) (files files' : List FileCheck) :
    lists.add (files ++ files') = (lists.add files).add files' := by
  simp [add]

/-- A file, from the lists before it. -/
theorem settle_foldl {body : Tally → Instance → Tally} (f : FileCheck)
    (hbody : ∀ t inst, f.Tallied [inst] t (body t inst)) (lists : Lists) :
    (f.asked.foldl body { lists with }).settle f.asked = some (lists.add [f]) := by
  have h := settle_eq (f.tallied_foldl hbody f.asked { lists with })
  rw [h]
  simp [Lists.add]

/-- The piece of the weights. -/
theorem settle_foldl_checkRange (env : Env) (model revision path expected : String)
    (range : ℕ × ℕ) (asked : List Instance) (lists : Lists) :
    (asked.foldl (checkRange expected fun inst =>
        env.slurp inst ⟨snapshotPath model revision path, some range⟩) { lists with }).settle
        asked = some (lists.add [rangeCheck env model revision path expected range asked]) :=
  settle_foldl (rangeCheck env model revision path expected range asked)
    (tallied_checkRange env model revision path expected range asked) lists

/-- A configuration file. -/
theorem settle_foldl_checkConfig (env : Env) (model revision target expected : String)
    (lists : Lists) :
    (env.instances.foldl (checkConfig expected fun inst =>
        env.slurp inst ⟨snapshotPath model revision target, none⟩) { lists with }).settle
        env.instances = some (lists.add [configCheck env model revision target expected]) :=
  settle_foldl (configCheck env model revision target expected)
    (tallied_checkConfig env model revision target expected) lists

/-- Every configuration file is asked of all instances. -/
theorem asked_of_configFiles {weightMap weightMap' : WeightMap} {targets : List String}
    (h : configFiles env model revision weightMap targets = .ok (files, weightMap')) :
    ∀ f ∈ files, f.asked = env.instances := by
  induction targets generalizing files weightMap with
  | nil =>
    obtain ⟨rfl, -⟩ := Prod.mk.inj (Except.ok.inj h)
    exact fun f hf => nomatch hf
  | cons target targets ih =>
    unfold configFiles at h
    obtain ⟨content, -, h⟩ := bind_eq_ok.1 h
    cases content with
    | none => exact ih h
    | some content =>
      obtain ⟨weightMap, -, h⟩ := bind_eq_ok.1 h
      obtain ⟨⟨rest, last⟩, hrest, h⟩ := bind_eq_ok.1 h
      obtain ⟨rfl, rfl⟩ := Prod.mk.inj (return_eq_ok.1 h)
      intro f hf
      rcases List.mem_cons.1 hf with rfl | hf
      · rfl
      · exact ih hrest f hf

/-- **The loop over the configuration files.** -/
theorem checkTargets_eq (env : Env) (model revision : String) (lists : Lists)
    (weightMap : WeightMap) (targets : List String) :
    checkTargets env model revision lists weightMap targets =
      (configFiles env model revision weightMap targets).map fun p =>
        some (lists.add p.1, p.2) := by
  induction targets generalizing lists weightMap with
  | nil => simp [checkTargets, configFiles, Except.map]
  | cons target targets ih =>
    unfold checkTargets configFiles
    cases env.hfContent target with
    | error e => rfl
    | ok content =>
      cases content with
      -- a file that Hugging Face does not have is passed over
      | none => exact ih lists weightMap
      | some content =>
        obtain ⟨expected, content⟩ := content
        cases hread : readWeightMap env weightMap target content with
        | error e => simp [hread, bind, Except.bind, Except.map]
        | ok weightMap =>
          simp only [bind, Except.bind, hread]
          rw [settle_foldl_checkConfig]
          dsimp only
          rw [ih]
          cases configFiles env model revision weightMap targets with
          | error e => rfl
          | ok p => simp only [Except.map, pure, Except.pure, ← Lists.add_cons]

/-- What a file leaves of an instance that it asked. -/
theorem mem_hardEntries (h : inst ∈ f.asked) : .one inst ∈ f.hardEntries ↔ f.noData inst := by
  unfold FileCheck.hardEntries
  split_ifs
  · simp [h]
  · simp [h]

theorem mem_softEntries (h : inst ∈ f.asked) : inst ∈ f.softEntries ↔ f.softly inst := by
  simp [FileCheck.softEntries, h]

/-- **The piece of the weights.** -/
theorem checkWeightFiles_eq (env : Env) (model revision : String)
    (weightFiles : Except Exc (List String)) (hasked : ∀ f ∈ files, f.asked = env.instances) :
    checkWeightFiles env model revision weightFiles (Lists.add {} files) =
      (weightFile env model revision files weightFiles).map (Lists.add (Lists.add {} files)) := by
  have hfilter : (env.instances.filter fun inst =>
      .one inst ∉ (Lists.add {} files).hardFailed && inst ∉ (Lists.add {} files).softFailed) =
        env.instances.filter fun inst => files.all fun f => !f.noData inst && !f.softly inst := by
    refine List.filter_congr fun inst hinst => ?_
    rw [Bool.eq_iff_iff]
    simp only [Lists.add, List.nil_append, List.mem_flatMap, Bool.and_eq_true, decide_eq_true_eq,
      List.all_eq_true, Bool.not_eq_true', not_exists, not_and]
    constructor
    · rintro ⟨hhard, hsoft⟩ f hf
      have hmem : inst ∈ f.asked := by rwa [hasked f hf]
      refine ⟨?_, ?_⟩
      · simpa [mem_hardEntries hmem] using hhard f hf
      · simpa [mem_softEntries hmem] using hsoft f hf
    · intro h
      refine ⟨fun f hf => ?_, fun f hf => ?_⟩
      · have hmem : inst ∈ f.asked := by rwa [hasked f hf]
        simp [mem_hardEntries hmem, (h f hf).1]
      · have hmem : inst ∈ f.asked := by rwa [hasked f hf]
        simp [mem_softEntries hmem, (h f hf).2]
  unfold checkWeightFiles weightFile
  rw [hfilter]
  dsimp only
  split_ifs with hnil
  · simp [Except.map]
  · cases weightFiles with
    | error e => rfl
    | ok paths =>
      simp only [bind, Except.bind]
      split_ifs with hpaths
      · simp [Except.map, pure, Except.pure]
      · cases env.fileSize (env.choose paths) with
        | error e => rfl
        | ok fileSize =>
          cases fileSize with
          | none => simp [Except.map, pure, Except.pure]
          | some fileSize =>
            cases hdigest : env.rangeDigest (env.choose paths) (offsets env.random fileSize) with
            | error e => simp [hdigest, Except.map]
            | ok expected =>
              simp only [hdigest, pure, Except.pure, Except.map]
              rw [settle_foldl_checkRange]
              rfl

theorem mem_instances_of_weightFile {weightFiles : Except Exc (List String)}
    {weights : List FileCheck}
    (h : weightFile env model revision files weightFiles = .ok weights) (hf : f ∈ weights)
    (hasked : inst ∈ f.asked) : inst ∈ env.instances := by
  unfold weightFile at h
  dsimp only at h
  split_ifs at h
  · obtain rfl := Except.ok.inj h
    cases hf
  · obtain ⟨paths, -, h⟩ := bind_eq_ok.1 h
    split_ifs at h
    · obtain rfl := return_eq_ok.1 h
      cases hf
    · obtain ⟨fileSize, -, h⟩ := bind_eq_ok.1 h
      cases fileSize with
      | none =>
        obtain rfl := return_eq_ok.1 h
        cases hf
      | some fileSize =>
        obtain ⟨expected, -, h⟩ := bind_eq_ok.1 h
        obtain rfl := return_eq_ok.1 h
        obtain rfl := List.mem_singleton.1 hf
        exact List.mem_of_mem_filter hasked

/-- Only instances that are loaded are asked. -/
theorem mem_instances_of_asked (h : checkedFiles env instances = .ok files) (hf : f ∈ files)
    (hasked : inst ∈ f.asked) : inst ∈ env.instances := by
  unfold checkedFiles at h
  by_cases hnone : instances = [] ∨ env.chute.chuteId = exemptChute
  · rw [if_pos hnone] at h
    obtain rfl := Except.ok.inj h
    cases hf
  · rw [if_neg hnone] at h
    cases hrevision : env.chute.checkedRevision with
    | none =>
      rw [hrevision] at h
      obtain rfl := Except.ok.inj h
      cases hf
    | some revision =>
      rw [hrevision] at h
      obtain ⟨_, -, h⟩ := bind_eq_ok.1 h
      by_cases hload : env.instances = []
      · rw [if_pos hload] at h
        obtain rfl := return_eq_ok.1 h
        cases hf
      · rw [if_neg hload] at h
        obtain ⟨⟨configs, weightMap⟩, hconfigs, h⟩ := bind_eq_ok.1 h
        have hall := asked_of_configFiles hconfigs
        cases weightMap with
        | falsy =>
          obtain rfl := return_eq_ok.1 h
          rwa [hall f hf] at hasked
        | paths weightFiles =>
          obtain ⟨weights, hweights, h⟩ := bind_eq_ok.1 h
          obtain rfl := return_eq_ok.1 h
          rcases List.mem_append.1 hf with hf | hf
          · rwa [hall f hf] at hasked
          · exact mem_instances_of_weightFile hweights hf hasked

/-- **The lists of failures, file by file.** -/
theorem checkLlmWeights_eq (env : Env) (instances : List Instance) :
    checkLlmWeights env instances =
      (checkedFiles env instances).map fun files => some (Lists.add {} files) := by
  unfold checkLlmWeights checkedFiles
  by_cases hnil : instances = []
  · simp [hnil, Except.map]
  · by_cases hexempt : env.chute.chuteId = exemptChute
    · simp [hnil, hexempt, Except.map]
    · rw [if_neg hnil, if_neg hexempt, if_neg (not_or.2 ⟨hnil, hexempt⟩)]
      cases env.chute.checkedRevision with
      | none => simp [Except.map]
      | some revision =>
        cases ChutesVersion.useEncryptedSlurp env.chute.chutesVersion with
        | error e => rfl
        | ok useEncryptedSlurp =>
          by_cases hload : env.instances = []
          · simp [hload, bind, Except.bind, pure, Except.pure, Except.map]
          · simp only [bind, Except.bind, if_neg hload, checkTargets_eq]
            cases hfiles : configFiles env env.chute.modelName revision .falsy targetPaths with
            | error e => rfl
            | ok p =>
              obtain ⟨files, weightMap⟩ := p
              cases weightMap with
              | falsy => rfl
              | paths weightFiles =>
                have hasked := asked_of_configFiles hfiles
                have hweights := checkWeightFiles_eq env env.chute.modelName revision weightFiles
                  hasked
                simp only [Except.map, hweights]
                cases weightFile env env.chute.modelName revision files weightFiles with
                | error e => rfl
                | ok files' => simp [pure, Except.pure, Lists.add_append]

/-! ## What the check is for -/

/-- It answers with the expected digest, in time. -/
def FileCheck.Right (f : FileCheck) (inst : Instance) : Prop :=
  ∃ duration, f.outcome inst = .data f.expected duration ∧ f.slow f.expected duration = false

/-- **The lists are what they are for**: flat, with those that are wrong, but
for a consensus or where none would remain, and without those that are right. -/
structure FailedExactly (present : List Instance) (files : List FileCheck) (lists : Lists) :
    Prop where
  flat : ∀ e ∈ lists.hardFailed, ∃ inst, e = .one inst
  wrong : ∀ f ∈ files, ∀ inst ∈ f.incorrect, .one inst ∈ lists.hardFailed ∨ f.Consensus ∨
    ∀ other ∈ f.asked, other ∈ f.incorrect ∨ other ∈ lists.softFailed ∨
      .one other ∈ lists.hardFailed
  right : ∀ inst ∈ present, (∀ f ∈ files, inst ∈ f.asked → f.Right inst) →
    .one inst ∉ lists.hardFailed ∧ inst ∉ lists.softFailed

/-- An entry is of an instance without data, or a list of those that are
wrong. -/
theorem mem_hardEntries_iff {e : Entry} : e ∈ f.hardEntries ↔
    (∃ inst ∈ f.asked, f.noData inst = true ∧ e = .one inst) ∨
      (¬ f.Settled ∧ e = .many f.incorrect) := by
  have hone : e ∈ (f.asked.filter f.noData).map Entry.one ↔
      ∃ inst ∈ f.asked, f.noData inst = true ∧ e = .one inst := by
    simp only [List.mem_map, List.mem_filter]
    constructor
    · rintro ⟨inst, ⟨hasked, hno⟩, rfl⟩
      exact ⟨inst, hasked, hno, rfl⟩
    · rintro ⟨inst, hasked, hno, rfl⟩
      exact ⟨inst, ⟨hasked, hno⟩, rfl⟩
  unfold FileCheck.hardEntries
  rw [List.mem_append, hone]
  refine or_congr Iff.rfl ?_
  by_cases hsettled : f.Settled
  · simp [hsettled]
  · have hnil : f.incorrect ≠ [] := fun hnil => hsettled (Or.inl hnil)
    obtain ⟨inst, hinst⟩ := List.exists_mem_of_ne_nil _ hnil
    rw [if_neg hsettled, List.mem_map]
    constructor
    · rintro ⟨_, _, rfl⟩
      exact ⟨hsettled, rfl⟩
    · rintro ⟨_, rfl⟩
      exact ⟨inst, hinst, rfl⟩

theorem one_mem_add : .one inst ∈ (Lists.add {} files).hardFailed ↔
    ∃ f ∈ files, inst ∈ f.asked ∧ f.noData inst = true := by
  simp [Lists.add, mem_hardEntries_iff]

theorem mem_softFailed_add : inst ∈ (Lists.add {} files).softFailed ↔
    ∃ f ∈ files, inst ∈ f.asked ∧ f.softly inst = true := by
  simp [Lists.add, FileCheck.softEntries]

/-- The lists are flat exactly where every file is settled. -/
theorem flat_iff : (∀ e ∈ (Lists.add {} files).hardFailed, ∃ inst, e = .one inst) ↔
    ∀ f ∈ files, f.Settled := by
  constructor
  · intro hflat f hf
    by_contra hsettled
    have hmem : .many f.incorrect ∈ (Lists.add {} files).hardFailed := by
      simp only [Lists.add, List.nil_append, List.mem_flatMap]
      exact ⟨f, hf, mem_hardEntries_iff.2 (Or.inr ⟨hsettled, rfl⟩)⟩
    obtain ⟨inst, heq⟩ := hflat _ hmem
    cases heq
  · intro hsettled e he
    simp only [Lists.add, List.nil_append, List.mem_flatMap] at he
    obtain ⟨f, hf, he⟩ := he
    rcases mem_hardEntries_iff.1 he with ⟨inst, -, -, rfl⟩ | ⟨hnot, -⟩
    · exact ⟨inst, rfl⟩
    · exact absurd (hsettled f hf) hnot

/-- What is right is in neither list. -/
theorem FileCheck.Right.not_failed (h : f.Right inst) :
    f.noData inst = false ∧ f.softly inst = false := by
  obtain ⟨duration, hdata, hslow⟩ := h
  simp [noData, softly, hdata, hslow]

/-- **The lists of a check in which every file is settled.** -/
theorem failedExactly_of_settled (hsettled : ∀ f ∈ files, f.Settled) :
    FailedExactly instances files (Lists.add {} files) where
  flat := flat_iff.2 hsettled
  wrong f hf inst hinst := by
    rcases hsettled f hf with hnil | hconsensus
    · rw [hnil] at hinst
      cases hinst
    · exact Or.inr (Or.inl hconsensus)
  right inst _ hright := by
    rw [one_mem_add, mem_softFailed_add]
    refine ⟨?_, ?_⟩
    · rintro ⟨f, hf, hasked, hno⟩
      rw [(hright f hf hasked).not_failed.1] at hno
      cases hno
    · rintro ⟨f, hf, hasked, hsoft⟩
      rw [(hright f hf hasked).not_failed.2] at hsoft
      cases hsoft

/-- **The check fails the instances it is for** exactly where nothing that is
looked up raises and every file it checks is settled. -/
theorem weights_failedExactly_iff (env : Env) (instances : List Instance) :
    (∃ files lists, checkedFiles env instances = .ok files ∧
      checkLlmWeights env instances = .ok (some lists) ∧
        FailedExactly env.instances files lists) ↔
    ∃ files, checkedFiles env instances = .ok files ∧ ∀ f ∈ files, f.Settled := by
  rw [checkLlmWeights_eq]
  constructor
  · rintro ⟨files, lists, hfiles, hlists, hexactly⟩
    rw [hfiles] at hlists
    cases hlists
    exact ⟨files, hfiles, flat_iff.1 hexactly.flat⟩
  · rintro ⟨files, hfiles, hsettled⟩
    refine ⟨files, Lists.add {} files, hfiles, ?_, failedExactly_of_settled hsettled⟩
    rw [hfiles]
    rfl

/-- Two instances, of which the second has another configuration. -/
def tampered : Env where
  chute := ⟨"c", "org/model", some "0.3.0", some "main", none, none⟩
  instances := [⟨"a", "h", 0⟩, ⟨"b", "k", 0⟩]
  slurp inst _ := .data (if inst.instanceId = "a" then "good" else "bad") 1
  hfContent target := .ok (if target = "config.json" then some ("good", "{}") else none)
  loads _ := .ok .falsy
  choose paths := paths.headD ""
  random := (0, 0, 0)
  fileSize _ := .ok none
  rangeDigest _ _ := .ok ""

/-- What is appended for it is a list. -/
theorem not_failedExactly_tampered :
    ¬ ∃ files lists, checkedFiles tampered tampered.instances = .ok files ∧
      checkLlmWeights tampered tampered.instances = .ok (some lists) ∧
        FailedExactly tampered.instances files lists := by
  rintro ⟨files, lists, -, hlists, hexactly⟩
  have hlist : checkLlmWeights tampered tampered.instances =
      .ok (some ⟨[.many [⟨"b", "k", 0⟩]], []⟩) := rfl
  rw [hlist] at hlists
  cases hlists
  obtain ⟨inst, heq⟩ := hexactly.flat _ (List.mem_singleton_self _)
  cases heq

end Watchtower

end ChutesApi
