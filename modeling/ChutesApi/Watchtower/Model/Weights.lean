import ChutesApi.Chute.Version
import Mathlib.Algebra.Order.Ring.Rat
import Mathlib.Data.List.Dedup
/-!
# The watchtower's check of model weights

`check_llm_weights` compares the configuration files and one piece of the
weights with what Hugging Face has. Each instance is asked for the file; no
data is a hard failure, an error or a slow answer a soft one, and those with
another digest are collected and failed at the end of the file, unless all
agree.

What the instances and Hugging Face answer is an input, as is what is
chosen at random.
-/

namespace ChutesApi

namespace Watchtower

open Python

/-- An instance, as an object: two loads of the same row are two objects,
and Python compares them by identity. -/
structure Instance where
  instanceId : String
  minerHotkey : String
  load : ℕ
  deriving DecidableEq

/-- An entry of a list of failures: an instance, or a list that was appended
as one. -/
inductive Entry
  | one (inst : Instance)
  | many (instances : List Instance)
  deriving DecidableEq

/-- What is asked for. -/
structure Payload where
  path : String
  range : Option (ℕ × ℕ) := none

/-- What `do_slurp` comes to: `None`, an exception, or data with this digest
after this time. -/
inductive Slurp
  | noData
  | raised
  | data (digest : String) (duration : ℚ)
  deriving DecidableEq

/-- `weight_map`: what is falsy, or what the paths in it are. -/
inductive WeightMap
  | falsy
  | paths (weightFiles : Except Exc (List String))

/-- What is read of a chute, with what the patterns find in its code. -/
structure LlmChute where
  chuteId : String
  name : String
  chutesVersion : Option String
  revision : Option String
  revisionMatch : Option String
  modelMatch : Option String

/-- What the check meets. -/
structure Env where
  chute : LlmChute
  /-- `load_chute_instances`, a row once. -/
  instances : List Instance
  slurp : Instance → Payload → Slurp
  /-- `get_hf_content`: the digest and the content, where there is one. -/
  hfContent : String → Except Exc (Option (String × String))
  /-- `json.loads`, of the index. -/
  loads : String → Except Exc WeightMap
  /-- `random.choice`, and the three numbers of `random.randint`. -/
  choose : List String → String
  random : ℕ × ℕ × ℕ
  /-- The size of a file, where it can be determined. -/
  fileSize : String → Except Exc (Option ℕ)
  /-- The digest of a piece of a file. -/
  rangeDigest : String → ℕ × ℕ → Except Exc String

/-- The two lists of failures. -/
structure Lists where
  hardFailed : List Entry := []
  softFailed : List Instance := []

/-- What the loop over the instances carries. -/
structure Tally extends Lists where
  incorrect : List Instance := []
  /-- The keys of `digest_counts`. -/
  digests : List String := []

variable (env : Env)

/-! ## One file -/

/-- `digest_counts[digest] += 1`. -/
def Tally.count (t : Tally) (digest : String) : Tally :=
  { t with digests := if digest ∈ t.digests then t.digests else t.digests ++ [digest] }

/-- The loop body for a configuration file. -/
def checkConfig (expected : String) (outcome : Instance → Slurp) (t : Tally) (inst : Instance) :
    Tally :=
  match outcome inst with
  | .noData => { t with hardFailed := t.hardFailed ++ [.one inst] }
  | .raised => { t with softFailed := t.softFailed ++ [inst] }
  | .data digest duration =>
    let t := t.count digest
    let t := if expected ≠ digest then { t with incorrect := t.incorrect ++ [inst] } else t
    if 9 < duration then { t with softFailed := t.softFailed ++ [inst] } else t

/-- The loop body for a piece of the weights: only what is right may be too
slow. -/
def checkRange (expected : String) (outcome : Instance → Slurp) (t : Tally) (inst : Instance) :
    Tally :=
  match outcome inst with
  | .noData => { t with hardFailed := t.hardFailed ++ [.one inst] }
  | .raised => { t with softFailed := t.softFailed ++ [inst] }
  | .data digest duration =>
    let t := t.count digest
    if digest ≠ expected then { t with incorrect := t.incorrect ++ [inst] }
    else if 5 < duration then { t with softFailed := t.softFailed ++ [inst] }
    else t

/-- `instance == [...]`: an instance is no list. -/
def equalsList (_ : Instance) (_ : List Entry) : Bool := false

/-- `remaining`: those that are not in a list of one list. -/
def Tally.remaining (t : Tally) (asked : List Instance) : List Instance :=
  asked.filter fun inst =>
    !([t.incorrect.map .one ++ t.softFailed.map .one ++ t.hardFailed].any (equalsList inst))

/-- What follows the loop: the lists, or nothing if none would remain. -/
def Tally.settle (t : Tally) (asked : List Instance) : Option Lists :=
  if t.incorrect = [] then some t.toLists
  else if t.remaining asked = [] then none
  else
    let hotkeys := (t.incorrect.map Instance.minerHotkey).dedup
    if t.digests.length = 1 ∧ 2 ≤ hotkeys.length then some t.toLists
    else some { t.toLists with
      hardFailed := t.hardFailed ++ t.incorrect.map fun _ => .many t.incorrect }

/-! ## The weights -/

/-- Where a file is in the cache of an instance. -/
def snapshotPath (model revision path : String) : String :=
  "/cache/hub/models--" ++ "--".intercalate (split model '/') ++ "/snapshots/" ++ revision ++ "/" ++
    path

/-- The bytes that are asked for, of a file of some size. -/
def offsets (random : ℕ × ℕ × ℕ) (fileSize : ℕ) : ℕ × ℕ :=
  if fileSize = 0 then (0, min fileSize random.1)
  else
    let checkSize := min (fileSize - 1) random.2.1
    (random.2.2, random.2.2 + checkSize)

/-- **`check_weight_files`**, which changes the two lists. -/
def checkWeightFiles (model revision : String) (weightFiles : Except Exc (List String))
    (lists : Lists) : Except Exc Lists :=
  let toCheck := env.instances.filter fun inst =>
    .one inst ∉ lists.hardFailed && inst ∉ lists.softFailed
  if toCheck = [] then .ok lists
  else do
    let weightFiles ← weightFiles
    if weightFiles = [] then return lists
    let path := env.choose weightFiles
    match ← env.fileSize path with
    | none => return lists
    | some fileSize =>
      let range := offsets env.random fileSize
      let expected ← env.rangeDigest path range
      let payload : Payload := ⟨snapshotPath model revision path, some range⟩
      let t := toCheck.foldl (checkRange expected fun inst => env.slurp inst payload) { lists with }
      return (t.settle toCheck).getD t.toLists

/-! ## The configuration files -/

/-- The index of the weights. -/
def indexFile : String := "model.safetensors.index.json"

/-- `target_paths`. -/
def targetPaths : List String := [indexFile, "config.json"]

/-- `weight_map`, after a file. -/
def readWeightMap (weightMap : WeightMap) (target content : String) : Except Exc WeightMap :=
  if content ≠ "" ∧ target = indexFile then env.loads content else .ok weightMap

/-- The loop over the configuration files: the lists and the weight map, or
nothing where it returns early. -/
def checkTargets (model revision : String) (lists : Lists) (weightMap : WeightMap) :
    List String → Except Exc (Option (Lists × WeightMap))
  | [] => .ok (some (lists, weightMap))
  | target :: targets => do
    match ← env.hfContent target with
    | none => checkTargets model revision lists weightMap targets
    | some (expected, content) =>
      let weightMap ← readWeightMap env weightMap target content
      let payload : Payload := ⟨snapshotPath model revision target, none⟩
      let t := env.instances.foldl (checkConfig expected fun inst => env.slurp inst payload)
        { lists with }
      match t.settle env.instances with
      | none => return none
      | some lists => checkTargets model revision lists weightMap targets

/-- The chute whose name is not that of its model. -/
def exemptChute : String := "561e4875-254d-588f-a36f-57c9cdef8961"

/-- The revision that is checked, if there is one. -/
def LlmChute.checkedRevision (chute : LlmChute) : Option String :=
  (match chute.revision with
  | none => chute.revisionMatch
  | some revision => some revision).filter (· ≠ "")

def LlmChute.modelName (chute : LlmChute) : String := chute.modelMatch.getD chute.name

/-- **`check_llm_weights`**, for instances that are only asked whether there
are any: the pair it returns, or `None`. -/
def checkLlmWeights (instances : List Instance) : Except Exc (Option Lists) :=
  if instances = [] then .ok (some {})
  else if env.chute.chuteId = exemptChute then .ok (some {})
  else
    match env.chute.checkedRevision with
    | none => .ok (some {})
    | some revision => do
      let _ ← ChutesVersion.useEncryptedSlurp env.chute.chutesVersion
      if env.instances = [] then return some {}
      let model := env.chute.modelName
      match ← checkTargets env model revision {} .falsy targetPaths with
      | none => return none
      | some (lists, .falsy) => return some lists
      | some (lists, .paths weightFiles) =>
        return some (← checkWeightFiles env model revision weightFiles lists)

end Watchtower

end ChutesApi
