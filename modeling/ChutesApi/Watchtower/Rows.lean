import ChutesApi.Watchtower.Stages
/-!
# A pass, row by row

What the checks of a pass come to for each row, which rows each stage is
left with, and what the stages are by them: up to its end, a pass in which
nothing is raised is `checkChute_of_runs`.
-/

namespace ChutesApi

namespace Watchtower

open Python

namespace Round

variable (p : Round) (chute : WatchedChute) (row : Row)

/-! ## The checks, row by row -/

/-- The dumps are checked. -/
def dumpsEnabled : Bool :=
  match p.semcomp with
  | .ok c => 0 ≤ c && p.envdumpUnlock
  | .error _ => false

/-- There is a dump, and its check fails. -/
def dumpFails : Bool :=
  p.dumpsEnabled &&
    match p.getDump (row.object 0) with
    | .ok (some d) =>
      match d.failed with
      | .ok failed => failed
      | .error _ => false
    | _ => false

/-- There is no dump. -/
def MissesDump : Prop := p.dumpsEnabled = true ∧ p.getDump (row.object 0) = .ok none

def pingFails : Bool :=
  match p.checkPing (row.object 0) with
  | .ok pong => !pong
  | .error _ => true

/-- The commands are checked. -/
def commandsEnabled : Bool :=
  match ChutesVersion.useEncryptedSlurp chute.chutesVersion with
  | .ok enabled => enabled
  | .error _ => false

def commandFails : Bool :=
  commandsEnabled chute &&
    match p.checkLiveCode (row.object 0) with
    | .ok valid => !valid
    | .error _ => false

def commandRaises : Bool :=
  commandsEnabled chute &&
    match p.checkLiveCode (row.object 0) with
    | .ok _ => false
    | .error _ => true

/-- Those that are pinged. -/
def pinged : List Row := p.rows.filter fun row => !p.dumpFails row

/-- Those that answer. -/
def answering : List Row := p.pinged.filter fun row => !p.pingFails row

/-- Those whose command is right, where it is checked. -/
def commanded : List Row :=
  p.answering.filter fun row => !p.commandRaises chute row && !p.commandFails chute row

/-- The ids of those whose dump fails. -/
def badIds : List String := (p.rows.filter p.dumpFails).map Row.instanceId

/-- **The files that are checked**, where the template is one with weights. -/
def files : Except Exc (List FileCheck) :=
  if chute.standardTemplate = some "vllm" then
    checkedFiles (p.weightsEnv chute p.badIds) ((p.commanded chute).map (·.object 0))
  else .ok []

/-- The chute is watched: it is there, and no update of it is rolling. -/
def Watched : Prop := p.chute = some chute ∧ chute.rollingUpdate = false

/-- No check of a dump raises. -/
structure DumpsRun : Prop where
  semcomp : ∃ c, p.semcomp = .ok c
  dumps : p.dumpsEnabled = true → ∀ row ∈ p.rows, ∃ dump,
    p.getDump (row.object 0) = .ok dump ∧ ∀ e, ¬ DumpOf (.error e) dump

/-- **Nothing is raised** that ends the pass before its end, and these files
are checked. -/
structure Runs (files : List FileCheck) : Prop extends p.DumpsRun where
  gate : p.answering ≠ [] →
    ∃ enabled, ChutesVersion.useEncryptedSlurp chute.chutesVersion = .ok enabled
  files : p.files chute = .ok files

/-! ## Rows and objects -/

variable {p chute row}

theorem object_inj {row' : Row} {n : ℕ} : row.object n = row'.object n ↔ row = row' := by
  cases row
  cases row'
  simp [Row.object]

theorem object_mem_map {rows : List Row} {n : ℕ} :
    row.object n ∈ rows.map (·.object n) ↔ row ∈ rows := by
  simp [object_inj]

theorem map_instanceId (rows : List Row) (n : ℕ) :
    (rows.map (·.object n)).map Instance.instanceId = rows.map Row.instanceId := by
  rw [List.map_map]
  rfl

/-- Rows are distinct by their ids. -/
theorem row_inj {row' : Row} (h : row ∈ p.rows) (h' : row' ∈ p.rows)
    (hid : row.instanceId = row'.instanceId) : row = row' :=
  List.inj_on_of_nodup_map p.distinct h h' hid

theorem instanceId_mem_map {rows : List Row} (hrows : ∀ row ∈ rows, row ∈ p.rows)
    (hrow : row ∈ p.rows) : row.instanceId ∈ rows.map Row.instanceId ↔ row ∈ rows := by
  constructor
  · intro hmem
    obtain ⟨row', hrow', hid⟩ := List.mem_map.1 hmem
    exact row_inj (hrows row' hrow') hrow hid ▸ hrow'
  · exact fun hmem => List.mem_map_of_mem hmem

/-! ## The dumps -/

theorem mapM_eq_map {α β : Type} {f : α → Except Exc β} {g : α → β} {xs : List α}
    (h : ∀ x ∈ xs, f x = .ok (g x)) : xs.mapM f = .ok (xs.map g) := by
  induction xs with
  | nil => rfl
  | cons x xs ih =>
    rw [List.mapM_cons, h x List.mem_cons_self, ih fun y hy => h y (List.mem_cons_of_mem _ hy)]
    rfl

theorem mapM_raises {α β : Type} {f : α → Except Exc β} {xs : List α} {x : α} {e : Exc}
    (hx : x ∈ xs) (h : f x = .error e) : ∃ e, xs.mapM f = .error e := by
  induction xs with
  | nil => cases hx
  | cons y xs ih =>
    rw [List.mapM_cons]
    cases hy : f y with
    | error e' => exact ⟨e', rfl⟩
    | ok b =>
      have hmem : x ∈ xs := by
        rcases List.mem_cons.1 hx with rfl | hmem
        · rw [h] at hy
          cases hy
        · exact hmem
      obtain ⟨e', hrest⟩ := ih hmem
      exact ⟨e', by rw [hrest]; rfl⟩

/-- Where none raises as it is fetched, each instance has a dump or none. -/
theorem mapM_getDump (h : ∀ row ∈ p.rows, ∃ dump, p.getDump (row.object 0) = .ok dump) :
    ∃ dumpOf : Instance → Option Dump,
      (∀ row ∈ p.rows, p.getDump (row.object 0) = .ok (dumpOf (row.object 0))) ∧
        p.instances.mapM (fun inst => return (inst, ← p.getDump inst)) =
          Except.ok (p.instances.map fun inst => (inst, dumpOf inst)) := by
  let dumpOf : Instance → Option Dump := fun inst =>
    match p.getDump inst with
    | .ok dump => dump
    | .error _ => none
  have hdumpOf : ∀ row ∈ p.rows, p.getDump (row.object 0) = .ok (dumpOf (row.object 0)) := by
    intro row hrow
    obtain ⟨dump, hdump⟩ := h row hrow
    simp only [dumpOf, hdump]
  refine ⟨dumpOf, hdumpOf, mapM_eq_map fun inst hinst => ?_⟩
  obtain ⟨row, hrow, rfl⟩ := List.mem_map.1 hinst
  rw [hdumpOf row hrow]
  rfl

/-- **The dumps**, where none raises. -/
theorem badEnv_eq (h : p.DumpsRun) (l : Ledger) :
    p.badEnv l = .ok p.badIds { l with purged := l.purged ++ p.badIds } := by
  obtain ⟨⟨c, hc⟩, hdumps⟩ := h
  have henabled : p.dumpsEnabled = decide (0 ≤ c ∧ p.envdumpUnlock = true) := by
    simp [dumpsEnabled, hc]
  unfold badEnv
  rw [hc, watch_bind_ok _ (attempt_ok c l)]
  by_cases hon : 0 ≤ c ∧ p.envdumpUnlock = true
  · rw [decide_eq_true hon] at henabled
    obtain ⟨dumpOf, hdumpOf, hload⟩ := mapM_getDump fun row hrow =>
      (hdumps henabled row hrow).imp fun _ => And.left
    have hbad : badDumps (p.instances.map fun inst => (inst, dumpOf inst)) = p.badIds := by
      unfold badDumps badIds instances
      rw [List.map_map, List.filter_map, List.map_map]
      refine congrArg₂ List.map rfl (List.filter_congr fun row hrow => ?_)
      simp only [Function.comp, dumpFails, hdumpOf row hrow, henabled, Bool.true_and]
      cases dumpOf (row.object 0) <;> rfl
    have hnone : ∀ q ∈ p.instances.map (fun inst => (inst, dumpOf inst)),
        ∀ e, ¬ DumpOf (.error e) q.2 := by
      intro q hq
      obtain ⟨inst, hinst, rfl⟩ := List.mem_map.1 hq
      obtain ⟨row, hrow, rfl⟩ := List.mem_map.1 hinst
      obtain ⟨dump, hdump, hraises⟩ := hdumps henabled row hrow
      rw [hdumpOf row hrow] at hdump
      rwa [← Except.ok.inj hdump] at hraises
    rw [if_pos hon, hload, watch_bind_ok _ (attempt_ok _ l), checkDumps_eq hnone, hbad]
  · rw [decide_eq_false hon] at henabled
    have hbad : p.badIds = [] := by simp [badIds, dumpFails, henabled]
    rw [if_neg hon, hbad, List.append_nil]
    rfl

/-! ## The pings and the commands -/

theorem checkPings_eq (rows : List Row) : checkPings p.checkPing (rows.map (·.object 0)) =
    (rows.filter p.pingFails).map (·.object 0) := by
  rw [checkPings, List.filter_map]
  rfl

/-- Of a stage, what is not among those that fail. -/
theorem filter_objects (rows : List Row) (fails : Row → Bool) (n : ℕ) :
    (rows.map (·.object n)).filter (· ∉ (rows.filter fails).map (·.object n)) =
      (rows.filter fun row => !fails row).map (·.object n) := by
  rw [List.filter_map]
  refine congrArg₂ List.map rfl (List.filter_congr fun row hrow => ?_)
  have hmem : row.object n ∈ (rows.filter fails).map (·.object n) ↔ fails row = true := by
    rw [object_mem_map, List.mem_filter, and_iff_right hrow]
  simp only [Function.comp, hmem]
  simp

/-- Those left after the dumps. -/
theorem filter_badIds :
    p.instances.filter (·.instanceId ∉ p.badIds) = p.pinged.map (·.object 0) := by
  unfold instances pinged badIds
  rw [List.filter_map]
  refine congrArg₂ List.map rfl (List.filter_congr fun row hrow => ?_)
  have hmem : row.instanceId ∈ (p.rows.filter p.dumpFails).map Row.instanceId ↔
      row ∈ p.rows.filter p.dumpFails :=
    instanceId_mem_map (fun _ => List.mem_of_mem_filter) hrow
  rw [Bool.eq_iff_iff]
  simp only [Function.comp, Row.object, hmem, List.mem_filter, hrow, true_and]
  simp

/-- The hard and the soft failures of the commands. -/
theorem checkCommands_eq (hgate : p.answering ≠ [] →
    ∃ enabled, ChutesVersion.useEncryptedSlurp chute.chutesVersion = .ok enabled) :
    checkCommands chute.chutesVersion p.checkLiveCode (p.answering.map (·.object 0)) =
      .ok ((p.answering.filter (p.commandFails chute)).map (·.object 0),
        (p.answering.filter (p.commandRaises chute)).map (·.object 0)) := by
  unfold checkCommands
  by_cases hnil : p.answering = []
  -- the version is not looked at for no instances
  · simp [hnil]
  · obtain ⟨enabled, henabled⟩ := hgate hnil
    rw [if_neg (by simpa using hnil), henabled]
    have hcommands : commandsEnabled chute = enabled := by simp [commandsEnabled, henabled]
    cases enabled with
    | false =>
      have hfails : p.answering.filter (p.commandFails chute) = [] := by
        simp [commandFails, hcommands]
      have hraises : p.answering.filter (p.commandRaises chute) = [] := by
        simp [commandRaises, hcommands]
      rw [hfails, hraises]
      rfl
    | true =>
      have hfails : p.commandFails chute = fun row =>
          match p.checkLiveCode (row.object 0) with
          | .ok valid => !valid
          | .error _ => false := by
        funext row
        rw [commandFails, hcommands, Bool.true_and]
      have hraises : p.commandRaises chute = fun row =>
          match p.checkLiveCode (row.object 0) with
          | .ok _ => false
          | .error _ => true := by
        funext row
        rw [commandRaises, hcommands, Bool.true_and]
      rw [hfails, hraises, List.filter_map, List.filter_map]
      rfl

/-! ## A pass in which nothing is raised before its end -/

/-- The objects of the first load among the failures. -/
def hardRows (p : Round) (chute : WatchedChute) : List Row :=
  p.answering.filter (p.commandFails chute)

def softRows (p : Round) (chute : WatchedChute) : List Row :=
  p.pinged.filter p.pingFails ++ p.answering.filter (p.commandRaises chute)

/-- Those that are put to the end of a pass. -/
def left (p : Round) (chute : WatchedChute) : List Row :=
  if chute.standardTemplate = some "vllm" then p.commanded chute else p.answering

/-- After the commands, those in neither list. -/
theorem filter_left :
    (p.answering.map (·.object 0)).filter (fun inst =>
      inst ∉ (p.softRows chute).map (·.object 0) &&
        .one inst ∉ ((p.hardRows chute).map (·.object 0)).map Entry.one) =
      (p.commanded chute).map (·.object 0) := by
  unfold commanded
  rw [List.filter_map]
  refine congrArg₂ List.map rfl (List.filter_congr fun row hrow => ?_)
  have hping : p.pingFails row = false := by simpa using (List.mem_filter.1 hrow).2
  have hsoft : row.object 0 ∈ (p.softRows chute).map (·.object 0) ↔
      p.commandRaises chute row = true := by
    rw [object_mem_map, softRows, List.mem_append, List.mem_filter, List.mem_filter, hping,
      and_iff_right hrow]
    simp
  have hhard : Entry.one (row.object 0) ∈ ((p.hardRows chute).map (·.object 0)).map Entry.one ↔
      p.commandFails chute row = true := by
    rw [List.mem_map_of_injective fun _ _ => Entry.one.inj, object_mem_map, hardRows,
      List.mem_filter, and_iff_right hrow]
  simp only [Function.comp, hsoft, hhard]
  simp

/-- The check of the weights, from the files. -/
theorem checkWeights_eq (chute : WatchedChute) (instances : List Instance) (l : Ledger) :
    p.checkWeights chute instances l =
      (attempt (checkedFiles (p.weightsEnv chute l.purged) instances) >>= fun files =>
        pure (Lists.add {} files) : Watch Lists) l := by
  have hget : (get : Watch Ledger) l = .ok l l := rfl
  unfold checkWeights
  rw [watch_bind_ok _ hget, checkLlmWeights_eq]
  cases checkedFiles (p.weightsEnv chute l.purged) instances <;> rfl

/-- With weights, they are checked of those that are left. -/
theorem finish_of_vllm (htemplate : chute.standardTemplate = some "vllm") (l : Ledger) :
    p.finish chute (p.answering.map (·.object 0))
        ⟨((p.hardRows chute).map (·.object 0)).map .one, (p.softRows chute).map (·.object 0)⟩ l =
      (p.checkWeights chute ((p.commanded chute).map (·.object 0)) >>= fun weights =>
        conclude ((p.commanded chute).map (·.object 0))
          ⟨((p.hardRows chute).map (·.object 0)).map .one ++ weights.hardFailed,
            (p.softRows chute).map (·.object 0) ++ weights.softFailed⟩ : Watch Unit) l := by
  unfold finish
  rw [if_pos htemplate, filter_left]

/-- The end, from the files. -/
theorem finish_eq {files : List FileCheck} {l : Ledger} (hfiles : p.files chute = .ok files)
    (hpurged : l.purged = p.badIds) :
    p.finish chute (p.answering.map (·.object 0))
        ⟨((p.hardRows chute).map (·.object 0)).map .one, (p.softRows chute).map (·.object 0)⟩ l =
      conclude ((p.left chute).map (·.object 0))
        ⟨((p.hardRows chute).map (·.object 0)).map .one ++ files.flatMap FileCheck.hardEntries,
          (p.softRows chute).map (·.object 0) ++ files.flatMap FileCheck.softEntries⟩ l := by
  unfold left
  unfold Round.files at hfiles
  by_cases htemplate : chute.standardTemplate = some "vllm"
  · rw [if_pos htemplate] at hfiles
    rw [if_pos htemplate, finish_of_vllm htemplate]
    have hweights : p.checkWeights chute ((p.commanded chute).map (·.object 0)) l =
        .ok (Lists.add {} files) l := by
      rw [checkWeights_eq, hpurged, hfiles]
      rfl
    rw [watch_bind_ok _ hweights]
    simp only [Lists.add, List.nil_append]
  · rw [if_neg htemplate] at hfiles
    obtain rfl := Except.ok.inj hfiles
    unfold finish
    rw [if_neg htemplate, if_neg htemplate]
    simp only [List.flatMap_nil, List.append_nil]

/-- **Up to its end**, what a pass does. -/
theorem checkChute_eq (hwatched : p.Watched chute) (hdumps : p.DumpsRun) :
    p.checkChute p.start =
      (attempt (checkCommands chute.chutesVersion p.checkLiveCode
        (p.answering.map (·.object 0))) >>= fun failed =>
          p.finish chute (p.answering.map (·.object 0))
            ⟨failed.1.map .one, (p.pinged.filter p.pingFails).map (·.object 0) ++ failed.2⟩)
        { p.start with purged := p.badIds } := by
  unfold checkChute
  rw [hwatched.1]
  dsimp only
  rw [hwatched.2, if_neg Bool.false_ne_true, watch_bind_ok _ (badEnv_eq hdumps p.start),
    filter_badIds, checkPings_eq, filter_objects]
  rfl

theorem checkChute_of_runs {files : List FileCheck} (hwatched : p.Watched chute)
    (hruns : p.Runs chute files) :
    p.checkChute p.start = conclude ((p.left chute).map (·.object 0))
      ⟨((p.hardRows chute).map (·.object 0)).map .one ++ files.flatMap FileCheck.hardEntries,
        (p.softRows chute).map (·.object 0) ++ files.flatMap FileCheck.softEntries⟩
      { p.start with purged := p.badIds } := by
  rw [checkChute_eq hwatched hruns.toDumpsRun, checkCommands_eq hruns.gate,
    watch_bind_ok _ (attempt_ok _ _), ← finish_eq hruns.files rfl]
  simp only [softRows, hardRows, List.map_append]

/-! ## The rows of the stages -/

theorem mem_pinged : row ∈ p.pinged ↔ row ∈ p.rows ∧ p.dumpFails row = false := by
  simp [pinged]

theorem mem_answering : row ∈ p.answering ↔ row ∈ p.pinged ∧ p.pingFails row = false := by
  simp [answering]

theorem mem_commanded : row ∈ p.commanded chute ↔ row ∈ p.answering ∧
    p.commandRaises chute row = false ∧ p.commandFails chute row = false := by
  simp [commanded]

theorem mem_rows_of_answering (h : row ∈ p.answering) : row ∈ p.rows :=
  (mem_pinged.1 (mem_answering.1 h).1).1

/-- The ids of those whose dump fails. -/
theorem mem_badIds (hrow : row ∈ p.rows) :
    row.instanceId ∈ p.badIds ↔ p.dumpFails row = true := by
  unfold badIds
  rw [instanceId_mem_map (fun _ => List.mem_of_mem_filter) hrow, List.mem_filter,
    and_iff_right hrow]

theorem not_mem_badIds (h : row ∈ p.answering) : row.instanceId ∉ p.badIds := by
  have hpinged := mem_pinged.1 (mem_answering.1 h).1
  rw [mem_badIds hpinged.1, hpinged.2]
  exact Bool.false_ne_true

end Round

end Watchtower

end ChutesApi
