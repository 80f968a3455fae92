import ChutesApi.Watchtower.Rows
/-!
# What a pass has done

The ledger of a pass, row by row. Where every file is settled the hard
failures are flat, and all of them and the soft ones are dealt with;
otherwise the first file that is not ends the pass.
-/

namespace ChutesApi

namespace Watchtower

open Python

namespace Round

variable {p : Round} {chute : WatchedChute} {row : Row}

/-! ## What the weights add -/

/-- Objects of the second load. -/
def Reloaded (p : Round) (instances : List Instance) : Prop :=
  ∀ inst ∈ instances, ∃ row ∈ p.rows, inst = row.object 1

/-- Those that have no data for a file. -/
def withoutData (files : List FileCheck) : List Instance :=
  files.flatMap fun f => f.asked.filter f.noData

theorem mem_withoutData {files : List FileCheck} {inst : Instance} : inst ∈ withoutData files ↔
    ∃ f ∈ files, inst ∈ f.asked ∧ f.noData inst = true := by
  simp [withoutData]

theorem mem_softEntries_flatMap {files : List FileCheck} {inst : Instance} :
    inst ∈ files.flatMap FileCheck.softEntries ↔
      ∃ f ∈ files, inst ∈ f.asked ∧ f.softly inst = true := by
  simp [FileCheck.softEntries]

theorem instanceId_mem_of_reloaded {instances : List Instance} (h : p.Reloaded instances)
    (hrow : row ∈ p.rows) :
    row.instanceId ∈ instances.map Instance.instanceId ↔ row.object 1 ∈ instances := by
  constructor
  · intro hmem
    obtain ⟨inst, hinst, hid⟩ := List.mem_map.1 hmem
    obtain ⟨row', hrow', rfl⟩ := h inst hinst
    exact row_inj hrow' hrow hid ▸ hinst
  · exact fun hmem => List.mem_map_of_mem (f := Instance.instanceId) hmem

theorem count_of_reloaded {instances : List Instance} (h : p.Reloaded instances)
    (hrow : row ∈ p.rows) : (instances.map Instance.instanceId).count row.instanceId =
      instances.count (row.object 1) := by
  rw [List.count, List.countP_map, List.count]
  refine List.countP_congr fun inst hinst => ?_
  obtain ⟨row', hrow', rfl⟩ := h inst hinst
  simp only [Function.comp, beq_iff_eq, object_inj]
  exact ⟨row_inj hrow' hrow, congrArg Row.instanceId⟩

/-- **Those that are asked** are loaded anew. -/
theorem reloaded_asked {files : List FileCheck} (h : p.files chute = .ok files) {f : FileCheck}
    (hf : f ∈ files) : p.Reloaded f.asked := by
  intro inst hinst
  unfold Round.files at h
  split_ifs at h
  · have hmem := mem_instances_of_asked h hf hinst
    obtain ⟨row, hrow, rfl⟩ := List.mem_map.1 hmem
    exact ⟨row, p.perm.mem_iff.1 (List.mem_of_mem_filter hrow), rfl⟩
  · obtain rfl := Except.ok.inj h
    cases hf

theorem reloaded_withoutData {files files' : List FileCheck} (h : p.files chute = .ok files)
    (hsub : ∀ f ∈ files', f ∈ files) : p.Reloaded (withoutData files') := by
  intro inst hinst
  obtain ⟨f, hf, hasked, -⟩ := mem_withoutData.1 hinst
  exact reloaded_asked h (hsub f hf) inst hasked

theorem reloaded_softEntries {files : List FileCheck} (h : p.files chute = .ok files) :
    p.Reloaded (files.flatMap FileCheck.softEntries) := by
  intro inst hinst
  obtain ⟨f, hf, hasked, -⟩ := mem_softEntries_flatMap.1 hinst
  exact reloaded_asked h hf inst hasked

theorem object_ne (row row' : Row) : row.object 0 ≠ row'.object 1 := by
  intro h
  exact Nat.zero_ne_one (congrArg Instance.load h)

/-- Settled files add no list. -/
theorem flatMap_hardEntries {files : List FileCheck} (h : ∀ f ∈ files, f.Settled) :
    files.flatMap FileCheck.hardEntries = (withoutData files).map .one := by
  unfold withoutData
  rw [List.map_flatMap]
  refine List.flatMap_congr fun f hf => ?_
  rw [FileCheck.hardEntries, if_pos (h f hf), List.append_nil]

/-- The first that is not adds one. -/
theorem flatMap_hardEntries_nested {before : List FileCheck} (after : List FileCheck)
    {f : FileCheck} (h : ∀ g ∈ before, g.Settled) (hf : ¬ f.Settled) :
    ∃ rest, (before ++ f :: after).flatMap FileCheck.hardEntries =
      (withoutData (before ++ [f])).map .one ++ .many f.incorrect :: rest := by
  have hnil : f.incorrect ≠ [] := fun hnil => hf (Or.inl hnil)
  obtain ⟨inst, tail, htail⟩ := List.exists_cons_of_ne_nil hnil
  refine ⟨(tail.map fun _ => .many f.incorrect) ++ after.flatMap FileCheck.hardEntries, ?_⟩
  have hentries : f.hardEntries = (f.asked.filter f.noData).map .one ++
      f.incorrect.map fun _ => .many f.incorrect := by
    rw [FileCheck.hardEntries, if_neg hf]
  have hmany : (f.incorrect.map fun _ => Entry.many f.incorrect) =
      .many f.incorrect :: tail.map fun _ => .many f.incorrect := by
    conv_lhs => rw [htail]
    rw [List.map_cons, ← htail]
  rw [List.flatMap_append, flatMap_hardEntries h, List.flatMap_cons, hentries, hmany]
  simp [withoutData]

/-- There is a first one. -/
theorem exists_first_unsettled {files : List FileCheck} (h : ¬ ∀ f ∈ files, f.Settled) :
    ∃ before f after, files = before ++ f :: after ∧ (∀ g ∈ before, g.Settled) ∧ ¬ f.Settled := by
  induction files with
  | nil => exact absurd (fun f hf => nomatch hf) h
  | cons f files ih =>
    by_cases hf : f.Settled
    · have hrest : ¬ ∀ g ∈ files, g.Settled := fun hall => h (List.forall_mem_cons.2 ⟨hf, hall⟩)
      obtain ⟨before, g, after, rfl, hbefore, hg⟩ := ih hrest
      exact ⟨f :: before, g, after, rfl, List.forall_mem_cons.2 ⟨hf, hbefore⟩, hg⟩
    · exact ⟨[], f, files, rfl, fun g hg => (nomatch hg), hf⟩

/-! ## What a pass has done -/

/-- The ids of the soft failures. -/
def softIds (p : Round) (chute : WatchedChute) (files : List FileCheck) : List String :=
  ((p.softRows chute).map (·.object 0) ++ files.flatMap FileCheck.softEntries).map
    Instance.instanceId

theorem mem_softRows : row ∈ p.softRows chute ↔
    (row ∈ p.pinged ∧ p.pingFails row = true) ∨
      (row ∈ p.answering ∧ p.commandRaises chute row = true) := by
  simp [softRows]

theorem mem_hardRows : row ∈ p.hardRows chute ↔
    row ∈ p.answering ∧ p.commandFails chute row = true := by
  simp [hardRows]

theorem mem_rows_of_softRows (h : row ∈ p.softRows chute) : row ∈ p.rows := by
  rcases mem_softRows.1 h with ⟨hpinged, -⟩ | ⟨hanswering, -⟩
  · exact (mem_pinged.1 hpinged).1
  · exact mem_rows_of_answering hanswering

theorem mem_softIds {files : List FileCheck} (hfiles : p.files chute = .ok files)
    (hrow : row ∈ p.rows) : row.instanceId ∈ p.softIds chute files ↔
      row ∈ p.softRows chute ∨ row.object 1 ∈ files.flatMap FileCheck.softEntries := by
  unfold softIds
  rw [List.map_append, List.mem_append, map_instanceId,
    instanceId_mem_map (fun _ => mem_rows_of_softRows) hrow,
    instanceId_mem_of_reloaded (reloaded_softEntries hfiles) hrow]

/-- Of one that is left to be updated, only the weights count. -/
theorem count_softIds {files : List FileCheck} (hfiles : p.files chute = .ok files)
    (hrow : row ∈ p.commanded chute) : (p.softIds chute files).count row.instanceId =
      (files.flatMap FileCheck.softEntries).count (row.object 1) := by
  obtain ⟨hanswering, hraises, -⟩ := mem_commanded.1 hrow
  have hrows := mem_rows_of_answering hanswering
  -- it is none of those that failed softly before
  have hnot : row.instanceId ∉ (p.softRows chute).map Row.instanceId := by
    rw [instanceId_mem_map (fun _ => mem_rows_of_softRows) hrows, mem_softRows, hraises,
      (mem_answering.1 hanswering).2]
    simp
  unfold softIds
  rw [List.map_append, List.count_append, map_instanceId, List.count_eq_zero_of_not_mem hnot,
    Nat.zero_add, count_of_reloaded (reloaded_softEntries hfiles) hrows]

/-- Those that are updated are the ones whose command is right. -/
theorem mem_updated {files : List FileCheck} (hfiles : p.files chute = .ok files)
    {inst : Instance} :
    inst ∈ ((p.left chute).map (·.object 0)).filter (fun inst =>
      inst ∉ (p.softRows chute).map (·.object 0) ++ files.flatMap FileCheck.softEntries &&
        inst ∉ (p.hardRows chute).map (·.object 0) ++ withoutData files) ↔
      ∃ row ∈ p.commanded chute, inst = row.object 0 := by
  -- no object of the second load is one of the first
  have hsoft : ∀ row : Row, row.object 0 ∉ files.flatMap FileCheck.softEntries := by
    intro row hmem
    obtain ⟨row', -, heq⟩ := reloaded_softEntries hfiles _ hmem
    exact object_ne row row' heq
  have hhard : ∀ row : Row, row.object 0 ∉ withoutData files := by
    intro row hmem
    obtain ⟨row', -, heq⟩ := reloaded_withoutData hfiles (fun _ => id) _ hmem
    exact object_ne row row' heq
  have hleft : ∀ row, row ∈ p.left chute ∧ row ∉ p.softRows chute ∧ row ∉ p.hardRows chute ↔
      row ∈ p.commanded chute := by
    intro row
    constructor
    · rintro ⟨hleft, hnotSoft, hnotHard⟩
      unfold left at hleft
      split_ifs at hleft
      · exact hleft
      · rw [mem_softRows, not_or, not_and, not_and] at hnotSoft
        rw [mem_hardRows, not_and] at hnotHard
        exact mem_commanded.2 ⟨hleft, Bool.eq_false_of_not_eq_true (hnotSoft.2 hleft),
          Bool.eq_false_of_not_eq_true (hnotHard hleft)⟩
    · intro hcommanded
      obtain ⟨hanswering, hraises, hfails⟩ := mem_commanded.1 hcommanded
      refine ⟨?_, ?_, ?_⟩
      · unfold left
        split_ifs
        · exact hcommanded
        · exact hanswering
      · rw [mem_softRows, hraises, (mem_answering.1 hanswering).2]
        simp
      · rw [mem_hardRows, hfails]
        simp
  rw [List.mem_filter]
  constructor
  · rintro ⟨hmem, hnot⟩
    obtain ⟨row, hrow, rfl⟩ := List.mem_map.1 hmem
    rw [Bool.and_eq_true, decide_eq_true_eq, decide_eq_true_eq, List.mem_append, List.mem_append,
      object_mem_map, object_mem_map, not_or, not_or] at hnot
    exact ⟨row, (hleft row).1 ⟨hrow, hnot.1.1, hnot.2.1⟩, rfl⟩
  · rintro ⟨row, hrow, rfl⟩
    obtain ⟨hrow, hnotSoft, hnotHard⟩ := (hleft row).2 hrow
    refine ⟨object_mem_map.2 hrow, ?_⟩
    rw [Bool.and_eq_true, decide_eq_true_eq, decide_eq_true_eq, List.mem_append, List.mem_append,
      object_mem_map, object_mem_map, not_or, not_or]
    exact ⟨⟨hnotSoft, hsoft row⟩, hnotHard, hhard row⟩

/-- **A pass whose hard failures are flat**, by its rows. -/
structure FlatOutcome (p : Round) (chute : WatchedChute) (files : List FileCheck) : Prop where
  purged : ∀ row ∈ p.rows, row.instanceId ∈ p.outcome.purged ↔ p.dumpFails row = true ∨
    row ∈ p.hardRows chute ∨ row.object 1 ∈ withoutData files ∨
      (row.instanceId ∈ p.softIds chute files ∧
        2 ≤ p.failCounts row.instanceId + (p.softIds chute files).count row.instanceId)
  softFails : p.outcome.softFails = p.softIds chute files
  verified : ∀ id, id ∈ p.outcome.verified ↔
    ∃ row ∈ p.commanded chute, row.instanceId = id ∧ id ∉ p.outcome.purged

theorem flatOutcome {files : List FileCheck} (hwatched : p.Watched chute)
    (hruns : p.Runs chute files) (hsettled : ∀ f ∈ files, f.Settled) :
    p.FlatOutcome chute files := by
  have hrun := checkChute_of_runs hwatched hruns
  rw [flatMap_hardEntries hsettled, ← List.map_append] at hrun
  obtain ⟨l, hconclude, hpurged, hsoft, hverified⟩ := conclude_eq
    ((p.left chute).map (·.object 0)) ((p.hardRows chute).map (·.object 0) ++ withoutData files)
    ((p.softRows chute).map (·.object 0) ++ files.flatMap FileCheck.softEntries)
    { p.start with purged := p.badIds }
  have houtcome : p.outcome = l := by rw [outcome, hrun, hconclude]
  have hhardRows : ∀ row ∈ p.hardRows chute, row ∈ p.rows :=
    fun row hrow => mem_rows_of_answering (mem_hardRows.1 hrow).1
  refine ⟨fun row hrow => ?_, ?_, fun id => ?_⟩
  · rw [houtcome, hpurged]
    refine or_congr (mem_badIds hrow) ?_
    rw [List.map_append, List.mem_append, map_instanceId, instanceId_mem_map hhardRows hrow,
      instanceId_mem_of_reloaded (reloaded_withoutData hruns.files fun _ => id) hrow, or_assoc]
    rfl
  · rw [houtcome, hsoft]
    rfl
  · rw [houtcome, hverified]
    change id ∈ [] ++ _ ↔ _
    rw [List.nil_append, List.mem_filter, decide_eq_true_eq, List.mem_map]
    constructor
    · rintro ⟨⟨inst, hinst, rfl⟩, hnot⟩
      obtain ⟨row, hrow, rfl⟩ := (mem_updated hruns.files).1 hinst
      exact ⟨row, hrow, rfl, hnot⟩
    · rintro ⟨row, hrow, rfl, hnot⟩
      exact ⟨⟨row.object 0, (mem_updated hruns.files).2 ⟨row, hrow, rfl⟩, rfl⟩, hnot⟩

/-- **A pass with a list among them.** -/
structure NestedOutcome (p : Round) (chute : WatchedChute) (files : List FileCheck) : Prop where
  purged : ∀ row ∈ p.rows, row.instanceId ∈ p.outcome.purged ↔ p.dumpFails row = true ∨
    row ∈ p.hardRows chute ∨ row.object 1 ∈ withoutData files
  softFails : p.outcome.softFails = []
  verified : p.outcome.verified = []

theorem nestedOutcome {before after : List FileCheck} {f : FileCheck} (hwatched : p.Watched chute)
    (hruns : p.Runs chute (before ++ f :: after)) (hbefore : ∀ g ∈ before, g.Settled)
    (hf : ¬ f.Settled) : p.NestedOutcome chute (before ++ [f]) := by
  have hrun := checkChute_of_runs hwatched hruns
  obtain ⟨rest, hentries⟩ := flatMap_hardEntries_nested after hbefore hf
  rw [hentries, ← List.append_assoc, ← List.map_append, conclude_many] at hrun
  have houtcome : p.outcome = { p.start with
      purged := p.badIds ++ List.map Instance.instanceId
        ((p.hardRows chute).map (·.object 0) ++ withoutData (before ++ [f])) } := by
    rw [outcome, hrun]
  have hhardRows : ∀ row ∈ p.hardRows chute, row ∈ p.rows :=
    fun row hrow => mem_rows_of_answering (mem_hardRows.1 hrow).1
  have hsub : ∀ g ∈ before ++ [f], g ∈ before ++ f :: after := by
    intro g hg
    rcases List.mem_append.1 hg with hg | hg
    · exact List.mem_append_left _ hg
    · rw [List.mem_singleton] at hg
      subst hg
      simp
  refine ⟨fun row hrow => ?_, ?_, ?_⟩
  · rw [houtcome, List.mem_append, mem_badIds hrow, List.map_append, List.mem_append,
      map_instanceId, instanceId_mem_map hhardRows hrow,
      instanceId_mem_of_reloaded (reloaded_withoutData hruns.files hsub) hrow]
  · rw [houtcome]
    rfl
  · rw [houtcome]
    rfl

end Round

end Watchtower

end ChutesApi
