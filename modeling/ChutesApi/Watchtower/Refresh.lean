import ChutesApi.Watchtower.Outcome
/-!
# Which passes refresh soundly

A pass is sound where it updates only instances that passed each check that
applies to them, and purges or counts every other. `refresh_sound_iff` says exactly
where it is: an exception leaves instances without a result, a list among
the hard failures ends the pass, an instance without a dump is passed over,
and one that only the weights fail softly is updated all the same.
-/

namespace ChutesApi

namespace Watchtower

open Python

/-- A file it was asked for is right, or is what all agree on, and in time. -/
structure FileCheck.Passed (f : FileCheck) (inst : Instance) : Prop where
  noData : f.noData inst = false
  softly : f.softly inst = false
  wrong : f.wrong inst = true → f.Consensus

namespace Round

variable (p : Round) (chute : WatchedChute) (row : Row)

/-- **It passes every check** that applies to it, each with a result. -/
structure Passes : Prop where
  dump : ∃ c, p.semcomp = .ok c ∧ (p.dumpsEnabled = true →
    ∃ d, p.getDump (row.object 0) = .ok (some d) ∧ d.failed = .ok false)
  ping : p.checkPing (row.object 0) = .ok true
  command : ∃ enabled, ChutesVersion.useEncryptedSlurp chute.chutesVersion = .ok enabled ∧
    (enabled = true → p.checkLiveCode (row.object 0) = .ok true)
  weights : ∃ files, p.files chute = .ok files ∧
    ∀ f ∈ files, row.object 1 ∈ f.asked → f.Passed (row.object 1)

/-- **A pass is sound.** -/
structure Sound : Prop where
  updated : ∀ id ∈ p.outcome.verified, ∃ chute, p.Watched chute ∧
    ∃ row ∈ p.rows, row.instanceId = id ∧ p.Passes chute row
  failed : ∀ chute, p.Watched chute → ∀ row ∈ p.rows, ¬ p.Passes chute row →
    row.instanceId ∈ p.outcome.purged ∨ row.instanceId ∈ p.outcome.softFails

/-- What it takes where the hard failures are flat: one without a dump fails
another check, and one that is left to be updated and too slow on a file, or
raises, has no data for another or is purged by its count. -/
def FlatCondition (files : List FileCheck) : Prop :=
  (∀ row ∈ p.rows, p.MissesDump row →
    p.pingFails row = true ∨ p.commandFails chute row = true ∨ p.commandRaises chute row = true ∨
      ∃ f ∈ files, row.object 1 ∈ f.asked ∧
        (f.noData (row.object 1) = true ∨ f.softly (row.object 1) = true)) ∧
  ∀ row ∈ p.commanded chute, row.object 1 ∈ files.flatMap FileCheck.softEntries →
    (∃ f ∈ files, row.object 1 ∈ f.asked ∧ f.noData (row.object 1) = true) ∨
      2 ≤ p.failCounts row.instanceId +
        (files.flatMap FileCheck.softEntries).count (row.object 1)

/-- What it takes where they are not: whatever fails is purged before the
first list, that of a file. -/
def NestedCondition (files : List FileCheck) : Prop :=
  ∃ before f after, files = before ++ f :: after ∧ (∀ g ∈ before, g.Settled) ∧ ¬ f.Settled ∧
    ∀ row ∈ p.rows, ¬ p.Passes chute row → p.dumpFails row = true ∨
      (row ∈ p.answering ∧ p.commandFails chute row = true) ∨
        ∃ g ∈ before ++ [f], row.object 1 ∈ g.asked ∧ g.noData (row.object 1) = true

/-- **Where a pass is sound.** -/
def SoundWhen : Prop :=
  ∀ chute, p.Watched chute → p.rows = [] ∨ ∃ files, p.Runs chute files ∧
    ((∀ f ∈ files, f.Settled) ∧ p.FlatCondition chute files ∨ p.NestedCondition chute files)

/-- The same, of the one chute that is watched. -/
structure SoundFor : Prop where
  updated : ∀ id ∈ p.outcome.verified, ∃ row ∈ p.rows, row.instanceId = id ∧ p.Passes chute row
  failed : ∀ row ∈ p.rows, ¬ p.Passes chute row →
    row.instanceId ∈ p.outcome.purged ∨ row.instanceId ∈ p.outcome.softFails

variable {p chute row}

/-! ## A pass that is cut short -/

/-- What a pass that raised has left undone. -/
structure Overlooks (p : Round) (chute : WatchedChute) (l : Ledger) : Prop where
  softFails : l.softFails = []
  verified : l.verified = []
  row : ∃ row ∈ p.rows, ¬ p.Passes chute row ∧ row.instanceId ∉ l.purged

/-- **The dumps**, where one raises. -/
theorem badEnv_raises (chute : WatchedChute) (hne : p.rows ≠ []) (h : ¬ p.DumpsRun) :
    ∃ e l, p.badEnv p.start = .error e l ∧ p.Overlooks chute l := by
  unfold badEnv
  cases hc : p.semcomp with
  | error e =>
    obtain ⟨row, hrow⟩ := List.exists_mem_of_ne_nil _ hne
    refine ⟨e, p.start, watch_bind_error _ (attempt_error e _), rfl, rfl, row, hrow, ?_, ?_⟩
    · intro hpasses
      obtain ⟨c, hok, -⟩ := hpasses.dump
      rw [hc] at hok
      cases hok
    · exact List.not_mem_nil
  | ok c =>
    have hdumps : ¬ (p.dumpsEnabled = true → ∀ row ∈ p.rows, ∃ dump,
        p.getDump (row.object 0) = .ok dump ∧ ∀ e, ¬ DumpOf (.error e) dump) :=
      fun hdumps => h ⟨⟨c, hc⟩, hdumps⟩
    rw [Classical.not_imp] at hdumps
    obtain ⟨henabled, hdumps⟩ := hdumps
    have hon : 0 ≤ c ∧ p.envdumpUnlock = true := by simpa [dumpsEnabled, hc] using henabled
    rw [watch_bind_ok _ (attempt_ok c p.start), if_pos hon]
    by_cases hload : ∃ row ∈ p.rows, ∃ e, p.getDump (row.object 0) = .error e
    · -- the gathering of the dumps raises
      obtain ⟨row, hrow, e, he⟩ := hload
      obtain ⟨e', hraises⟩ := mapM_raises (f := fun inst => return (inst, ← p.getDump inst))
        (List.mem_map_of_mem (f := (·.object 0)) hrow) (by rw [he]; rfl)
      refine ⟨e', p.start, ?_, rfl, rfl, row, hrow, ?_, List.not_mem_nil⟩
      · exact watch_bind_error _ (congrFun (congrArg attempt hraises) _)
      · intro hpasses
        obtain ⟨-, -, hdump⟩ := hpasses.dump
        obtain ⟨d, hd, -⟩ := hdump henabled
        rw [he] at hd
        cases hd
    · -- the check of one does
      have hget : ∀ row ∈ p.rows, ∃ dump, p.getDump (row.object 0) = .ok dump := by
        intro row hrow
        cases hrow' : p.getDump (row.object 0) with
        | ok dump => exact ⟨dump, rfl⟩
        | error e => exact absurd ⟨row, hrow, e, hrow'⟩ hload
      push Not at hdumps
      obtain ⟨row, hrow, hraises⟩ := hdumps
      obtain ⟨dump, hdump⟩ := hget row hrow
      obtain ⟨e, he⟩ := hraises dump hdump
      obtain ⟨dumpOf, hdumpOf, hload⟩ := mapM_getDump hget
      have hmem : (row.object 0, dumpOf (row.object 0)) ∈
          p.instances.map fun inst => (inst, dumpOf inst) :=
        List.mem_map_of_mem (List.mem_map_of_mem hrow)
      have hsame : dump = dumpOf (row.object 0) :=
        Except.ok.inj (hdump.symm.trans (hdumpOf row hrow))
      rw [hsame] at he
      obtain ⟨before, inst, dump', after, e', hsplit, hraises', hrun⟩ :=
        checkDumps_raises hmem he p.start
      refine ⟨e', { p.start with purged := p.start.purged ++ badDumps before }, ?_, rfl, rfl, ?_⟩
      · rw [hload, watch_bind_ok _ (attempt_ok _ p.start), hrun]
      · have hinst : (inst, dump') ∈ p.instances.map fun inst => (inst, dumpOf inst) := by
          rw [hsplit]
          simp
        obtain ⟨_, hobject, heq⟩ := List.mem_map.1 hinst
        obtain ⟨row', hrow', rfl⟩ := List.mem_map.1 hobject
        obtain ⟨rfl, rfl⟩ := Prod.mk.inj heq
        refine ⟨row', hrow', ?_, ?_⟩
        · intro hpasses
          obtain ⟨-, -, hpass⟩ := hpasses.dump
          obtain ⟨d, hd, hfalse⟩ := hpass henabled
          obtain ⟨d', hd', herror⟩ := hraises'
          rw [hdumpOf row' hrow', hd'] at hd
          obtain rfl := Option.some.inj (Except.ok.inj hd)
          rw [hfalse] at herror
          cases herror
        · -- the ids are distinct, so it is not one of those before it
          have hnodup := p.distinct
          rw [← map_instanceId p.rows 0] at hnodup
          have hids : p.rows.map (·.object 0) =
              (before ++ (row'.object 0, dumpOf (row'.object 0)) :: after).map Prod.fst := by
            rw [← hsplit, List.map_map]
            exact (List.map_id _).symm
          rw [hids, List.map_map, List.map_append, List.map_cons, List.nodup_append] at hnodup
          intro hbad
          obtain ⟨q, hq, hid⟩ := List.mem_map.1 hbad
          exact hnodup.2.2 _ (List.mem_map_of_mem (List.mem_of_mem_filter hq)) _
            List.mem_cons_self hid

/-- **Where something is raised before the end**, an instance is left
without a result. -/
theorem overlooks_of_not_runs (hwatched : p.Watched chute) (hne : p.rows ≠ [])
    (h : ¬ ∃ files, p.Runs chute files) :
    ∃ e l, p.checkChute p.start = .error e l ∧ p.Overlooks chute l := by
  by_cases hdumps : p.DumpsRun
  · rw [checkChute_eq hwatched hdumps]
    by_cases hgate : p.answering ≠ [] →
        ∃ enabled, ChutesVersion.useEncryptedSlurp chute.chutesVersion = .ok enabled
    · -- the weights raise, of those that are left
      rw [checkCommands_eq hgate, watch_bind_ok _ (attempt_ok _ _)]
      cases hfiles : p.files chute with
      | ok files => exact absurd ⟨files, hdumps, hgate, hfiles⟩ h
      | error e =>
        have hfiles' := hfiles
        unfold Round.files at hfiles'
        by_cases htemplate : chute.standardTemplate = some "vllm"
        · rw [if_pos htemplate] at hfiles'
          have hcommanded : p.commanded chute ≠ [] := by
            intro hnil
            rw [hnil] at hfiles'
            cases hfiles'
          obtain ⟨row, hrow⟩ := List.exists_mem_of_ne_nil _ hcommanded
          have hanswering := (mem_commanded.1 hrow).1
          refine ⟨e, { p.start with purged := p.badIds }, ?_, rfl, rfl, row,
            mem_rows_of_answering hanswering, ?_, not_mem_badIds hanswering⟩
          · have hweights : p.checkWeights chute ((p.commanded chute).map (·.object 0))
                { p.start with purged := p.badIds } =
                .error e { p.start with purged := p.badIds } := by
              rw [checkWeights_eq, hfiles']
              rfl
            dsimp only
            rw [← List.map_append]
            exact (finish_of_vllm htemplate _).trans (watch_bind_error _ hweights)
          · intro hpasses
            obtain ⟨files, hok, -⟩ := hpasses.weights
            rw [hfiles] at hok
            cases hok
        · rw [if_neg htemplate] at hfiles'
          cases hfiles'
    · -- the gate of the commands raises
      rw [Classical.not_imp] at hgate
      obtain ⟨hanswering, hgate⟩ := hgate
      obtain ⟨row, hrow⟩ := List.exists_mem_of_ne_nil _ hanswering
      cases herror : ChutesVersion.useEncryptedSlurp chute.chutesVersion with
      | ok enabled => exact absurd ⟨enabled, herror⟩ hgate
      | error e =>
        refine ⟨e, { p.start with purged := p.badIds }, ?_, rfl, rfl, row,
          mem_rows_of_answering hrow, ?_, not_mem_badIds hrow⟩
        · have hcommands : checkCommands chute.chutesVersion p.checkLiveCode
              (p.answering.map (·.object 0)) = .error e := by
            rw [checkCommands, if_neg (by simpa using hanswering), herror]
            rfl
          rw [hcommands]
          exact watch_bind_error _ (attempt_error e _)
        · intro hpasses
          obtain ⟨enabled, hok, -⟩ := hpasses.command
          rw [herror] at hok
          cases hok
  · obtain ⟨e, l, hraises, hoverlooks⟩ := badEnv_raises chute hne hdumps
    refine ⟨e, l, ?_, hoverlooks⟩
    unfold checkChute
    rw [hwatched.1]
    dsimp only
    rw [hwatched.2, if_neg Bool.false_ne_true]
    exact watch_bind_error _ hraises

/-! ## Where a pass is sound -/

/-- Where every file is settled, a file fails one that has no data or is
soft. -/
theorem passed_iff {f : FileCheck} {inst : Instance} (hsettled : f.Settled)
    (hasked : inst ∈ f.asked) :
    f.Passed inst ↔ f.noData inst = false ∧ f.softly inst = false := by
  refine ⟨fun h => ⟨h.noData, h.softly⟩, fun h => ⟨h.1, h.2, fun hwrong => ?_⟩⟩
  rcases hsettled with hnil | hconsensus
  · have hmem : inst ∈ f.incorrect := List.mem_filter.2 ⟨hasked, hwrong⟩
    rw [hnil] at hmem
    cases hmem
  · exact hconsensus

theorem pingFails_eq_false : p.pingFails row = false ↔ p.checkPing (row.object 0) = .ok true := by
  unfold pingFails
  cases p.checkPing (row.object 0) with
  | error e => simp
  | ok pong => cases pong <;> simp

/-- One whose command is right, or is not checked. -/
theorem commands_eq_false {enabled : Bool}
    (henabled : ChutesVersion.useEncryptedSlurp chute.chutesVersion = .ok enabled) :
    (p.commandRaises chute row = false ∧ p.commandFails chute row = false) ↔
      (enabled = true → p.checkLiveCode (row.object 0) = .ok true) := by
  unfold commandRaises commandFails commandsEnabled
  rw [henabled]
  cases enabled with
  | false => simp
  | true =>
    cases p.checkLiveCode (row.object 0) with
    | error e => simp
    | ok valid => cases valid <;> simp

/-- A dump that is there is good, or fails. -/
theorem dump_cases {files : List FileCheck} (hruns : p.Runs chute files) (hrow : row ∈ p.rows)
    (hmissing : ¬ p.MissesDump row) (hfails : p.dumpFails row = false) :
    ∃ c, p.semcomp = .ok c ∧ (p.dumpsEnabled = true →
      ∃ d, p.getDump (row.object 0) = .ok (some d) ∧ d.failed = .ok false) := by
  obtain ⟨c, hc⟩ := hruns.semcomp
  refine ⟨c, hc, fun henabled => ?_⟩
  obtain ⟨dump, hdump, hraises⟩ := hruns.dumps henabled row hrow
  cases dump with
  | none => exact absurd ⟨henabled, hdump⟩ hmissing
  | some d =>
    refine ⟨d, hdump, ?_⟩
    cases hfailed : d.failed with
    | error e => exact absurd ⟨d, rfl, hfailed⟩ (hraises e)
    | ok failed =>
      simp only [dumpFails, henabled, hdump, hfailed, Bool.true_and] at hfails
      rw [hfails]

/-- **An instance passes** in a pass whose files are settled. -/
theorem passes_iff {files : List FileCheck} (hruns : p.Runs chute files)
    (hsettled : ∀ f ∈ files, f.Settled) (hrow : row ∈ p.rows) :
    p.Passes chute row ↔ ¬ p.MissesDump row ∧ row ∈ p.commanded chute ∧
      row.object 1 ∉ withoutData files ∧ row.object 1 ∉ files.flatMap FileCheck.softEntries := by
  constructor
  · intro h
    obtain ⟨c, hc, hdump⟩ := h.dump
    obtain ⟨enabled, henabled, hcommand⟩ := h.command
    obtain ⟨files', hfiles', hpassed⟩ := h.weights
    obtain rfl : files = files' := Except.ok.inj (hruns.files.symm.trans hfiles')
    have hfails : p.dumpFails row = false := by
      unfold dumpFails
      cases hon : p.dumpsEnabled with
      | false => rfl
      | true =>
        obtain ⟨d, hd, hgood⟩ := hdump hon
        rw [hd, Bool.true_and]
        dsimp only
        rw [hgood]
    refine ⟨?_, ?_, ?_, ?_⟩
    · rintro ⟨hon, hnone⟩
      obtain ⟨d, hd, -⟩ := hdump hon
      rw [hnone] at hd
      cases hd
    · exact mem_commanded.2 ⟨mem_answering.2 ⟨mem_pinged.2 ⟨hrow, hfails⟩,
        pingFails_eq_false.2 h.ping⟩, (commands_eq_false henabled).2 hcommand⟩
    · intro hmem
      obtain ⟨f, hf, hasked, hno⟩ := mem_withoutData.1 hmem
      rw [(hpassed f hf hasked).noData] at hno
      cases hno
    · intro hmem
      obtain ⟨f, hf, hasked, hsoft⟩ := mem_softEntries_flatMap.1 hmem
      rw [(hpassed f hf hasked).softly] at hsoft
      cases hsoft
  · rintro ⟨hmissing, hcommanded, hno, hsoft⟩
    obtain ⟨hanswering, hcommand⟩ := mem_commanded.1 hcommanded
    obtain ⟨hpinged, hping⟩ := mem_answering.1 hanswering
    obtain ⟨enabled, henabled⟩ := hruns.gate (List.ne_nil_of_mem hanswering)
    refine ⟨dump_cases hruns hrow hmissing (mem_pinged.1 hpinged).2, pingFails_eq_false.1 hping,
      ⟨enabled, henabled, (commands_eq_false henabled).1 hcommand⟩, files, hruns.files,
      fun f hf hasked => (passed_iff (hsettled f hf) hasked).2 ⟨?_, ?_⟩⟩
    · exact Bool.eq_false_of_not_eq_true fun h => hno (mem_withoutData.2 ⟨f, hf, hasked, h⟩)
    · exact Bool.eq_false_of_not_eq_true fun h =>
        hsoft (mem_softEntries_flatMap.2 ⟨f, hf, hasked, h⟩)

/-- One that is left to be updated is not purged but for the weights. -/
theorem purged_of_commanded {files : List FileCheck} (houtcome : p.FlatOutcome chute files)
    (hruns : p.Runs chute files) (hcommanded : row ∈ p.commanded chute) :
    row.instanceId ∈ p.outcome.purged ↔ row.object 1 ∈ withoutData files ∨
      (row.object 1 ∈ files.flatMap FileCheck.softEntries ∧
        2 ≤ p.failCounts row.instanceId +
          (files.flatMap FileCheck.softEntries).count (row.object 1)) := by
  obtain ⟨hanswering, hraises, hfails⟩ := mem_commanded.1 hcommanded
  have hrow := mem_rows_of_answering hanswering
  have hdump := (mem_pinged.1 (mem_answering.1 hanswering).1).2
  have hsoft : row ∉ p.softRows chute := by
    rw [mem_softRows, hraises, (mem_answering.1 hanswering).2]
    simp
  have hhard : row ∉ p.hardRows chute := by
    rw [mem_hardRows, hfails]
    simp
  rw [houtcome.purged row hrow, mem_softIds hruns.files hrow, count_softIds hruns.files hcommanded,
    hdump]
  simp [hsoft, hhard]

/-- **Where the hard failures are flat**, what a sound pass takes. -/
theorem flat_iff {files : List FileCheck} (houtcome : p.FlatOutcome chute files)
    (hruns : p.Runs chute files) (hsettled : ∀ f ∈ files, f.Settled) :
    p.SoundFor chute ↔ p.FlatCondition chute files := by
  have hno (row : Row) : row.object 1 ∈ withoutData files ↔
      ∃ f ∈ files, row.object 1 ∈ f.asked ∧ f.noData (row.object 1) = true := mem_withoutData
  constructor
  · rintro ⟨hupdated, hfailed⟩
    refine ⟨fun row hrow hmissing => ?_, fun row hcommanded hsoft => ?_⟩
    · -- it does not pass, so it is purged or counted, and not for its dump
      have hnot : ¬ p.Passes chute row := fun h =>
        ((passes_iff hruns hsettled hrow).1 h).1 hmissing
      by_contra hnone
      push Not at hnone
      obtain ⟨hping, hfails, hraises, hfiles⟩ := hnone
      have hdump : p.dumpFails row = false := by
        simp [dumpFails, hmissing.2]
      have hcommanded : row ∈ p.commanded chute := by
        refine mem_commanded.2 ⟨mem_answering.2 ⟨mem_pinged.2 ⟨hrow, hdump⟩, ?_⟩, ?_, ?_⟩
        · exact Bool.eq_false_of_not_eq_true hping
        · exact Bool.eq_false_of_not_eq_true hraises
        · exact Bool.eq_false_of_not_eq_true hfails
      have hnoData : row.object 1 ∉ withoutData files := by
        intro hmem
        obtain ⟨f, hf, hasked, hno⟩ := mem_withoutData.1 hmem
        exact (hfiles f hf hasked).1 hno
      have hsoft : row.object 1 ∉ files.flatMap FileCheck.softEntries := by
        intro hmem
        obtain ⟨f, hf, hasked, hsoft⟩ := mem_softEntries_flatMap.1 hmem
        exact (hfiles f hf hasked).2 hsoft
      rcases hfailed row hrow hnot with hpurged | hcounted
      · rcases (purged_of_commanded houtcome hruns hcommanded).1 hpurged with h | ⟨h, -⟩
        · exact hnoData h
        · exact hsoft h
      · rw [houtcome.softFails, mem_softIds hruns.files hrow] at hcounted
        rcases hcounted with h | h
        · rw [mem_softRows] at h
          rcases h with ⟨-, h⟩ | ⟨-, h⟩
          · exact hping h
          · exact hraises h
        · exact hsoft h
    · -- if it were not purged, it would be updated
      have hrow := mem_rows_of_answering (mem_commanded.1 hcommanded).1
      rw [← hno]
      by_contra hnone
      rw [not_or] at hnone
      have hnot : row.instanceId ∉ p.outcome.purged := by
        rw [purged_of_commanded houtcome hruns hcommanded]
        rintro (h | ⟨-, h⟩)
        · exact hnone.1 h
        · exact hnone.2 h
      obtain ⟨row', hrow', hid, hpasses⟩ := hupdated row.instanceId
        ((houtcome.verified _).2 ⟨row, hcommanded, rfl, hnot⟩)
      rw [row_inj hrow' hrow hid] at hpasses
      exact ((passes_iff hruns hsettled hrow).1 hpasses).2.2.2 hsoft
  · rintro ⟨hmissing, hlapse⟩
    refine ⟨fun id hid => ?_, fun row hrow hnot => ?_⟩
    · obtain ⟨row, hcommanded, rfl, hnot⟩ := (houtcome.verified id).1 hid
      obtain ⟨hanswering, hraises, hfails⟩ := mem_commanded.1 hcommanded
      have hrow := mem_rows_of_answering hanswering
      rw [purged_of_commanded houtcome hruns hcommanded, not_or, not_and] at hnot
      have hsoft : row.object 1 ∉ files.flatMap FileCheck.softEntries := by
        intro hsoft
        rcases hlapse row hcommanded hsoft with h | h
        · exact hnot.1 ((hno row).2 h)
        · exact hnot.2 hsoft h
      refine ⟨row, hrow, rfl, (passes_iff hruns hsettled hrow).2
        ⟨fun hmiss => ?_, hcommanded, hnot.1, hsoft⟩⟩
      rcases hmissing row hrow hmiss with h | h | h | ⟨f, hf, hasked, h | h⟩
      · rw [(mem_answering.1 hanswering).2] at h
        cases h
      · rw [hfails] at h
        cases h
      · rw [hraises] at h
        cases h
      · exact hnot.1 (mem_withoutData.2 ⟨f, hf, hasked, h⟩)
      · exact hsoft (mem_softEntries_flatMap.2 ⟨f, hf, hasked, h⟩)
    · rw [houtcome.purged row hrow, houtcome.softFails, mem_softIds hruns.files hrow, mem_hardRows,
        mem_softRows, hno]
      by_cases hdump : p.dumpFails row = true
      · exact Or.inl (Or.inl hdump)
      have hpinged : row ∈ p.pinged := mem_pinged.2 ⟨hrow, Bool.eq_false_of_not_eq_true hdump⟩
      by_cases hping : p.pingFails row = true
      · exact Or.inr (Or.inl (Or.inl ⟨hpinged, hping⟩))
      have hanswering : row ∈ p.answering :=
        mem_answering.2 ⟨hpinged, Bool.eq_false_of_not_eq_true hping⟩
      by_cases hfails : p.commandFails chute row = true
      · exact Or.inl (Or.inr (Or.inl ⟨hanswering, hfails⟩))
      by_cases hraises : p.commandRaises chute row = true
      · exact Or.inr (Or.inl (Or.inr ⟨hanswering, hraises⟩))
      have hcommanded : row ∈ p.commanded chute := mem_commanded.2 ⟨hanswering,
        Bool.eq_false_of_not_eq_true hraises, Bool.eq_false_of_not_eq_true hfails⟩
      by_cases hnoData : row.object 1 ∈ withoutData files
      · exact Or.inl (Or.inr (Or.inr (Or.inl ((hno row).1 hnoData))))
      by_cases hsoft : row.object 1 ∈ files.flatMap FileCheck.softEntries
      · exact Or.inr (Or.inr hsoft)
      by_cases hmiss : p.MissesDump row
      · rcases hmissing row hrow hmiss with h | h | h | ⟨f, hf, hasked, h | h⟩
        · exact absurd h hping
        · exact absurd h hfails
        · exact absurd h hraises
        · exact absurd (mem_withoutData.2 ⟨f, hf, hasked, h⟩) hnoData
        · exact absurd (mem_softEntries_flatMap.2 ⟨f, hf, hasked, h⟩) hsoft
      · exact absurd ((passes_iff hruns hsettled hrow).2 ⟨hmiss, hcommanded, hnoData, hsoft⟩) hnot

/-- **Where they are not**: what fails is purged before the first list. -/
theorem nested_iff {files : List FileCheck} (hwatched : p.Watched chute)
    (hruns : p.Runs chute files) (hsettled : ¬ ∀ f ∈ files, f.Settled) :
    p.SoundFor chute ↔ p.NestedCondition chute files := by
  have hpurged {before after : List FileCheck} {f : FileCheck} (heq : files = before ++ f :: after)
      (hbefore : ∀ g ∈ before, g.Settled) (hf : ¬ f.Settled) {row : Row} (hrow : row ∈ p.rows) :
      row.instanceId ∈ p.outcome.purged ↔ p.dumpFails row = true ∨
        (row ∈ p.answering ∧ p.commandFails chute row = true) ∨
          ∃ g ∈ before ++ [f], row.object 1 ∈ g.asked ∧ g.noData (row.object 1) = true := by
    rw [(nestedOutcome hwatched (heq ▸ hruns) hbefore hf).purged row hrow, mem_hardRows,
      mem_withoutData]
  obtain ⟨before, f, after, heq, hbefore, hf⟩ := exists_first_unsettled hsettled
  have houtcome := nestedOutcome hwatched (heq ▸ hruns) hbefore hf
  constructor
  · rintro ⟨-, hfailed⟩
    refine ⟨before, f, after, heq, hbefore, hf, fun row hrow hnot => ?_⟩
    rcases hfailed row hrow hnot with h | h
    · exact (hpurged heq hbefore hf hrow).1 h
    · rw [houtcome.softFails] at h
      cases h
  · rintro ⟨before', f', after', heq', hbefore', hf', hall⟩
    refine ⟨fun id hid => ?_, fun row hrow hnot => Or.inl ?_⟩
    · rw [houtcome.verified] at hid
      cases hid
    · exact (hpurged heq' hbefore' hf' hrow).2 (hall row hrow hnot)

/-- A pass over no rows updates none. -/
theorem verified_of_nil (hwatched : p.Watched chute) (hnil : p.rows = []) :
    p.outcome.verified = [] := by
  cases hsemcomp : p.semcomp with
  | error e =>
    have hbad : p.badEnv p.start = .error e p.start := by
      unfold badEnv
      rw [hsemcomp]
      exact watch_bind_error _ (attempt_error e _)
    have hrun : p.checkChute p.start = .error e p.start := by
      unfold checkChute
      rw [hwatched.1]
      dsimp only
      rw [hwatched.2, if_neg Bool.false_ne_true]
      exact watch_bind_error _ hbad
    rw [outcome, hrun]
    rfl
  | ok c =>
    have hanswering : p.answering = [] := by simp [answering, pinged, hnil]
    have hcommanded : p.commanded chute = [] := by simp [commanded, hanswering]
    have hfiles : p.files chute = .ok [] := by
      unfold Round.files
      rw [hcommanded]
      split_ifs
      · rfl
      · rfl
    have hruns : p.Runs chute [] := by
      refine ⟨⟨⟨c, hsemcomp⟩, fun _ row hrow => ?_⟩, fun hne => absurd hanswering hne, hfiles⟩
      rw [hnil] at hrow
      cases hrow
    have houtcome := flatOutcome hwatched hruns fun f hf => absurd hf List.not_mem_nil
    refine List.eq_nil_iff_forall_not_mem.2 fun id hid => ?_
    obtain ⟨row, hrow, -⟩ := (houtcome.verified id).1 hid
    rw [hcommanded] at hrow
    cases hrow

/-- Only one chute is watched. -/
theorem sound_iff_of_watched (hwatched : p.Watched chute) : p.Sound ↔ p.SoundFor chute := by
  have honly {chute' : WatchedChute} (h : p.Watched chute') : chute' = chute :=
    Option.some.inj (h.1.symm.trans hwatched.1)
  constructor
  · rintro ⟨hupdated, hfailed⟩
    refine ⟨fun id hid => ?_, hfailed chute hwatched⟩
    obtain ⟨chute', hwatched', hrow⟩ := hupdated id hid
    exact honly hwatched' ▸ hrow
  · rintro ⟨hupdated, hfailed⟩
    refine ⟨fun id hid => ⟨chute, hwatched, hupdated id hid⟩, fun chute' hwatched' => ?_⟩
    obtain rfl := honly hwatched'
    exact hfailed

/-- **Where a pass refreshes soundly**: exactly there. -/
theorem refresh_sound_iff (p : Round) : p.Sound ↔ p.SoundWhen := by
  by_cases hwatched : ∃ chute, p.Watched chute
  · obtain ⟨chute, hwatched⟩ := hwatched
    have hwhen : p.SoundWhen ↔ p.rows = [] ∨ ∃ files, p.Runs chute files ∧
        ((∀ f ∈ files, f.Settled) ∧ p.FlatCondition chute files ∨
          p.NestedCondition chute files) := by
      refine ⟨fun h => h chute hwatched, fun h chute' hwatched' => ?_⟩
      obtain rfl : chute' = chute := Option.some.inj (hwatched'.1.symm.trans hwatched.1)
      exact h
    rw [sound_iff_of_watched hwatched, hwhen]
    by_cases hnil : p.rows = []
    -- there is nothing to update and nothing to fail
    · refine iff_of_true ⟨fun id hid => ?_, fun row hrow => ?_⟩ (Or.inl hnil)
      · rw [verified_of_nil hwatched hnil] at hid
        cases hid
      · rw [hnil] at hrow
        cases hrow
    rw [or_iff_right hnil]
    by_cases hruns : ∃ files, p.Runs chute files
    · obtain ⟨files, hruns⟩ := hruns
      have honly {files' : List FileCheck} (h : p.Runs chute files') : files' = files :=
        Except.ok.inj (h.files.symm.trans hruns.files)
      by_cases hsettled : ∀ f ∈ files, f.Settled
      · rw [flat_iff (flatOutcome hwatched hruns hsettled) hruns hsettled]
        refine ⟨fun h => ⟨files, hruns, Or.inl ⟨hsettled, h⟩⟩, ?_⟩
        rintro ⟨files', hruns', ⟨-, h⟩ | ⟨before, f, after, heq, -, hf, -⟩⟩
        · exact honly hruns' ▸ h
        · have hmem : f ∈ files := by
            rw [← honly hruns', heq]
            simp
          exact absurd (hsettled f hmem) hf
      · rw [nested_iff hwatched hruns hsettled]
        refine ⟨fun h => ⟨files, hruns, Or.inr h⟩, ?_⟩
        rintro ⟨files', hruns', ⟨hall, -⟩ | h⟩
        · exact absurd (honly hruns' ▸ hall) hsettled
        · exact honly hruns' ▸ h
    -- a pass that is cut short leaves one without a result
    · obtain ⟨e, l, hrun, hoverlooks⟩ := overlooks_of_not_runs hwatched hnil hruns
      have houtcome : p.outcome = l := by rw [outcome, hrun]
      obtain ⟨row, hrow, hnot, hpurged⟩ := hoverlooks.row
      refine iff_of_false (fun hsound => ?_) fun hfiles => hruns (hfiles.imp fun _ h => h.1)
      rcases hsound.failed row hrow hnot with h | h
      · rw [houtcome] at h
        exact hpurged h
      · rw [houtcome, hoverlooks.softFails] at h
        cases h
  · -- nothing is watched, and nothing is done
    have houtcome : p.outcome = p.start := by
      have hrun : p.checkChute p.start = .ok () p.start := by
        unfold checkChute
        cases hchute : p.chute with
        | none => rfl
        | some chute =>
          have hrolling : chute.rollingUpdate = true := by
            by_contra h
            exact hwatched ⟨chute, hchute, Bool.eq_false_of_not_eq_true h⟩
          dsimp only
          rw [if_pos hrolling]
          rfl
      rw [outcome, hrun]
    refine iff_of_true ⟨fun id hid => ?_, fun chute h => absurd ⟨chute, h⟩ hwatched⟩
      fun chute h => absurd ⟨chute, h⟩ hwatched
    rw [houtcome] at hid
    cases hid

def plainChute : WatchedChute := ⟨⟨"c", "model", some "0.3.0", none, none, none⟩, none, false⟩

/-- A pass over an instance that answers, but sends no dump. -/
def undumped : Round where
  chute := some plainChute
  rows := [⟨"a", "h"⟩]
  distinct := by decide
  reloaded := [⟨"a", "h"⟩]
  perm := List.Perm.refl _
  semcomp := .ok 1
  envdumpUnlock := true
  getDump _ := .ok none
  checkPing _ := .ok true
  checkLiveCode _ := .ok true
  weights := tampered
  failCounts _ := 0

/-- It is updated, and neither purged nor counted. -/
theorem not_sound_undumped : ¬ undumped.Sound := by
  intro hsound
  have hwatched : undumped.Watched plainChute := ⟨rfl, rfl⟩
  have houtcome : undumped.outcome = { failCounts := fun _ => 0, verified := ["a"] } := rfl
  have hnot : ¬ undumped.Passes plainChute ⟨"a", "h"⟩ := by
    intro hpasses
    obtain ⟨-, -, hdump⟩ := hpasses.dump
    obtain ⟨d, hd, -⟩ := hdump rfl
    cases hd
  rcases hsound.failed _ hwatched ⟨"a", "h"⟩ (List.mem_singleton_self _) hnot with h | h
  · rw [houtcome] at h
    cases h
  · rw [houtcome] at h
    cases h

end Round

end Watchtower

end ChutesApi
