import ChutesApi.Common.Select
import ChutesApi.Invoke.Model.Partition
import Mathlib.Data.List.Nodup
import Mathlib.Data.List.Perm.Basic
/-!
# The partitions are one table

Each partition is for its own week, since no two weeks have one name. So a
row is in the partition that its attempt has the suffix of, and what the
attempt writes is written into its row and no other: the partitions do what
one table of the invocations would (`refines`), and no statement raises.
-/

namespace ChutesApi

open Python

namespace WeekPartition

variable {tables tables' : Dict String Table} {table : Table} {name id : String}
  {row new : InvocationRow}
variable {s : State} {t : InvocationTable.State} {e : InvocationTable.Entry} {time week : ℕ}

/-! ## Weeks -/

theorem weekLength_pos : 0 < weekLength := by decide

/-- The times of a week. -/
theorem weekOf_eq_iff : weekOf time = week ↔
    weekLength * week ≤ time ∧ time < weekLength * week + weekLength := by
  unfold weekOf
  rw [Nat.div_eq_iff weekLength_pos, Nat.mul_comm]
  have := weekLength_pos
  omega

theorem partitionName_inj {v w : ℕ} :
    partitionName (IsoWeek.name v) = partitionName (IsoWeek.name w) ↔ v = w := by
  unfold partitionName
  rw [← IsoWeek.name_inj]
  constructor
  · intro h
    have hchars := congrArg String.toList h
    rw [String.toList_append, String.toList_append] at hchars
    exact String.toList_injective (List.append_cancel_left hchars)
  · intro h
    rw [h]

/-- **Every partition is for the week it is named after.** -/
def Weekly (tables : Dict String Table) : Prop :=
  ∀ name table, tables.get? name = some table → ∃ week, name = partitionName (IsoWeek.name week) ∧
    table.lower = weekLength * week ∧ table.upper = weekLength * week + weekLength

/-- The row is in a partition. -/
def Holds (tables : Dict String Table) (row : InvocationRow) : Prop :=
  ∃ name table, tables.get? name = some table ∧ row ∈ table.rows

/-- A partition for a time is that of its week. -/
theorem Weekly.name_eq (h : Weekly tables) (hget : tables.get? name = some table)
    (hlower : table.lower ≤ time) (hupper : time < table.upper) :
    name = partitionName (IsoWeek.name (weekOf time)) := by
  obtain ⟨week, rfl, hlo, hhi⟩ := h name table hget
  rw [weekOf_eq_iff.2 ⟨hlo ▸ hlower, hhi ▸ hupper⟩]

/-- The partition that a week's rows go to. -/
theorem Weekly.find (h : Weekly tables)
    (hget : tables.get? (partitionName (IsoWeek.name (weekOf time))) = some table) :
    tables.items.find? (fun e => e.2.lower ≤ time ∧ time < e.2.upper) =
      some (partitionName (IsoWeek.name (weekOf time)), table) := by
  have hitem := Dict.get?_eq_some.1 hget
  obtain ⟨week, hweek, hlo, hhi⟩ := h _ _ hget
  obtain rfl := partitionName_inj.1 hweek
  have hrange := weekOf_eq_iff.1 (rfl : weekOf time = weekOf time)
  have hfound : (tables.items.find? fun e => e.2.lower ≤ time ∧ time < e.2.upper).isSome := by
    rw [List.find?_isSome]
    exact ⟨_, hitem, by simpa [hlo, hhi] using hrange⟩
  obtain ⟨⟨name, other⟩, hother⟩ := Option.isSome_iff_exists.1 hfound
  have hbounds : other.lower ≤ time ∧ time < other.upper := by
    simpa using List.find?_some hother
  have hmem := List.mem_of_find?_eq_some hother
  have hname := h.name_eq (Dict.get?_eq_some.2 hmem) hbounds.1 hbounds.2
  rw [hother, tables.eq_of_mem hmem hitem hname]

/-! ## What holds between the partitions and the table -/

/-- **The partitions stand for the table.** -/
structure Refines (s : State) (t : InvocationTable.State) : Prop where
  weekly : Weekly s.tables
  placed : ∀ name table, s.tables.get? name = some table → ∀ row ∈ table.rows,
    table.lower ≤ row.startedAt ∧ row.startedAt < table.upper
  once : ∀ name table, s.tables.get? name = some table →
    (table.rows.map fun row => row.invocationId).Nodup
  rows : ∀ row, Holds s.tables row ↔ ∃ e, t.get? row.invocationId = some e ∧ e.row = row
  keyed : ∀ id e, t.get? id = some e → e.row.invocationId = id
  attempts : ∀ id, s.attempts.get? id =
    (t.get? id).map fun e => ⟨IsoWeek.name (weekOf e.row.startedAt), e.computeUnits⟩

theorem refines_initial : Refines .initial .empty where
  weekly _ _ h := by cases h
  placed _ _ h := by cases h
  once _ _ h := by cases h
  rows _ := by
    constructor
    · rintro ⟨_, _, h, _⟩
      cases h
    · rintro ⟨_, h, _⟩
      cases h
  keyed _ _ h := by cases h
  attempts _ := rfl

/-- A row of the table is in the partition of its week. -/
theorem Refines.home (h : Refines s t) (hget : t.get? id = some e) :
    ∃ table, s.tables.get? (partitionName (IsoWeek.name (weekOf e.row.startedAt))) = some table ∧
      e.row ∈ table.rows := by
  have hid : t.get? e.row.invocationId = some e := by rw [h.keyed id e hget, hget]
  obtain ⟨name, table, htable, hrow⟩ := (h.rows e.row).2 ⟨e, hid, rfl⟩
  obtain ⟨hlower, hupper⟩ := h.placed name table htable _ hrow
  obtain rfl := h.weekly.name_eq htable hlower hupper
  exact ⟨table, htable, hrow⟩

/-- A row in a partition is in that of its week. -/
theorem Refines.name_eq (h : Refines s t) (hget : s.tables.get? name = some table)
    (hrow : row ∈ table.rows) : name = partitionName (IsoWeek.name (weekOf row.startedAt)) := by
  obtain ⟨hlower, hupper⟩ := h.placed name table hget row hrow
  exact h.weekly.name_eq hget hlower hupper

/-- **The view has the table's rows**, each once. -/
theorem Refines.view_perm (h : Refines s t) :
    s.view.Perm (t.values.map fun e => e.row) := by
  have hviewed : ∀ row, row ∈ s.view ↔ Holds s.tables row := by
    intro row
    simp only [State.view, List.mem_flatMap, Dict.mem_values, Holds]
    constructor
    · rintro ⟨table, ⟨name, hget⟩, hrow⟩
      exact ⟨name, table, hget, hrow⟩
    · rintro ⟨name, table, hget, hrow⟩
      exact ⟨table, ⟨name, hget⟩, hrow⟩
  -- A row that is in two partitions would be of two weeks.
  have hview : s.view.Nodup := by
    unfold State.view Dict.values
    rw [List.flatMap_map, List.nodup_flatMap]
    constructor
    · rintro ⟨name, table⟩ hmem
      exact (h.once name table (Dict.get?_eq_some.2 hmem)).of_map
    · refine (List.pairwise_map.1 s.tables.nodup).imp_of_mem ?_
      rintro ⟨name, table⟩ ⟨name', table'⟩ hmem hmem' hne
      show table.rows.Disjoint table'.rows
      intro row hrow hrow'
      refine hne ?_
      rw [h.name_eq (Dict.get?_eq_some.2 hmem) hrow, h.name_eq (Dict.get?_eq_some.2 hmem') hrow']
  have hvalues : (t.values.map fun e => e.row).Nodup := by
    unfold Dict.values
    rw [List.map_map]
    refine List.Nodup.map_on ?_ (List.Nodup.of_map _ t.nodup)
    rintro ⟨id, e⟩ hmem ⟨id', e'⟩ hmem' heq
    have hid := h.keyed id e (Dict.get?_eq_some.2 hmem)
    have hid' := h.keyed id' e' (Dict.get?_eq_some.2 hmem')
    refine t.eq_of_mem hmem hmem' ?_
    rw [← hid, ← hid']
    exact congrArg (fun row : InvocationRow => row.invocationId) heq
  rw [List.perm_ext_iff_of_nodup hview hvalues]
  intro row
  rw [hviewed, h.rows, List.mem_map]
  constructor
  · rintro ⟨e, hget, rfl⟩
    exact ⟨e, Dict.mem_values.2 ⟨_, hget⟩, rfl⟩
  · rintro ⟨e, hvalue, rfl⟩
    obtain ⟨id, hget⟩ := Dict.mem_values.1 hvalue
    rw [h.keyed id e hget]
    exact ⟨e, hget, rfl⟩

/-! ## One statement -/

/-- A partition that is there has its own range, and no other overlaps it. -/
theorem Refines.create (h : Refines s t) (week : ℕ) :
    ∃ tables, createPartition s.tables (partitionName (IsoWeek.name week)) (weekLength * week)
        (weekLength * week + weekLength) = some tables ∧
      Refines ⟨tables, s.attempts⟩ t ∧
      ∃ table, tables.get? (partitionName (IsoWeek.name week)) = some table := by
  unfold createPartition
  by_cases hkey : partitionName (IsoWeek.name week) ∈ s.tables.keys
  · exact ⟨s.tables, if_pos hkey, h, Dict.mem_keys.1 hkey⟩
  · have hfree : ¬∃ table ∈ s.tables.values, weekLength * week < table.upper ∧
        table.lower < weekLength * week + weekLength := by
      rintro ⟨table, hvalue, hupper, hlower⟩
      obtain ⟨name, hget⟩ := Dict.mem_values.1 hvalue
      obtain ⟨other, rfl, hlo, hhi⟩ := h.weekly name table hget
      have heq : other = week := by
        rw [hhi] at hupper
        rw [hlo] at hlower
        have := weekLength_pos
        have h1 : week < other + 1 := Nat.lt_of_mul_lt_mul_left (a := weekLength) (by linarith)
        have h2 : other < week + 1 := Nat.lt_of_mul_lt_mul_left (a := weekLength) (by linarith)
        omega
      rw [heq] at hget
      exact hkey (Dict.mem_keys.2 ⟨table, hget⟩)
    have hnone := Dict.get?_eq_none.2 hkey
    refine ⟨_, by rw [if_neg hkey, if_neg hfree], ?_, _, by rw [Dict.get?_set, if_pos rfl]⟩
    have hcases : ∀ name table, (s.tables.set (partitionName (IsoWeek.name week))
        ⟨weekLength * week, weekLength * week + weekLength, []⟩).get? name = some table →
        name = partitionName (IsoWeek.name week) ∧
          table = ⟨weekLength * week, weekLength * week + weekLength, []⟩ ∨
        s.tables.get? name = some table := by
      intro name table hget
      rw [Dict.get?_set] at hget
      split at hget
      · next hname => exact .inl ⟨hname, (Option.some.inj hget).symm⟩
      · exact .inr hget
    refine ⟨fun name table hget => ?_, fun name table hget row hrow => ?_,
      fun name table hget => ?_, fun row => ?_, h.keyed, h.attempts⟩
    · rcases hcases name table hget with ⟨rfl, rfl⟩ | hget
      · exact ⟨week, rfl, rfl, rfl⟩
      · exact h.weekly name table hget
    · rcases hcases name table hget with ⟨rfl, rfl⟩ | hget
      · cases hrow
      · exact h.placed name table hget row hrow
    · rcases hcases name table hget with ⟨rfl, rfl⟩ | hget
      · exact List.nodup_nil
      · exact h.once name table hget
    · rw [← h.rows row]
      constructor
      · rintro ⟨name, table, hget, hrow⟩
        rcases hcases name table hget with ⟨rfl, rfl⟩ | hget
        · cases hrow
        · exact ⟨name, table, hget, hrow⟩
      · rintro ⟨name, table, hget, hrow⟩
        refine ⟨name, table, ?_, hrow⟩
        rw [Dict.get?_set, if_neg, hget]
        rintro rfl
        rw [hnone] at hget
        cases hget

/-- The rows of one partition are put in place of what it had. -/
theorem Refines.put (h : Refines s t) {rows : List InvocationRow} {attempt : Attempt}
    (hget : s.tables.get? name = some table) (hid : e.row.invocationId = id)
    (hattempt : attempt = ⟨IsoWeek.name (weekOf e.row.startedAt), e.computeUnits⟩)
    (hplaced : ∀ row ∈ rows, table.lower ≤ row.startedAt ∧ row.startedAt < table.upper)
    (honce : (rows.map fun row => row.invocationId).Nodup)
    (hrows : ∀ row, row ∈ rows ↔ row = e.row ∨ row ∈ table.rows ∧ row.invocationId ≠ id)
    (hothers : ∀ name' table', name' ≠ name → s.tables.get? name' = some table' →
      ∀ row ∈ table'.rows, row.invocationId ≠ id) :
    Refines ⟨s.tables.set name { table with rows := rows }, s.attempts.set id attempt⟩
      (t.set id e) where
  weekly := by
    intro name' table' hget'
    rw [Dict.get?_set] at hget'
    split at hget'
    · next heq =>
      obtain rfl := Option.some.inj hget'
      exact heq ▸ h.weekly name table hget
    · exact h.weekly name' table' hget'
  placed := by
    intro name' table' hget'
    rw [Dict.get?_set] at hget'
    split at hget'
    · obtain rfl := Option.some.inj hget'
      exact hplaced
    · exact h.placed name' table' hget'
  once := by
    intro name' table' hget'
    rw [Dict.get?_set] at hget'
    split at hget'
    · obtain rfl := Option.some.inj hget'
      exact honce
    · exact h.once name' table' hget'
  rows := by
    intro row
    have hold : (∃ e', t.get? row.invocationId = some e' ∧ e'.row = row) ↔ Holds s.tables row :=
      (h.rows row).symm
    -- A row is the new one, or was there under another id.
    have hnew : Holds (s.tables.set name { table with rows := rows }) row ↔
        row = e.row ∨ Holds s.tables row ∧ row.invocationId ≠ id := by
      constructor
      · rintro ⟨name', table', hget', hrow⟩
        rw [Dict.get?_set] at hget'
        split at hget'
        · obtain rfl := Option.some.inj hget'
          rcases (hrows row).1 hrow with rfl | ⟨hmem, hne⟩
          · exact .inl rfl
          · exact .inr ⟨⟨name, table, hget, hmem⟩, hne⟩
        · next hne =>
          exact .inr ⟨⟨name', table', hget', hrow⟩, hothers name' table' hne hget' row hrow⟩
      · rintro (rfl | ⟨⟨name', table', hget', hrow⟩, hne⟩)
        · exact ⟨name, _, by rw [Dict.get?_set, if_pos rfl], (hrows _).2 (.inl rfl)⟩
        · by_cases hname : name' = name
          · subst hname
            obtain rfl := Option.some.inj (hget.symm.trans hget')
            exact ⟨name', _, by rw [Dict.get?_set, if_pos rfl], (hrows row).2 (.inr ⟨hrow, hne⟩)⟩
          · exact ⟨name', table', by rw [Dict.get?_set, if_neg hname, hget'], hrow⟩
    rw [hnew, ← hold]
    by_cases heq : row.invocationId = id
    · simp only [Dict.get?_set, heq, if_true, Option.some.injEq, exists_eq_left', ne_eq,
        not_true_eq_false, and_false, or_false, eq_comm]
    · have hne : row ≠ e.row := by
        rintro rfl
        exact heq hid
      simp only [Dict.get?_set, heq, if_false, ne_eq, not_false_eq_true, and_true, hne, false_or]
  keyed := by
    intro id' e' hget'
    rw [Dict.get?_set] at hget'
    split at hget'
    · next heq =>
      obtain rfl := Option.some.inj hget'
      exact hid.trans heq.symm
    · exact h.keyed id' e' hget'
  attempts := by
    intro id'
    simp only [Dict.get?_set]
    split
    · rw [hattempt, Option.map_some]
    · exact h.attempts id'

/-- An id is in the partition of its row alone. -/
theorem Refines.elsewhere (h : Refines s t)
    (hhome : ∀ e, t.get? id = some e → name = partitionName (IsoWeek.name (weekOf e.row.startedAt)))
    (name' : String) (table' : Table) (hne : name' ≠ name)
    (hget' : s.tables.get? name' = some table')
    (row : InvocationRow) (hrow : row ∈ table'.rows) : row.invocationId ≠ id := by
  rintro rfl
  obtain ⟨e, he, rfl⟩ := (h.rows row).1 ⟨name', table', hget', hrow⟩
  exact hne ((h.name_eq hget' hrow).trans (hhome e he).symm)

/-- **`insert_invocation`** always finds its partition. -/
theorem Refines.track (h : Refines s t) (args : Tracked) (now : ℕ) :
    Option.Rel Refines (s.track args now) (InvocationTable.step t (.track args now)) := by
  have hkeys : args.invocationId ∈ s.attempts.keys ↔ args.invocationId ∈ t.keys := by
    rw [← Dict.isSome_get?, ← Dict.isSome_get?, h.attempts, Option.isSome_map]
  unfold State.track InvocationTable.step
  by_cases hknown : args.invocationId ∈ t.keys
  · simp only [hkeys.2 hknown, hknown, if_true]
    exact .none
  · have hnone := Dict.get?_eq_none.2 hknown
    obtain ⟨tables, hcreate, hrefines, table, htable⟩ := h.create (weekOf now)
    have hfind := hrefines.weekly.find htable
    have hinsert : insertInvocation s.tables { args with startedAt := now } =
        some (tables.set (partitionName (IsoWeek.name (weekOf now)))
          { table with rows := table.rows ++ [{ args with startedAt := now }] },
          IsoWeek.name (weekOf now)) := by
      simp only [insertInvocation, hcreate, insertRow, hfind, Option.bind_eq_bind, Option.bind_some,
        Option.map_some]
      rfl
    have hfresh : ∀ name' table', tables.get? name' = some table' → ∀ row ∈ table'.rows,
        row.invocationId ≠ args.invocationId := by
      intro name' table' hget' row hrow heq
      obtain ⟨e, he, -⟩ := (hrefines.rows row).1 ⟨name', table', hget', hrow⟩
      rw [heq, hnone] at he
      cases he
    simp only [mt hkeys.1 hknown, hknown, if_false, hinsert, Option.map_some]
    refine .some (hrefines.put htable (e := ⟨{ args with startedAt := now }, none⟩) rfl rfl ?_ ?_ ?_
      fun name' table' _ => hfresh name' table')
    · intro row hrow
      rcases List.mem_append.1 hrow with hrow | hrow
      · exact hrefines.placed _ _ htable row hrow
      · obtain rfl := List.mem_singleton.1 hrow
        obtain ⟨week, hweek, hlo, hhi⟩ := hrefines.weekly _ _ htable
        obtain rfl := partitionName_inj.1 hweek
        rw [hlo, hhi]
        exact weekOf_eq_iff.1 rfl
    · rw [List.map_append, List.map_singleton, ← List.concat_eq_append, List.nodup_concat]
      refine ⟨fun hmem => ?_, hrefines.once _ _ htable⟩
      obtain ⟨row, hrow, heq⟩ := List.mem_map.1 hmem
      exact hfresh _ _ htable row hrow heq
    · intro row
      rw [List.mem_append, List.mem_singleton, or_comm]
      refine or_congr_right ⟨fun hrow => ⟨hrow, hfresh _ _ htable row hrow⟩, fun hrow => hrow.1⟩

/-- **An update finds its one row.** -/
theorem Refines.update (h : Refines s t) (hget : t.get? id = some e)
    (f : InvocationRow → InvocationRow)
    (hid : ∀ row, (f row).invocationId = row.invocationId)
    (hstarted : ∀ row, (f row).startedAt = row.startedAt) :
    ∃ tables, updateRows s.tables (IsoWeek.name (weekOf e.row.startedAt)) id f =
        some (tables, [e.row]) ∧
      ∀ units, Refines
        ⟨tables, s.attempts.set id ⟨IsoWeek.name (weekOf e.row.startedAt), units⟩⟩
        (t.set id ⟨f e.row, units⟩) := by
  obtain ⟨table, htable, hrow⟩ := h.home hget
  have hkey := h.keyed id e hget
  have honce := h.once _ _ htable
  have hunique : ∀ row ∈ table.rows, row.invocationId = id ↔ row = e.row := by
    intro row hmem
    refine ⟨fun heq => ?_, fun heq => heq ▸ hkey⟩
    exact List.inj_on_of_nodup_map honce hmem hrow (heq.trans hkey.symm)
  have hfilter : table.rows.filter (fun row => row.invocationId = id) = [e.row] := by
    refine (Select.filter_eq_singleton honce.of_map).2 ⟨hrow, by simpa using hkey, ?_⟩
    intro row hmem hne
    simpa using fun heq => hne ((hunique row hmem).1 heq)
  refine ⟨_, by rw [updateRows, htable, Option.map_some, hfilter], fun units => ?_⟩
  refine h.put htable ((hid e.row).trans hkey) (by rw [hstarted]) ?_ ?_ ?_
    (h.elsewhere fun e' he' => by rw [Option.some.inj (hget.symm.trans he')])
  · intro row hmem
    obtain ⟨old, hold, rfl⟩ := List.mem_map.1 hmem
    have hplaced := h.placed _ _ htable old hold
    split
    · rwa [hstarted]
    · exact hplaced
  · rw [List.map_map]
    have hids : ((fun row : InvocationRow => row.invocationId) ∘ fun row =>
        if row.invocationId = id then f row else row) = fun row => row.invocationId := by
      funext row
      simp only [Function.comp_apply]
      split
      · exact hid row
      · rfl
    rwa [hids]
  · intro row
    rw [List.mem_map]
    constructor
    · rintro ⟨old, hold, rfl⟩
      split
      · next heq => exact .inl (congrArg f ((hunique old hold).1 heq))
      · next hne => exact .inr ⟨hold, hne⟩
    · rintro (rfl | ⟨hold, hne⟩)
      · exact ⟨e.row, hrow, if_pos hkey⟩
      · exact ⟨row, hold, if_neg hne⟩

/-- Requests that look the same are the same. -/
theorem Refines.congr (h : Refines s t) {attempts : Dict String Attempt}
    {t' : InvocationTable.State}
    (ha : ∀ id, attempts.get? id = s.attempts.get? id) (ht : ∀ id, t'.get? id = t.get? id) :
    Refines ⟨s.tables, attempts⟩ t' where
  weekly := h.weekly
  placed := h.placed
  once := h.once
  rows row := by rw [ht]; exact h.rows row
  keyed id e hget := h.keyed id e (ht id ▸ hget)
  attempts id := by rw [ht, ← h.attempts id]; exact ha id

/-- **One step**, of both alike. -/
theorem Refines.step (h : Refines s t) (a : Action) :
    Option.Rel Refines (s.step a) (InvocationTable.step t a) := by
  cases a with
  | track args now => exact h.track args now
  | complete id bounty metrics now =>
    simp only [State.step, State.complete, InvocationTable.step]
    cases hget : t.get? id with
    | none =>
      rw [h.attempts, hget]
      exact .none
    | some e =>
      obtain ⟨tables, hupdate, hrefines⟩ :=
        h.update hget (·.complete now bounty metrics) (fun _ => rfl) (fun _ => rfl)
      rw [h.attempts, hget]
      simp only [Option.map_some, Option.bind_eq_bind, Option.bind_some, hupdate]
      exact .some (hrefines (some (e.row.totalComputeUnits now)))
  | fail id message now =>
    simp only [State.step, State.fail, InvocationTable.step]
    cases hget : t.get? id with
    | none =>
      rw [h.attempts, hget]
      exact .none
    | some e =>
      obtain ⟨tables, hupdate, hrefines⟩ :=
        h.update hget (·.fail now message) (fun _ => rfl) (fun _ => rfl)
      have hattempt : s.attempts.get? id =
          some ⟨IsoWeek.name (weekOf e.row.startedAt), e.computeUnits⟩ := by
        rw [h.attempts, hget, Option.map_some]
      simp only [hattempt, Option.map_some, Option.bind_eq_bind, Option.bind_some, hupdate]
      refine .some ((hrefines e.computeUnits).congr (fun id' => ?_) fun _ => rfl)
      rw [Dict.get?_set]
      split
      · next heq => rw [heq, hattempt]
      · rfl

/-- **The partitions do what one table would**, from the first invocation on, in
every order of statements, whatever their times: no two weeks have one name,
and the partitions raise on none that the table takes, have the table's rows,
each once, and return to every attempt its own compute units. -/
theorem refines (as : List Action) :
    (∀ v w, IsoWeek.name v = IsoWeek.name w → v = w) ∧
      Option.Rel (fun s t => s.view.Perm (t.values.map fun e => e.row) ∧
          ∀ id, (s.attempts.get? id).map (fun attempt => attempt.computeUnits) =
            (t.get? id).map fun e => e.computeUnits)
        (system.exec .initial as) (InvocationTable.system.exec .empty as) := by
  refine ⟨fun _ _ => IsoWeek.name_inj.1, ?_⟩
  have hrel :
      Option.Rel Refines (system.exec .initial as) (InvocationTable.system.exec .empty as) :=
    Lts.exec_rel (fun _ _ a h => h.step a) refines_initial
  generalize system.exec .initial as = x at hrel ⊢
  generalize InvocationTable.system.exec .empty as = y at hrel ⊢
  cases hrel with
  | none => exact .none
  | some h =>
    refine .some ⟨h.view_perm, fun id => ?_⟩
    rw [h.attempts, Option.map_map]
    rfl

end WeekPartition

end ChutesApi
