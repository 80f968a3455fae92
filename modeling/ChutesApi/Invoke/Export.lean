import ChutesApi.Invoke.Model.Export
import ChutesApi.Invoke.Partition
/-!
# What the exports have of the invocations

An export is final for its hour: an invocation that has not been written
since stands in it exactly if it started in the hour, or completed in it
within a day. What is written later leaves the row that the export had, of
the same attempt, and is in the export of a later hour (`exported`).
-/

namespace ChutesApi

namespace Export

open WeekPartition

/-- The row is of the same attempt as the other one. -/
def Same (row row' : InvocationRow) : Prop :=
  row.toTracked = row'.toTracked ∧ row.startedAt = row'.startedAt

/-- Something was written into the row from that time on. -/
def WrittenSince (time : ℕ) (row : InvocationRow) : Prop :=
  ∃ completedAt ∈ row.completedAt, time ≤ completedAt

/-- **A report says of its hour what there is to say**, `there` being the rows
of the invocations. -/
structure Faithful (there : InvocationRow → Prop) (report : Report) : Prop where
  settled : ∀ row, there row → ¬WrittenSince report.endTime row →
    (row ∈ report.rows ↔ isReported report.startTime report.endTime row)
  started : ∀ row, there row → report.startTime ≤ row.startedAt → row.startedAt < report.endTime →
    ∃ row' ∈ report.rows, Same row' row
  known : ∀ row' ∈ report.rows, ∃ row, there row ∧ Same row' row ∧
    (row = row' ∨ WrittenSince report.endTime row)
  once : (report.rows.map fun row => row.invocationId).Nodup

section Steps

variable {there there' : InvocationRow → Prop} {report : Report} {row new : InvocationRow} {now : ℕ}
  {view : List InvocationRow}

theorem Faithful.congr (h : Faithful there report) (heq : ∀ row, there row ↔ there' row) :
    Faithful there' report := by
  have hthere : there = there' := funext fun row => propext (heq row)
  exact hthere ▸ h

/-- A new attempt starts after the hour. -/
theorem Faithful.track (h : Faithful there report) (hend : report.endTime ≤ new.startedAt)
    (hnew : new.completedAt = none)
    (hfresh : ∀ row, there row → row.invocationId ≠ new.invocationId)
    (hthere : ∀ row, there' row ↔ there row ∨ row = new) : Faithful there' report where
  settled := by
    intro row hrow hsince
    rcases (hthere row).1 hrow with hold | rfl
    · exact h.settled row hold hsince
    · refine iff_of_false (fun hmem => ?_) ?_
      · obtain ⟨other, hother, hsame, -⟩ := h.known row hmem
        exact hfresh other hother (congrArg Tracked.invocationId hsame.1.symm)
      · simp [isReported, hnew, hend]
  started := by
    intro row hrow hfrom hto
    rcases (hthere row).1 hrow with hold | rfl
    · exact h.started row hold hfrom hto
    · omega
  known := by
    intro row' hmem
    obtain ⟨row, hrow, hsame, hor⟩ := h.known row' hmem
    exact ⟨row, (hthere row).2 (.inl hrow), hsame, hor⟩
  once := h.once

/-- An attempt is written after the hour. -/
theorem Faithful.write (h : Faithful there report) {old : InvocationRow} (hold : there old)
    (hsame : Same old new) (hsince : WrittenSince report.endTime new)
    (hunique : ∀ row, there row → row.invocationId = old.invocationId → row = old)
    (hthere : ∀ row, there' row ↔ there row ∧ row.invocationId ≠ old.invocationId ∨ row = new) :
    Faithful there' report where
  settled := by
    intro row hrow hnot
    rcases (hthere row).1 hrow with ⟨hrow, -⟩ | rfl
    · exact h.settled row hrow hnot
    · exact absurd hsince hnot
  started := by
    intro row hrow hfrom hto
    rcases (hthere row).1 hrow with ⟨hrow, -⟩ | rfl
    · exact h.started row hrow hfrom hto
    · rw [← hsame.2] at hfrom hto
      obtain ⟨row', hmem, hrow'⟩ := h.started old hold hfrom hto
      exact ⟨row', hmem, hrow'.1.trans hsame.1, hrow'.2.trans hsame.2⟩
  known := by
    intro row' hmem
    obtain ⟨row, hrow, hrow', hor⟩ := h.known row' hmem
    by_cases hid : row.invocationId = old.invocationId
    · obtain rfl := hunique row hrow hid
      exact ⟨new, (hthere new).2 (.inr rfl), ⟨hrow'.1.trans hsame.1, hrow'.2.trans hsame.2⟩,
        .inr hsince⟩
    · exact ⟨row, (hthere row).2 (.inl ⟨hrow, hid⟩), hrow', hor⟩
  once := h.once

theorem mem_main : row ∈ (main now view).rows ↔ row ∈ view ∧
    isReported (main now view).startTime (main now view).endTime row := by
  simp only [main, List.mem_mergeSort, List.mem_filter]

/-- A report is faithful when it is made. -/
theorem faithful_main (hview : (view.map fun row => row.invocationId).Nodup) :
    Faithful (· ∈ view) (main now view) where
  settled row hrow _ := by rw [mem_main, and_iff_right hrow]
  started row hrow hfrom hto := by
    refine ⟨row, mem_main.2 ⟨hrow, ?_⟩, rfl, rfl⟩
    simp [isReported, hfrom, hto]
  known row hmem := ⟨row, (mem_main.1 hmem).1, ⟨rfl, rfl⟩, .inl rfl⟩
  once := by
    have hperm := (List.mergeSort_perm (view.filter (isReported
      (hourLength * (now / hourLength) - hourLength) (hourLength * (now / hourLength))))
      fun row row' => decide (row.startedAt ≤ row'.startedAt)).map fun row => row.invocationId
    exact hperm.nodup_iff.2 (hview.sublist (List.filter_sublist.map _))

theorem endTime_main_le : (main now view).endTime ≤ now := Nat.mul_div_le now hourLength

end Steps

/-! ## The system -/

/-- The row of an invocation. -/
def There (t : InvocationTable.State) (row : InvocationRow) : Prop :=
  ∃ e, t.get? row.invocationId = some e ∧ e.row = row

/-- **The invariant**: the partitions stand for a table, and every report is
faithful to it. -/
def Inv (s : State) : Prop :=
  ∃ t, Refines s.store t ∧
    ∀ report ∈ s.reports, report.endTime ≤ s.clock ∧ Faithful (There t) report

section System

variable {s s' : State} {t t' : InvocationTable.State} {a : Action} {row : InvocationRow}

theorem mem_view (h : Refines s.store t) : row ∈ s.store.view ↔ There t row := by
  rw [h.view_perm.mem_iff, List.mem_map]
  constructor
  · rintro ⟨e, hvalue, rfl⟩
    obtain ⟨id, hget⟩ := Dict.mem_values.1 hvalue
    exact ⟨e, by rw [h.keyed id e hget, hget], rfl⟩
  · rintro ⟨e, hget, rfl⟩
    exact ⟨e, Dict.mem_values.2 ⟨_, hget⟩, rfl⟩

theorem nodup_view (h : Refines s.store t) :
    (s.store.view.map fun row => row.invocationId).Nodup := by
  have hperm := h.view_perm.map fun row => row.invocationId
  rw [List.map_map] at hperm
  have hkeys : t.values.map ((fun row => row.invocationId) ∘ fun e => e.row) = t.keys := by
    unfold Dict.values Dict.keys
    rw [List.map_map]
    refine List.map_congr_left fun p hp => ?_
    exact h.keyed p.1 p.2 (Dict.get?_eq_some.2 hp)
  exact hperm.nodup_iff.2 (hkeys ▸ t.nodup_keys)

/-- A write into a row, seen from the table. -/
theorem there_set {id : String} {x : InvocationTable.Entry} (hid : x.row.invocationId = id) :
    There (t.set id x) row ↔ There t row ∧ row.invocationId ≠ id ∨ row = x.row := by
  unfold There
  rw [Dict.get?_set]
  split
  · next heq =>
    simp only [Option.some.injEq, exists_eq_left', heq, ne_eq, not_true_eq_false, and_false,
      false_or, eq_comm]
  · next hne =>
    have hrow : row ≠ x.row := by
      rintro rfl
      exact hne hid
    simp only [hne, ne_eq, not_false_eq_true, and_true, hrow, or_false]

/-- A statement of an attempt that is known: its row is another one, completed
now. -/
theorem Inv.write {store : WeekPartition.State} {id : String} {e : InvocationTable.Entry}
    {new : InvocationRow}
    {units : Option ℚ} (ht : Refines s.store t)
    (hreports : ∀ report ∈ s.reports, report.endTime ≤ s.clock ∧ Faithful (There t) report)
    (hget : t.get? id = some e) (hrel : Refines store (t.set id ⟨new, units⟩))
    (hsame : Same e.row new) (hnew : new.completedAt = some s.clock) :
    Inv { s with store := store } := by
  have hid := ht.keyed id e hget
  have hold : There t e.row := ⟨e, by rw [hid, hget], rfl⟩
  have hnewId : new.invocationId = id := (congrArg Tracked.invocationId hsame.1).symm.trans hid
  refine ⟨_, hrel, fun report hmem => ⟨(hreports report hmem).1, ?_⟩⟩
  refine (hreports report hmem).2.write hold hsame ⟨s.clock, hnew, (hreports report hmem).1⟩ ?_ ?_
  · rintro row ⟨e', hget', rfl⟩ heq
    rw [heq, hid, hget] at hget'
    rw [Option.some.inj hget']
  · intro row
    rw [hid]
    exact there_set (x := ⟨new, units⟩) hnewId

theorem Inv.step (h : Inv s) (hs : s.step a = some s') : Inv s' := by
  obtain ⟨t, ht, hreports⟩ := h
  cases a with
  | tick d =>
    obtain rfl := Option.some.inj hs
    refine ⟨t, ht, fun report hmem => ⟨?_, (hreports report hmem).2⟩⟩
    have := (hreports report hmem).1
    show report.endTime ≤ s.clock + d
    omega
  | track args =>
    obtain ⟨store, hstore, rfl⟩ := Option.map_eq_some_iff.1 hs
    have hrel := ht.step (.track args s.clock)
    simp only [WeekPartition.State.step, hstore, InvocationTable.step] at hrel
    split at hrel
    · cases hrel
    · next hfresh =>
      cases hrel with
      | some hrel =>
        have hnone := Dict.get?_eq_none.2 hfresh
        have hnew : ∀ row, There t row → row.invocationId ≠ args.invocationId := by
          rintro row ⟨e, hget, rfl⟩ heq
          rw [heq, hnone] at hget
          cases hget
        refine ⟨_, hrel, fun report hmem => ⟨(hreports report hmem).1, ?_⟩⟩
        have hend :
            report.endTime ≤ ({ args with startedAt := s.clock } : InvocationRow).startedAt :=
          (hreports report hmem).1
        refine (hreports report hmem).2.track hend rfl hnew fun row => ?_
        have hthere :
            There (t.set args.invocationId ⟨{ args with startedAt := s.clock }, none⟩) row ↔
            _ := there_set rfl
        exact hthere.trans (or_congr_left (and_iff_left_of_imp (hnew row)))
  | complete id bounty metrics =>
    obtain ⟨store, hstore, rfl⟩ := Option.map_eq_some_iff.1 hs
    have hrel := ht.step (.complete id bounty metrics s.clock)
    simp only [WeekPartition.State.step, hstore, InvocationTable.step] at hrel
    cases hget : t.get? id with
    | none =>
      rw [hget] at hrel
      cases hrel
    | some e =>
      rw [hget, Option.map_some] at hrel
      cases hrel with
      | some hrel => exact Inv.write ht hreports hget hrel ⟨rfl, rfl⟩ rfl
  | fail id message =>
    obtain ⟨store, hstore, rfl⟩ := Option.map_eq_some_iff.1 hs
    have hrel := ht.step (.fail id message s.clock)
    simp only [WeekPartition.State.step, hstore, InvocationTable.step] at hrel
    cases hget : t.get? id with
    | none =>
      rw [hget] at hrel
      cases hrel
    | some e =>
      rw [hget, Option.map_some] at hrel
      cases hrel with
      | some hrel => exact Inv.write ht hreports hget hrel ⟨rfl, rfl⟩ rfl
  | report =>
    obtain rfl := Option.some.inj hs
    refine ⟨t, ht, fun report hmem => ?_⟩
    rcases List.mem_cons.1 hmem with rfl | hmem
    · exact ⟨endTime_main_le, (faithful_main (nodup_view ht)).congr fun row => mem_view ht⟩
    · exact hreports report hmem

/-- **Every export is faithful to the invocations**, in every state that is
reached: whenever it was made, and whatever has been written since. -/
theorem exported {as : List Action} (h : system.Run as s) :
    ∀ report ∈ s.reports, Faithful (· ∈ s.store.view) report := by
  have hinv : Inv s := by
    refine h.invariant (fun start h0 => ?_) fun _ _ _ hi _ hs => hi.step hs
    obtain ⟨hstore, hreports⟩ := h0
    refine ⟨.empty, hstore ▸ refines_initial, fun report hmem => ?_⟩
    rw [hreports] at hmem
    cases hmem
  obtain ⟨t, ht, hreports⟩ := hinv
  intro report hmem
  exact (hreports report hmem).2.congr fun row => (mem_view ht).symm

/-- An invocation of ten minutes, within an hour. -/
private def hour : List Action :=
  [.track ⟨"p", "a", "c", "o", "f", "u", "m", "o", "i", 1, "5A", 2⟩, .tick (10 * 60 * 1000000),
    .complete "a" 0 "null", .tick hourLength, .report]

private def midnight : State := ⟨0, .initial, []⟩

private def exportedOnce : State := (system.exec midnight hour).getD midnight

theorem exported_hour :
    (∀ report ∈ exportedOnce.reports, Faithful (· ∈ exportedOnce.store.view) report) ∧
    exportedOnce.reports.map (fun report => report.rows.map fun row => row.invocationId) =
      [["a"]] :=
  ⟨exported (Lts.run_getD_exec ⟨rfl, rfl⟩ (by decide +kernel)), by decide +kernel⟩

/-- An invocation that takes longer than a day and an hour is not in the export of
the hour in which it completes. -/
example : ((system.exec midnight [.track ⟨"p", "a", "c", "o", "f", "u", "m", "o", "i", 1, "5A", 2⟩,
    .tick (26 * hourLength), .complete "a" 0 "null", .tick hourLength, .report]).getD
      midnight).reports.map (fun report => report.rows.length) = [0] := by
  decide +kernel

end System

end Export

end ChutesApi
