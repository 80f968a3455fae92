import ChutesApi.Watchtower.Model.Pass
import ChutesApi.Watchtower.Weights
import Mathlib.Data.List.Count
/-!
# The stages of a pass

What each stage of a pass leaves in the ledger, where it goes through and
where it raises. The check of the dumps purges those that fail, up to a dump
whose check raises; the hard failures are purged up to the first list among
them; the soft ones are counted, and purged from the second on.
-/

namespace ChutesApi

namespace Watchtower

open Python

variable {α β : Type} {l l' : Ledger}

/-! ## Sequences -/

theorem watch_bind_ok {x : Watch α} {a : α} (k : α → Watch β) (h : x l = .ok a l') :
    (x >>= k) l = k a l' := by
  simp [bind, EStateM.bind, h]

theorem watch_bind_error {x : Watch α} {e : Exc} (k : α → Watch β) (h : x l = .error e l') :
    (x >>= k) l = .error e l' := by
  simp [bind, EStateM.bind, h]

theorem attempt_ok (a : α) (l : Ledger) : attempt (.ok a) l = .ok a l := rfl

theorem attempt_error (e : Exc) (l : Ledger) :
    attempt (.error e : Except Exc α) l = .error e l := rfl

theorem watch_forM_cons (f : α → Watch Unit) (a : α) (as : List α) (l : Ledger) :
    (a :: as).forM f l = (f a >>= fun _ => as.forM f) l := rfl

/-! ## The dumps -/

/-- A dump whose check comes to this. -/
def DumpOf (failed : Except Exc Bool) (dump : Option Dump) : Prop :=
  ∃ d, dump = some d ∧ d.failed = failed

/-- Those that fail. -/
def badDumps (dumps : List (Instance × Option Dump)) : List String :=
  (dumps.filter fun p =>
    match p.2 with
    | none => false
    | some d =>
      match d.failed with
      | .ok failed => failed
      | .error _ => false).map fun p => p.1.instanceId

/-- Where no dump raises, those that fail are purged. -/
theorem checkDumps_eq {dumps : List (Instance × Option Dump)}
    (h : ∀ p ∈ dumps, ∀ e, ¬ DumpOf (.error e) p.2) (l : Ledger) :
    checkDumps dumps l = .ok (badDumps dumps) { l with purged := l.purged ++ badDumps dumps } := by
  induction dumps generalizing l with
  | nil => simp [checkDumps, badDumps, pure, EStateM.pure]
  | cons p dumps ih =>
    have hrest := ih fun q hq => h q (List.mem_cons_of_mem _ hq)
    obtain ⟨inst, dump⟩ := p
    cases dump with
    | none => exact hrest l
    | some d =>
      unfold checkDumps
      cases hfailed : d.failed with
      | error e => exact absurd ⟨d, rfl, hfailed⟩ (h _ (List.mem_cons_self ..) e)
      | ok failed =>
        rw [watch_bind_ok _ (attempt_ok failed l)]
        cases failed with
        | false =>
          simp only [Bool.false_eq_true, if_false, hrest, badDumps, List.filter_cons, hfailed]
        | true =>
          have hpurge : purgeAndNotify inst l =
              .ok () { l with purged := l.purged ++ [inst.instanceId] } := rfl
          simp only [if_true]
          rw [watch_bind_ok _ hpurge, watch_bind_ok _ (hrest _)]
          simp [badDumps, hfailed, pure, EStateM.pure]

/-- One that raises ends the pass, with those purged that fail before it. -/
theorem checkDumps_raises {dumps : List (Instance × Option Dump)} {e : Exc}
    {p : Instance × Option Dump} (hp : p ∈ dumps) (hraises : DumpOf (.error e) p.2) (l : Ledger) :
    ∃ before inst dump after e', dumps = before ++ (inst, dump) :: after ∧
      DumpOf (.error e') dump ∧
        checkDumps dumps l = .error e' { l with purged := l.purged ++ badDumps before } := by
  induction dumps generalizing l with
  | nil => cases hp
  | cons q dumps ih =>
    obtain ⟨inst, dump⟩ := q
    by_cases hq : ∃ e', DumpOf (.error e') dump
    -- the first one raises
    · obtain ⟨e', d, rfl, hfailed⟩ := hq
      refine ⟨[], inst, some d, dumps, e', rfl, ⟨d, rfl, hfailed⟩, ?_⟩
      unfold checkDumps
      rw [hfailed, watch_bind_error _ (attempt_error e' l)]
      simp [badDumps]
    -- one further on does
    · have hmem : p ∈ dumps := by
        rcases List.mem_cons.1 hp with rfl | hmem
        · exact absurd ⟨e, hraises⟩ hq
        · exact hmem
      cases dump with
      | none =>
        obtain ⟨before, inst', dump', after, e', rfl, hraises', hrun⟩ := ih hmem l
        refine ⟨(inst, none) :: before, inst', dump', after, e', rfl, hraises', ?_⟩
        exact hrun
      | some d =>
        cases hfailed : d.failed with
        | error e' => exact absurd ⟨e', d, rfl, hfailed⟩ hq
        | ok failed =>
          cases failed with
          | false =>
            obtain ⟨before, inst', dump', after, e', rfl, hraises', hrun⟩ := ih hmem l
            refine ⟨(inst, some d) :: before, inst', dump', after, e', rfl, hraises', ?_⟩
            unfold checkDumps
            rw [hfailed, watch_bind_ok _ (attempt_ok false l)]
            simp only [Bool.false_eq_true, if_false, hrun, badDumps, List.filter_cons, hfailed]
          | true =>
            have hpurge : purgeAndNotify inst l =
                .ok () { l with purged := l.purged ++ [inst.instanceId] } := rfl
            obtain ⟨before, inst', dump', after, e', rfl, hraises', hrun⟩ := ih hmem
              { l with purged := l.purged ++ [inst.instanceId] }
            refine ⟨(inst, some d) :: before, inst', dump', after, e', rfl, hraises', ?_⟩
            unfold checkDumps
            rw [hfailed, watch_bind_ok _ (attempt_ok true l)]
            simp only [if_true]
            rw [watch_bind_ok _ hpurge, watch_bind_error _ hrun]
            simp [badDumps, hfailed]

/-! ## The hard failures -/

theorem forM_purgeEntry (hard : List Instance) (l : Ledger) :
    (hard.map Entry.one).forM purgeEntry l =
      .ok () { l with purged := l.purged ++ hard.map Instance.instanceId } := by
  induction hard generalizing l with
  | nil => simp [pure, EStateM.pure]
  | cons inst hard ih =>
    have hpurge : purgeEntry (.one inst) l =
        .ok () { l with purged := l.purged ++ [inst.instanceId] } := rfl
    rw [List.map_cons, watch_forM_cons, watch_bind_ok _ hpurge, ih]
    simp

/-- A list among them ends the pass, with those before it purged. -/
theorem forM_purgeEntry_many (hard instances : List Instance) (rest : List Entry) (l : Ledger) :
    (hard.map Entry.one ++ .many instances :: rest).forM purgeEntry l =
      .error (.raised .attributeError)
        { l with purged := l.purged ++ hard.map Instance.instanceId } := by
  induction hard generalizing l with
  | nil =>
    have hraise : purgeEntry (.many instances) l = .error (.raised .attributeError) l := rfl
    rw [List.map_nil, List.nil_append, watch_forM_cons, watch_bind_error _ hraise, List.map_nil,
      List.append_nil]
  | cons inst hard ih =>
    have hpurge : purgeEntry (.one inst) l =
        .ok () { l with purged := l.purged ++ [inst.instanceId] } := rfl
    rw [List.map_cons, List.cons_append, watch_forM_cons, watch_bind_ok _ hpurge, ih]
    simp

/-! ## The soft failures -/

/-- Soft failures are counted, and purged from the second on. -/
structure SoftlyFailed (ids : List String) (l l' : Ledger) : Prop where
  failCounts : ∀ id, l'.failCounts id = l.failCounts id + ids.count id
  purged : ∀ id, id ∈ l'.purged ↔
    id ∈ l.purged ∨ (id ∈ ids ∧ 2 ≤ l.failCounts id + ids.count id)
  softFails : l'.softFails = l.softFails ++ ids
  verified : l'.verified = l.verified

/-- The count and the alarm come first, the purge after them. -/
theorem incrementSoftFail_apply (inst : Instance) (l : Ledger) :
    incrementSoftFail inst l =
      (if 2 ≤ l.failCounts inst.instanceId + 1 then purgeAndNotify inst else pure ())
        { l with
          failCounts := Function.update l.failCounts inst.instanceId
            (l.failCounts inst.instanceId + 1)
          softFails := l.softFails ++ [inst.instanceId] } := rfl

theorem incrementSoftFail_eq (inst : Instance) (l : Ledger) :
    ∃ l', incrementSoftFail inst l = .ok () l' ∧ SoftlyFailed [inst.instanceId] l l' := by
  have hcount : ∀ id, Function.update l.failCounts inst.instanceId
      (l.failCounts inst.instanceId + 1) id = l.failCounts id + [inst.instanceId].count id := by
    intro id
    by_cases hid : id = inst.instanceId
    · subst hid
      simp
    · rw [Function.update_of_ne hid, List.count_eq_zero_of_not_mem (by simpa using hid)]
      rfl
  by_cases htwo : 2 ≤ l.failCounts inst.instanceId + 1
  · refine ⟨{ l with
      failCounts := Function.update l.failCounts inst.instanceId
        (l.failCounts inst.instanceId + 1)
      softFails := l.softFails ++ [inst.instanceId]
      purged := l.purged ++ [inst.instanceId] }, ?_, hcount, fun id => ?_, rfl, rfl⟩
    · rw [incrementSoftFail_apply, if_pos htwo]
      rfl
    · simp only [List.mem_append, List.mem_singleton]
      refine or_congr Iff.rfl ⟨fun hid => ⟨hid, ?_⟩, And.left⟩
      subst hid
      simpa using htwo
  · refine ⟨{ l with
      failCounts := Function.update l.failCounts inst.instanceId
        (l.failCounts inst.instanceId + 1)
      softFails := l.softFails ++ [inst.instanceId] }, ?_, hcount, fun id => ?_, rfl, rfl⟩
    · rw [incrementSoftFail_apply, if_neg htwo]
      rfl
    · refine ⟨Or.inl, fun hid => hid.resolve_right fun hagain => absurd ?_ htwo⟩
      obtain ⟨hid, hle⟩ := hagain
      rw [List.mem_singleton] at hid
      subst hid
      simpa using hle

theorem SoftlyFailed.trans {ids ids' : List String} {l'' : Ledger} (h : SoftlyFailed ids l l')
    (h' : SoftlyFailed ids' l' l'') : SoftlyFailed (ids ++ ids') l l'' where
  failCounts id := by
    rw [h'.failCounts, h.failCounts, List.count_append, Nat.add_assoc]
  purged id := by
    rw [h'.purged, h.purged, h.failCounts, List.count_append, List.mem_append]
    -- those of the second part are counted on top of the first
    have hpos : id ∈ ids' ↔ 0 < ids'.count id := List.count_pos_iff.symm
    have hpos' : id ∈ ids ↔ 0 < ids.count id := List.count_pos_iff.symm
    rw [hpos, hpos', or_assoc]
    refine or_congr Iff.rfl ?_
    omega
  softFails := by rw [h'.softFails, h.softFails, List.append_assoc]
  verified := by rw [h'.verified, h.verified]

theorem forM_incrementSoftFail (soft : List Instance) (l : Ledger) :
    ∃ l', soft.forM incrementSoftFail l = .ok () l' ∧
      SoftlyFailed (soft.map Instance.instanceId) l l' := by
  induction soft generalizing l with
  | nil =>
    refine ⟨l, rfl, fun id => rfl, fun id => ?_, by simp, rfl⟩
    simp
  | cons inst soft ih =>
    obtain ⟨l', hrun, h⟩ := incrementSoftFail_eq inst l
    obtain ⟨l'', hrun', h'⟩ := ih l'
    refine ⟨l'', ?_, h.trans h'⟩
    rw [watch_forM_cons, watch_bind_ok _ hrun, hrun']

/-! ## What follows the checks -/

/-- **The end of a pass** whose hard failures are flat. -/
theorem conclude_eq (instances hard soft : List Instance) (l : Ledger) :
    ∃ l', Round.conclude instances ⟨hard.map .one, soft⟩ l = .ok () l' ∧
      (∀ id, id ∈ l'.purged ↔ id ∈ l.purged ∨ id ∈ hard.map Instance.instanceId ∨
        (id ∈ soft.map Instance.instanceId ∧
          2 ≤ l.failCounts id + (soft.map Instance.instanceId).count id)) ∧
      l'.softFails = l.softFails ++ soft.map Instance.instanceId ∧
      l'.verified = l.verified ++ ((instances.filter fun inst => inst ∉ soft && inst ∉ hard).map
        Instance.instanceId).filter (· ∉ l'.purged) := by
  obtain ⟨l', hrun, h⟩ := forM_incrementSoftFail soft
    { l with purged := l.purged ++ hard.map Instance.instanceId }
  have hmem : ∀ inst, Entry.one inst ∈ hard.map Entry.one ↔ inst ∈ hard := by
    intro inst
    simp
  refine ⟨{ l' with verified := l'.verified ++ ((instances.filter fun inst =>
    inst ∉ soft && inst ∉ hard).map Instance.instanceId).filter (· ∉ l'.purged) }, ?_,
    fun id => ?_, h.softFails, ?_⟩
  · unfold Round.conclude
    rw [watch_bind_ok _ (forM_purgeEntry hard l), watch_bind_ok _ hrun]
    simp only [hmem]
    rfl
  · simp only [h.purged, List.mem_append, or_assoc]
  · simp only [h.verified]

/-- One with a list among them. -/
theorem conclude_many (instances hard many soft : List Instance) (rest : List Entry) (l : Ledger) :
    Round.conclude instances ⟨hard.map .one ++ .many many :: rest, soft⟩ l =
      .error (.raised .attributeError)
        { l with purged := l.purged ++ hard.map Instance.instanceId } :=
  watch_bind_error _ (forM_purgeEntry_many hard many rest l)

end Watchtower

end ChutesApi
