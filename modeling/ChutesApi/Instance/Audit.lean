import ChutesApi.Common.Session
import ChutesApi.Common.Span
import ChutesApi.Instance.EffectiveBalance
import ChutesApi.Instance.Model.Audit
import ChutesApi.Job.Lifecycle
/-!
# The miners are credited what the users are billed for

The audit has the last row of every instance, live or deleted, as far as the
query for the miners' credit reads it: the query over the audit is the one
over these rows (`credited`). So what a miner is credited for an instance,
once a window covers it, are the seconds that its user is billed for
(`credited_as_billed`).

Both hold of the runs in which no handler activates an instance that another
one has just activated. The second activation is written into the row, and
not into the audit: the example at the end is of a user who pays for less
than the miner is credited.
-/

namespace ChutesApi

namespace Audit

/-! ## What the query counts of a row -/

/-- `LEAST(COALESCE(stop_billing_at, now), now)`, at the deletion or, of a row
that is live, at the query. -/
def Row.billedUntil (row : Row) (now : ℚ) : ℚ := min (row.stopBillingAt.getD now) now

/-- **What a row is worth to a miner** in a window of time, with its
multiplier: if it is the miner's and a user is billed for it, the part of the
time from its activation to `billedUntil` in the window, where there is any. -/
def Row.credit (now interval : ℚ) (minerHotkey : String) (row : Row) (until' : ℚ) :
    Option (ℚ × ℚ) :=
  if row.minerHotkey = minerHotkey ∧ row.billedTo.isSome then
    row.activatedAt.bind fun activatedAt =>
      let seconds := overlap (now - interval) now activatedAt until'
      if 0 < seconds then some (seconds, row.computeMultiplier) else none
  else none

/-- What the query makes of a row of the audit. -/
def Entry.credit (now interval : ℚ) (minerHotkey : String) (e : Entry) : Option (ℚ × ℚ) :=
  ((e.billedInstance now interval).filter fun span =>
      e.minerHotkey = minerHotkey ∧ span.1 < span.2).map fun span =>
    (span.2 - span.1, e.computeMultiplier)

/-- The end of a span in the query, but for the query's time. -/
def Entry.endsAt (now : ℚ) (e : Entry) : ℚ := min (e.stopBillingAt.getD now) (e.deletedAt.getD now)

namespace State

variable (s : State) (id : String)

/-- The last row of an instance, and the time until which it is looked at. -/
def last (now : ℚ) : Option (Row × ℚ) :=
  match s.row id with
  | some row => some (row, now)
  | none => s.ended id

/-- **The credit over the rows themselves**, of all instances there ever
were. -/
def credit (now interval : ℚ) (minerHotkey : String) : Option Credit :=
  aggregate (s.audit.keys.filterMap fun id =>
    (s.last id now).bind fun p => p.1.credit now interval minerHotkey (p.1.billedUntil p.2))

end State

section Query

variable {now interval d : ℚ} {minerHotkey : String} {row : Row} {e : Entry} {p : ℚ × ℚ}

theorem Row.credit_eq_some {until' : ℚ} :
    row.credit now interval minerHotkey until' = some p ↔
      row.minerHotkey = minerHotkey ∧ row.billedTo.isSome ∧ ∃ activatedAt ∈ row.activatedAt,
        0 < overlap (now - interval) now activatedAt until' ∧
          p = (overlap (now - interval) now activatedAt until', row.computeMultiplier) := by
  simp only [credit, Option.ite_none_right_eq_some, Option.bind_eq_some_iff, Option.some.injEq,
    and_assoc, Option.mem_def, eq_comm (a := p)]

/-- **The query's conditions leave out no second**: a span that passes for
one that stopped too early would be empty anyway. -/
theorem Entry.credit_eq_some : e.credit now interval minerHotkey = some p ↔
    e.minerHotkey = minerHotkey ∧ e.billedTo.isSome ∧ ∃ activatedAt ∈ e.activatedAt,
      0 < overlap (now - interval) now activatedAt (e.endsAt now) ∧
        p = (overlap (now - interval) now activatedAt (e.endsAt now), e.computeMultiplier) := by
  unfold Entry.credit Entry.billedInstance
  cases hbilled : e.billedTo with
  | none => simp
  | some userId =>
    cases hactivated : e.activatedAt with
    | none => simp
    | some activatedAt =>
      have hend : min (min (e.stopBillingAt.getD now) (e.deletedAt.getD now)) now =
          min now (e.endsAt now) := min_comm _ _
      have hstart : max activatedAt (now - interval) = max (now - interval) activatedAt :=
        max_comm _ _
      simp only [hend, hstart, Option.isSome_some, true_and, Option.mem_def, Option.some.injEq,
        exists_eq_left', overlap_pos_iff]
      by_cases hmeet : max (now - interval) activatedAt < min now (e.endsAt now)
      · -- The span is not empty, so its stop is not before the window.
        have hstop : e.stopBillingAt = none ∨
            ∃ stop, e.stopBillingAt = some stop ∧ now - interval ≤ stop := by
          cases hs : e.stopBillingAt with
          | none => exact .inl rfl
          | some stop =>
            refine .inr ⟨stop, rfl, ?_⟩
            have hle : e.endsAt now ≤ stop := by
              unfold Entry.endsAt
              rw [hs]
              exact min_le_left _ _
            have h1 := le_max_left (now - interval) activatedAt
            have h2 := min_le_right now (e.endsAt now)
            linarith
        rw [if_pos hstop, overlap_of_lt hmeet]
        simp [Option.filter, hmeet, eq_comm]
      · split
        · simp [Option.filter, hmeet]
        · simp [hmeet]

end Query

/-! ## The audit and the rows -/

/-- A row of the audit is that of a live instance. -/
structure Mirrors (row : Row) (e : Entry) : Prop where
  chuteId : e.chuteId = row.chuteId
  minerHotkey : e.minerHotkey = row.minerHotkey
  computeMultiplier : e.computeMultiplier = row.computeMultiplier
  hourlyRate : e.hourlyRate = row.hourlyRate
  billedTo : e.billedTo = row.billedTo
  activatedAt : e.activatedAt = row.activatedAt
  stopBillingAt : e.stopBillingAt = row.stopBillingAt
  deletedAt : e.deletedAt = none
  /-- What no trigger looks at: an instance is active from its activation. -/
  active : row.activatedAt.isSome → row.active

/-- A row of the audit is that of an instance deleted at `now`, whose last row
was `old`. -/
structure Closed (old : Row) (now : ℚ) (e : Entry) : Prop where
  chuteId : e.chuteId = old.chuteId
  minerHotkey : e.minerHotkey = old.minerHotkey
  computeMultiplier : e.computeMultiplier = old.computeMultiplier
  hourlyRate : e.hourlyRate = old.hourlyRate
  billedTo : e.billedTo = old.billedTo
  activatedAt : e.activatedAt = old.activatedAt
  deletedAt : e.deletedAt = some now
  stopBillingAt : old.billedTo.isSome → e.stopBillingAt = old.stopBillingAt.map (min · now)

/-- **The audit of an instance agrees with what became of it.** -/
inductive Agrees : Option Row → Option Entry → Option (Row × ℚ) → Prop
  | unknown : Agrees none none none
  | live {row : Row} {e : Entry} : Mirrors row e → Agrees (some row) (some e) none
  | deleted {old : Row} {now : ℚ} {e : Entry} :
      Closed old now e → Agrees none (some e) (some (old, now))

/-- The audit of every instance agrees with it. -/
def Inv (s : State) : Prop := ∀ id, Agrees (s.row id) (s.audit.get? id) (s.ended id)

/-- **No second activation**: a handler commits its activation of an instance
that is still inactive. -/
def Unraced (s : State) : Action → Prop
  | .activate id _ _ => (s.row id).all (fun row => !row.active) = true
  | _ => True

instance (s : State) (a : Action) : Decidable (Unraced s a) :=
  match a with
  | .activate id _ _ => inferInstanceAs (Decidable ((s.row id).all (fun row => !row.active) = true))
  | .claim _ _ _ | .load _ | .extend _ _ _ | .verify _ _ | .setReason _ _ | .delete _ _ _
  | .others _ _ _ _ _ => isTrue trivial

/-! ## The triggers keep them in agreement -/

section Triggers

variable {row old new : Row} {e : Entry} {now : ℚ}

theorem mirrors_insert {args : ClaimArgs} : Mirrors args.row (.insert now args.version args.row) :=
  ⟨rfl, rfl, rfl, rfl, rfl, rfl, rfl, rfl, fun h => absurd h (by simp [ClaimArgs.row])⟩

/-- **`fn_instance_audit_update`**, where the columns that are set once are set
in a row that has none. -/
theorem Mirrors.update (h : Mirrors old e) (hchute : new.chuteId = old.chuteId)
    (hhotkey : new.minerHotkey = old.minerHotkey)
    (hmultiplier : new.computeMultiplier = old.computeMultiplier)
    (hbilled : new.billedTo = old.billedTo)
    (hactivated : new.activatedAt = old.activatedAt ∨ old.activatedAt = none)
    (hactive : new.activatedAt.isSome → new.active) : Mirrors new (e.update old new) where
  chuteId := h.chuteId.trans hchute.symm
  minerHotkey := h.minerHotkey.trans hhotkey.symm
  computeMultiplier := h.computeMultiplier.trans hmultiplier.symm
  hourlyRate := by
    show (if new.hourlyRate ≠ old.hourlyRate then new.hourlyRate else e.hourlyRate) = _
    split
    · rfl
    · next heq => exact h.hourlyRate.trans (not_not.1 heq).symm
  billedTo := by
    show (if new.billedTo ≠ old.billedTo ∧ _ then new.billedTo else e.billedTo) = _
    rw [if_neg fun hne => hne.1 hbilled]
    exact h.billedTo.trans hbilled.symm
  activatedAt := by
    show (if new.activatedAt.isSome ∧ old.activatedAt = none then
      e.activatedAt.or new.activatedAt else e.activatedAt) = _
    rcases hactivated with heq | hnone
    · rw [if_neg]
      · exact h.activatedAt.trans heq.symm
      · rintro ⟨hsome, hnone⟩
        rw [heq, hnone] at hsome
        cases hsome
    · have hentry : e.activatedAt = none := h.activatedAt.trans hnone
      rw [hentry, Option.none_or]
      split
      · rfl
      · next hno => exact (Option.not_isSome_iff_eq_none.1 fun hsome => hno ⟨hsome, hnone⟩).symm
  stopBillingAt := by
    show (if new.stopBillingAt ≠ old.stopBillingAt then
      new.stopBillingAt else e.stopBillingAt) = _
    split
    · rfl
    · next heq => exact h.stopBillingAt.trans (not_not.1 heq).symm
  deletedAt := h.deletedAt
  active := hactive

theorem Mirrors.delete (h : Mirrors old e) : Closed old now (e.delete now old.toInstance) where
  chuteId := h.chuteId
  minerHotkey := h.minerHotkey
  computeMultiplier := h.computeMultiplier
  hourlyRate := h.hourlyRate
  billedTo := h.billedTo
  activatedAt := h.activatedAt
  deletedAt := by
    unfold Entry.delete
    rw [h.deletedAt, Option.none_or]
  stopBillingAt := by
    intro hbilled
    obtain ⟨userId, huser⟩ := Option.isSome_iff_exists.1 hbilled
    unfold Entry.delete
    rw [huser, h.stopBillingAt]
    cases old.stopBillingAt with
    | none => rfl
    | some stop =>
      simp only [Option.map_some, Option.some.injEq]
      split
      · next hlt => exact (min_eq_right hlt.le).symm
      · next hle => exact (min_eq_left (not_lt.1 hle)).symm

/-- A reason is written into the audit alone. -/
theorem Agrees.setReason {r : Option Row} {o : Option Entry} {x : Option (Row × ℚ)}
    {reason : String}
    (h : Agrees r o x) : Agrees r (o.map fun e => { e with deletionReason := some reason }) x := by
  cases h with
  | unknown => exact .unknown
  | live hm => exact .live ⟨hm.chuteId, hm.minerHotkey, hm.computeMultiplier, hm.hourlyRate,
      hm.billedTo, hm.activatedAt, hm.stopBillingAt, hm.deletedAt, hm.active⟩
  | deleted hc => exact .deleted ⟨hc.chuteId, hc.minerHotkey, hc.computeMultiplier, hc.hourlyRate,
      hc.billedTo, hc.activatedAt, hc.deletedAt, hc.stopBillingAt⟩

/-- What is deleted has no row, and is in the audit. -/
theorem Agrees.of_ended {r : Option Row} {o : Option Entry} {p : Row × ℚ}
    (h : Agrees r o (some p)) :
    r = none ∧ ∃ e, o = some e := by
  cases h with
  | deleted _ => exact ⟨rfl, _, rfl⟩

/-- **The query finds what the last row says**, of a live instance and of one
that is deleted. -/
theorem Agrees.credit {r : Option Row} {x : Option (Row × ℚ)} {t interval : ℚ}
    {minerHotkey : String}
    (h : Agrees r (some e) x) : e.credit t interval minerHotkey =
      (r.elim x fun row => some (row, t)).bind fun p =>
        p.1.credit t interval minerHotkey (p.1.billedUntil p.2) := by
  -- Both count the same seconds, in the window's part of what comes after the activation.
  have key : ∀ (last : Row) (d : ℚ), e.minerHotkey = last.minerHotkey → e.billedTo = last.billedTo →
      e.activatedAt = last.activatedAt → e.computeMultiplier = last.computeMultiplier →
      (last.billedTo.isSome → min t (e.endsAt t) = min t (last.billedUntil d)) →
      e.credit t interval minerHotkey =
        last.credit t interval minerHotkey (last.billedUntil d) := by
    intro last d hhotkey hbilled hactivated hmultiplier hend
    refine Option.ext fun p => ?_
    rw [Entry.credit_eq_some, Row.credit_eq_some, hhotkey, hbilled, hactivated, hmultiplier]
    refine and_congr_right fun _ => and_congr_right fun hsome => ?_
    simp only [overlap, hend hsome]
  cases h with
  | live hm =>
    refine key _ _ hm.minerHotkey hm.billedTo hm.activatedAt hm.computeMultiplier fun _ => ?_
    rw [Entry.endsAt, hm.stopBillingAt, hm.deletedAt, Option.getD_none, Row.billedUntil]
  | deleted hc =>
    next old d =>
    refine key _ _ hc.minerHotkey hc.billedTo hc.activatedAt hc.computeMultiplier fun hsome => ?_
    rw [Entry.endsAt, hc.stopBillingAt hsome, hc.deletedAt, Option.getD_some, Row.billedUntil]
    cases old.stopBillingAt with
    | none => simp only [Option.map_none, Option.getD_none, min_self, ← min_assoc]
    | some stop => simp only [Option.map_some, Option.getD_some, min_assoc, min_self]

end Triggers

/-! ## One step -/

namespace State

variable {s s' : State} {id id' : String} {old row : Row} {f : Row → Row}

theorem row_eq_some : s.row id = some row ↔
    s.db.instances id = some row.toInstance ∧ s.columns id = some row.toColumns := by
  unfold State.row
  constructor
  · intro h
    split at h
    · next i c hi hc =>
      obtain rfl := Option.some.inj h
      exact ⟨hi, hc⟩
    · cases h
  · rintro ⟨hi, hc⟩
    rw [hi, hc]

theorem get?_writeAudit {g : Entry → Entry} : (s.writeAudit id g).get? id' =
    if id' = id then (s.audit.get? id).map g else s.audit.get? id' := by
  unfold State.writeAudit
  split
  · next e he => rw [Dict.get?_set, he, Option.map_some]
  · next hnone =>
    split
    · next heq => rw [heq, hnone, Option.map_none]
    · rfl

/-- A row put in place of what there was. -/
theorem row_put {new : Row}
    (hi : s'.db.instances = Function.update s.db.instances id (some new.toInstance))
    (hc : s'.columns = Function.update s.columns id (some new.toColumns)) :
    s'.row id' = if id' = id then some new else s.row id' := by
  by_cases heq : id' = id
  · simp only [State.row, hi, hc, heq, Function.update_self, if_true]
  · simp only [State.row, hi, hc, Function.update_of_ne heq, if_neg heq]

theorem row_delete (hi : s'.db.instances = Function.update s.db.instances id none)
    (hc : s'.columns = Function.update s.columns id none) :
    s'.row id' = if id' = id then none else s.row id' := by
  by_cases heq : id' = id
  · simp only [State.row, hi, hc, heq, Function.update_self, if_true]
  · simp only [State.row, hi, hc, Function.update_of_ne heq, if_neg heq]

end State

section Step

variable {s s' : State} {id : String} {old row : Row} {f : Row → Row}

/-- The instances that a step leaves alone stay in agreement. -/
theorem Inv.of_eq (h : Inv s) {r : Option Row} {o : Option Entry} {x : Option (Row × ℚ)}
    (hr : ∀ id', s'.row id' = if id' = id then r else s.row id')
    (ho : ∀ id', s'.audit.get? id' = if id' = id then o else s.audit.get? id')
    (hx : ∀ id', s'.ended id' = if id' = id then x else s.ended id') (hid : Agrees r o x) :
    Inv s' := by
  intro id'
  rw [hr, ho, hx]
  split
  · exact hid
  · exact h id'

/-- **An update of a live row**, and of its audit with it. -/
theorem Inv.update (h : Inv s)
    (hf : ∀ old e, s.row id = some old → Mirrors old e → Mirrors (f old) (e.update old (f old))) :
    Inv (s.update id f) := by
  cases hrow : s.row id with
  | none =>
    unfold State.update
    rw [hrow]
    exact h
  | some old =>
    have hupdate : s.update id f = { s with
        db := { s.db with instances := Function.update s.db.instances id (some (f old).toInstance) }
        columns := Function.update s.columns id (some (f old).toColumns)
        audit := s.writeAudit id (Entry.update old (f old)) } := by
      unfold State.update
      rw [hrow]
    have hid := h id
    rw [hrow] at hid
    cases hid' : s.audit.get? id with
    | none =>
      rw [hid'] at hid
      cases hid
    | some e =>
      rw [hid'] at hid
      generalize hended : s.ended id = x at hid
      cases hid with
      | live hm =>
        rw [hupdate]
        refine h.of_eq (fun _ => State.row_put rfl rfl) (fun _ => State.get?_writeAudit)
          (x := none) (fun id' => ?_) ?_
        · split
          · next heq => rw [heq]; exact hended
          · rfl
        · rw [hid', Option.map_some]
          exact .live (hf old e hrow hm)

theorem Inv.claim (h : Inv s) {args : ClaimArgs} {now : ℚ} (hs : s.claim id args now = some s') :
    Inv s' := by
  obtain ⟨hfree, hs⟩ := Option.ite_none_left_eq_some.1 hs
  obtain rfl := Option.some.inj hs
  rw [not_or, Option.not_isSome_iff_eq_none, Option.not_isSome_iff_eq_none] at hfree
  have hid := h id
  rw [hfree.1, hfree.2] at hid
  generalize hended : s.ended id = x at hid
  cases hid with
  | unknown =>
    refine h.of_eq (fun _ => State.row_put rfl rfl) (fun _ => Dict.get?_set) (x := none)
      (fun id' => ?_) (.live mirrors_insert)
    split
    · next heq => rw [heq]; exact hended
    · rfl

theorem Inv.delete (h : Inv s) {d : Deletion} {now : ℚ} (hs : s.delete id d now = some s') :
    Inv s' := by
  unfold State.delete at hs
  split at hs
  · cases hs
  · next old hrow =>
    obtain ⟨db, hdb, rfl⟩ := Option.map_eq_some_iff.1 hs
    have hi := (State.row_eq_some.1 hrow).1
    obtain ⟨-, hinstances⟩ := d.run_spec (Option.isSome_of_mem hi) hdb
    have hid := h id
    rw [hrow] at hid
    cases hid' : s.audit.get? id with
    | none =>
      rw [hid'] at hid
      cases hid
    | some e =>
      rw [hid'] at hid
      generalize s.ended id = x at hid
      cases hid with
      | live hm =>
        refine h.of_eq (fun _ => State.row_delete hinstances rfl) (fun _ => State.get?_writeAudit)
          (fun _ => Function.update_apply _ _ _ _) ?_
        rw [hid', Option.map_some]
        exact .deleted hm.delete

/-- **One step.** -/
theorem Inv.step (h : Inv s) {a : Action} (hok : Unraced s a) (hs : s.step a = some s') :
    Inv s' := by
  cases a with
  | claim id args now => exact h.claim hs
  | load id =>
    simp only [State.step, State.load] at hs
    split at hs
    · cases hs
    · obtain ⟨-, hs⟩ := Option.ite_none_left_eq_some.1 hs
      obtain rfl := Option.some.inj hs
      exact h
  | activate id now shutdownAfter =>
    obtain ⟨-, hs⟩ := Option.ite_none_right_eq_some.1 hs
    have h' : Inv { s with activating := s.activating.erase id } := h
    split at hs
    · obtain rfl := Option.some.inj hs
      refine h'.update fun old e hrow hm => hm.update rfl rfl rfl rfl (.inr ?_) fun _ => rfl
      -- The row is inactive, so it was never activated.
      have hinactive : old.active = false := by
        have hall : (s.row id).all (fun row => !row.active) = true := hok
        have hrow' : s.row id = some old := hrow
        rw [hrow', Option.all_some, Bool.not_eq_true'] at hall
        exact hall
      refine Option.not_isSome_iff_eq_none.1 fun hsome => ?_
      rw [hm.active hsome] at hinactive
      cases hinactive
    · obtain rfl := Option.some.inj hs
      exact h'
  | extend id now shutdownAfter =>
    obtain rfl := Option.some.inj hs
    exact h.update fun old e _ hm => hm.update rfl rfl rfl rfl (.inl rfl) hm.active
  | verify id now =>
    obtain rfl := Option.some.inj hs
    exact h.update fun old e _ hm => hm.update rfl rfl rfl rfl (.inl rfl) hm.active
  | setReason id reason =>
    obtain rfl := Option.some.inj hs
    intro id'
    have hid' : Agrees (s.row id') (s.audit.get? id') (s.ended id') := h id'
    have hget : (s.setReason id reason).audit.get? id' = _ := State.get?_writeAudit
    rw [hget]
    split
    · next heq =>
      subst heq
      exact hid'.setReason
    · exact hid'
  | delete id d now => exact h.delete hs
  | others jobs isPublic permissionsBitmask balance usageData =>
    obtain rfl := Option.some.inj hs
    exact h

theorem Initial.inv (h : Initial s) : Inv s := by
  intro id
  have hrow : s.row id = none := by
    unfold State.row
    rw [h.instances]
  rw [hrow, h.audit, h.ended]
  exact .unknown

theorem inv_of_reach {as : List Action} (h : system.Reach Unraced as s) : Inv s :=
  h.invariant (fun _ h0 => Initial.inv h0) fun _ _ _ hi hok hs => hi.step hok hs

/-- **A deletion is final**: what the triggers saw of it stays. -/
theorem Inv.ended_step (h : Inv s) {p : Row × ℚ} {a : Action} (hs : s.step a = some s')
    (hp : s.ended id = some p) : s'.ended id = some p := by
  have hupdate : ∀ (s : State) (id' : String) (f : Row → Row),
      (s.update id' f).ended = s.ended := by
    intro s id' f
    unfold State.update
    split <;> rfl
  cases a with
  | claim id' args now =>
    obtain ⟨-, hs⟩ := Option.ite_none_left_eq_some.1 hs
    obtain rfl := Option.some.inj hs
    exact hp
  | load id' =>
    simp only [State.step, State.load] at hs
    split at hs
    · cases hs
    · obtain ⟨-, hs⟩ := Option.ite_none_left_eq_some.1 hs
      obtain rfl := Option.some.inj hs
      exact hp
  | activate id' now shutdownAfter =>
    obtain ⟨-, hs⟩ := Option.ite_none_right_eq_some.1 hs
    split at hs
    · obtain rfl := Option.some.inj hs
      rw [hupdate]
      exact hp
    · obtain rfl := Option.some.inj hs
      exact hp
  | extend id' now shutdownAfter | verify id' now =>
    obtain rfl := Option.some.inj hs
    exact (congrFun (hupdate _ _ _) id).trans hp
  | setReason id' reason =>
    obtain rfl := Option.some.inj hs
    exact hp
  | delete id' d now =>
    simp only [State.step, State.delete] at hs
    split at hs
    · cases hs
    · next old hrow =>
      obtain ⟨db, -, rfl⟩ := Option.map_eq_some_iff.1 hs
      -- An instance that is deleted has no row to delete.
      have hne : id ≠ id' := by
        rintro rfl
        have hid := h id
        rw [hp] at hid
        rw [hid.of_ended.1] at hrow
        cases hrow
      exact (Function.update_of_ne hne _ _).trans hp
  | others jobs isPublic permissionsBitmask balance usageData =>
    obtain rfl := Option.some.inj hs
    exact hp

theorem Inv.ended_exec {bs : List Action} (h : Inv s) {p : Row × ℚ} (hm : system.Meets Unraced s bs)
    (he : system.exec s bs = some s') (hp : s.ended id = some p) :
    Inv s' ∧ s'.ended id = some p := by
  induction bs generalizing s with
  | nil =>
    obtain rfl := Option.some.inj he
    exact ⟨h, hp⟩
  | cons b bs ih =>
    simp only [Lts.exec, Option.bind_eq_some_iff] at he
    obtain ⟨u, hu, he⟩ := he
    exact ih (h.step hm.1 hu) (hm.2 u hu) he (h.ended_step hu hp)

end Step

/-! ## What the miners are credited -/

section Results

variable {s : State} {as : List Action}

/-- The audit has a row of every instance that there ever was. -/
theorem Inv.mem_keys (h : Inv s) (id : String) (now : ℚ) :
    id ∈ s.audit.keys ↔ (s.last id now).isSome := by
  have hid := h id
  rw [Dict.mem_keys]
  unfold State.last
  generalize s.row id = row, s.audit.get? id = e, s.ended id = ended at hid ⊢
  cases hid with
  | unknown => simp
  | live _ => simp
  | deleted _ => simp

/-- **The audit stands for the rows**: it has those of all instances, live or
deleted, and what the query reads from it, at any time and over any window, is
what the last rows of these say. -/
theorem credited (h : system.Reach Unraced as s) (now interval : ℚ) (minerHotkey : String) :
    (∀ id, id ∈ s.audit.keys ↔ (s.last id now).isSome) ∧
      privateInstances s.audit now interval minerHotkey = s.credit now interval minerHotkey := by
  have hinv := inv_of_reach h
  refine ⟨fun id => hinv.mem_keys id now, ?_⟩
  unfold privateInstances State.credit Dict.values Dict.keys
  rw [List.filterMap_map, List.filterMap_map]
  congr 1
  refine List.filterMap_congr fun p hp => ?_
  have hget : s.audit.get? p.1 = some p.2 := Dict.get?_eq_some.2 hp
  have hid := hinv p.1
  rw [hget] at hid
  have hlast : s.last p.1 now = (s.row p.1).elim (s.ended p.1) fun row => some (row, now) := by
    unfold State.last
    cases s.row p.1 <;> rfl
  exact hid.credit.trans (by rw [Function.comp_apply, hlast])

private def start : State :=
  ⟨⟨fun _ => none, [], fun _ => false, fun _ => 0, fun _ => 100, fun _ => none⟩, fun _ => none,
    .empty, [], fun _ => none⟩

private theorem initial_start : Initial start :=
  ⟨fun _ => rfl, fun _ => rfl, rfl, rfl, fun _ => rfl⟩

/-- A private instance is claimed, activated and used once. -/
private def leasing : List Action :=
  [.claim "i" ⟨"c", "1", "m", some "u", 2, 3⟩ 0, .load "i", .activate "i" 100 (some 300),
    .extend "i" 200 300]

private def leased : State := (system.exec start leasing).getD start

private def purged : State := (leased.step (.delete "i" .purge 460)).getD leased

private theorem reach_leased : system.Reach Unraced leasing leased :=
  Lts.reach_getD_exec initial_start (by decide +kernel) (by decide +kernel)

private theorem step_purged : leased.step (.delete "i" .purge 460) = some purged :=
  (Option.getD_of_ne_none (Option.isSome_iff_ne_none.1 (by decide +kernel)) leased).symm

/-- The window of an hour covers the six minutes. -/
theorem credited_leased :
    privateInstances purged.audit 1000 3600 "m" = purged.credit 1000 3600 "m" ∧
      privateInstances purged.audit 1000 3600 "m" = some ⟨1, 360, 1080⟩ :=
  have hunraced : Unraced leased (.delete "i" .purge 460) := trivial
  ⟨(credited (reach_leased.step hunraced step_purged) 1000 3600 "m").2, by decide +kernel⟩

/-- What is taken from the balance of a user whose instance is deleted: nothing
where the trigger does not bill, and else the hours at the hourly rate, up to
the rounding. -/
def Billed (db db' : Db) (id : String) (row : Row) (d : Deletion) (userId : UserId) (seconds : ℚ) :
    Prop :=
  if db.isFree userId ∨ (d = .purge → db.hasJob id = false) ∧ db.isPublic row.chuteId then
    db'.balance userId = db.balance userId
  else |db.balance userId - db'.balance userId - seconds / 3600 * row.hourlyRate| ≤
    1 / 200 + |row.hourlyRate| / 2000000

/-- **The miner is credited for the seconds that the user is billed for**: once
an instance is deleted, in whichever way, every later query over a window that
reaches back to its activation. -/
theorem credited_as_billed {s' t : State} {bs : List Action} {id : String} {row : Row}
    {d : Deletion}
    {userId : UserId} {activatedAt now : ℚ} (h : system.Reach Unraced as s)
    (hrow : s.row id = some row) (hbilled : row.billedTo = some userId)
    (hactivated : row.activatedAt = some activatedAt) (hs : s.step (.delete id d now) = some s')
    (hm : system.Meets Unraced s' bs) (he : system.exec s' bs = some t) :
    Billed s.db s'.db id row d userId (row.billedUntil now - activatedAt) ∧
      ∃ e, t.audit.get? id = some e ∧ ∀ time interval, now ≤ time → time - interval ≤ activatedAt →
        e.credit time interval row.minerHotkey =
          if activatedAt < row.billedUntil now then
            some (row.billedUntil now - activatedAt, row.computeMultiplier)
          else none := by
  have hinv := inv_of_reach h
  have hstep : ∃ db, d.run s.db now id = some db ∧ s'.db = db ∧
      s'.ended id = some (row, now) := by
    simp only [State.step, State.delete, hrow, Option.map_eq_some_iff] at hs
    obtain ⟨db, hdb, rfl⟩ := hs
    exact ⟨db, hdb, rfl, Function.update_self _ _ _⟩
  obtain ⟨db, hdb, rfl, hended⟩ := hstep
  constructor
  · have hcharge := Db.charge_eq now (State.row_eq_some.1 hrow).1 hbilled hactivated d
    rw [Db.charge, hdb, Option.map_some] at hcharge
    unfold Billed
    split
    · next hfree =>
      rw [if_pos hfree, Option.some.injEq, sub_eq_zero] at hcharge
      exact hcharge.symm
    · next hfree =>
      rw [if_neg hfree] at hcharge
      exact abs_storedCost_sub_le hcharge.symm
  · have hstepped := hinv.step (a := .delete id d now) trivial hs
    obtain ⟨hinv', hended'⟩ := hstepped.ended_exec hm he hended
    have hid := hinv' id
    rw [hended'] at hid
    obtain ⟨hrow', e, haudit⟩ := hid.of_ended
    rw [haudit] at hid
    refine ⟨e, haudit, fun time interval htime hcovers => ?_⟩
    rw [hid.credit, hrow', Option.elim_none, Option.bind_some, Row.credit,
      if_pos ⟨rfl, Option.isSome_of_mem hbilled⟩, hactivated, Option.bind_some]
    have huntil : row.billedUntil now ≤ time := (min_le_right _ _).trans htime
    rw [overlap_of_covers hcovers huntil]
    by_cases hlt : activatedAt < row.billedUntil now
    · have hpos : 0 < row.billedUntil now - activatedAt := sub_pos.2 hlt
      simp only [max_eq_right hpos.le, hpos, hlt, if_true]
    · simp only [max_eq_left (sub_nonpos.2 (not_lt.1 hlt)), lt_irrefl, hlt, if_false]

/-- The row that is purged. -/
private def leasedRow : Row :=
  ⟨⟨"c", some "u", some 100, some 500, 2⟩, ⟨"m", 3, true, none⟩⟩

theorem credited_as_billed_leased : Billed leased.db purged.db "i" leasedRow .purge "u" 360 ∧
    ∃ e, purged.audit.get? "i" = some e ∧ ∀ time interval, 460 ≤ time → time - interval ≤ 100 →
      e.credit time interval "m" = some (360, 3) := by
  have hrow : leased.row "i" = some leasedRow := by decide +kernel
  have hmeets : system.Meets Unraced purged [] := trivial
  have h := credited_as_billed reach_leased hrow rfl rfl step_purged hmeets rfl
  have huntil : leasedRow.billedUntil 460 = 460 := by decide +kernel
  have hseconds : (460 : ℚ) - 100 = 360 := by norm_num
  have hlt : (100 : ℚ) < 460 := by norm_num
  rw [huntil, hseconds] at h
  simp only [hlt, if_true] at h
  exact h

/-- Two handlers activate one instance: the user is billed for a minute, and the
miner credited for six. -/
example : (system.exec start [.claim "i" ⟨"c", "1", "m", some "u", 2, 3⟩ 0, .load "i", .load "i",
    .activate "i" 100 (some 300), .activate "i" 400 (some 300), .delete "i" .purge 460]).map
      (fun s => (100 - s.db.balance "u", privateInstances s.audit 1000 3600 "m")) =
    some (3 / 100, some ⟨1, 360, 1080⟩) := by
  decide +kernel

end Results

end Audit

end ChutesApi
