import ChutesApi.Instance.Billing
import Mathlib.Algebra.BigOperators.Group.Finset.Basic
import Mathlib.Algebra.BigOperators.Ring.Finset
/-!
# The effective balance

The view `user_current_balance` takes what a user's live instances have
accrued from the stored balance. Deleting an instance charges that amount,
as `DECIMAL`s hold it, where the view and the trigger count it alike: the
view wants a stop of billing that is still to come, the trigger an instance
that is a job's or private (`unchanged_iff`).
-/

namespace ChutesApi

/-- **The rows the view reads**: the instances are finitely many. -/
structure Snapshot extends Db where
  ids : Finset String
  covers : ∀ id, (instances id).isSome → id ∈ ids

namespace Db

variable (db : Db) (now : ℚ) (userId : UserId)

/-- The hours the view counts for an instance: none unless it is activated,
billing stops in the future and the user is not free. -/
def accruedHours (i : Instance) : ℚ :=
  match i.activatedAt, i.stopBillingAt with
  | some activatedAt, some stopBillingAt =>
    if now < stopBillingAt ∧ db.isFree userId = false then
      (min stopBillingAt now - activatedAt) / 3600
    else 0
  | _, _ => 0

/-- An instance's term of `total_instance_costs`. -/
def accrued (i : Instance) : ℚ := db.accruedHours now userId i * i.hourlyRate

/-- **`user_current_balance.effective_balance`**, over the instances joined
on `billed_to`. -/
def effectiveBalance (ids : Finset String) : ℚ :=
  db.balance userId - ∑ id ∈ ids, match db.instances id with
    | some i => if i.billedTo = some userId then db.accrued now userId i else 0
    | none => 0

end Db

/-- Hours and cost as `v_hours_used` and `v_total_cost` hold them. -/
def storedCost (hours hourlyRate : ℚ) : Option ℚ := do
  let hours ← decimal 10 6 hours
  decimal 10 2 (hours * hourlyRate)

/-- **The deletion leaves the effective balance as it was**, but for the
rounding of the accrued cost. -/
def Snapshot.Unchanged (s : Snapshot) (now : ℚ) (id : String) (i : Instance) (userId : UserId)
    (d : Deletion) : Prop :=
  ∃ db' stored, d.run s.toDb now id = some db' ∧
    storedCost (s.accruedHours now userId i) i.hourlyRate = some stored ∧
    db'.effectiveBalance now userId s.ids - s.effectiveBalance now userId s.ids =
      s.accrued now userId i - stored

/-- The trigger bills the instance, if its user is not free: its job still
refers to it, or its chute is private. -/
def Snapshot.Billable (s : Snapshot) (id : String) (i : Instance) (d : Deletion) : Prop :=
  d = .purge ∧ s.hasJob id ∨ s.isPublic i.chuteId = false

instance (s : Snapshot) (id : String) (i : Instance) (d : Deletion) :
    Decidable (s.Billable id i d) :=
  inferInstanceAs (Decidable (_ ∨ _))

/-! ## Rounding -/

/-- **A `DECIMAL` is off by half of its last digit at most.** -/
theorem abs_decimal_sub_le {precision scale : ℕ} {q r : ℚ}
    (h : decimal precision scale q = some r) : |r - q| ≤ 1 / 2 / 10 ^ scale := by
  have hpos : (0 : ℚ) < 10 ^ scale := by positivity
  have hunits : ∀ x : ℚ,
      |(((if 0 ≤ x then ⌊x + 1 / 2⌋ else -⌊-x + 1 / 2⌋ : ℤ)) : ℚ) - x| ≤ 1 / 2 := by
    intro x
    rw [abs_le]
    split
    · have h1 := Int.floor_le (x + 1 / 2)
      have h2 := Int.lt_floor_add_one (x + 1 / 2)
      constructor <;> linarith
    · have h1 := Int.floor_le (-x + 1 / 2)
      have h2 := Int.lt_floor_add_one (-x + 1 / 2)
      push_cast
      constructor <;> linarith
  rw [decimal, Option.ite_none_right_eq_some, Option.some.injEq] at h
  obtain ⟨-, rfl⟩ := h
  rw [le_div_iff₀ hpos, ← abs_of_pos hpos, ← abs_mul, abs_of_pos hpos, sub_mul,
    div_mul_cancel₀ _ hpos.ne']
  exact hunits (q * 10 ^ scale)

/-- **What rounding can hide**: half a cent, and the rate for half of a
millionth of an hour. -/
theorem abs_storedCost_sub_le {hours hourlyRate stored : ℚ}
    (h : storedCost hours hourlyRate = some stored) :
    |stored - hours * hourlyRate| ≤ 1 / 200 + |hourlyRate| / 2000000 := by
  obtain ⟨rounded, hr, hs⟩ := Option.bind_eq_some_iff.1 h
  have h1 := abs_decimal_sub_le hs
  have h2 : |rounded * hourlyRate - hours * hourlyRate| ≤ 1 / 2 / 10 ^ 6 * |hourlyRate| := by
    rw [← sub_mul, abs_mul]
    exact mul_le_mul_of_nonneg_right (abs_decimal_sub_le hr) (abs_nonneg _)
  calc |stored - hours * hourlyRate|
      ≤ |stored - rounded * hourlyRate| + |rounded * hourlyRate - hours * hourlyRate| :=
        abs_sub_le _ _ _
    _ ≤ 1 / 2 / 10 ^ 2 + 1 / 2 / 10 ^ 6 * |hourlyRate| := add_le_add h1 h2
    _ = 1 / 200 + |hourlyRate| / 2000000 := by ring

theorem storedCost_zero (hourlyRate : ℚ) : storedCost 0 hourlyRate = some 0 := by
  have h6 : decimal 10 6 0 = some 0 := by decide +kernel
  have h2 : decimal 10 2 0 = some 0 := by decide +kernel
  simp [storedCost, h6, h2]

/-! ## What a deletion leaves -/

namespace Db

variable {db db' : Db} {now : ℚ} {id : String} {i : Instance} {userId : UserId}

/-- **The frame of a deletion**: the row is gone, the others and the
permissions stay. -/
theorem run_frame {d : Deletion} (hi : db.instances id = some i) (h : d.run db now id = some db') :
    db'.instances = Function.update db.instances id none ∧
      db'.permissionsBitmask = db.permissionsBitmask := by
  -- The trigger touches the balance and the usage data only.
  have htrigger : ∀ (db db' : Db), db.updateBalanceOnInstanceDelete now id i = some db' →
      db'.instances = db.instances ∧ db'.permissionsBitmask = db.permissionsBitmask := by
    intro db db' h
    unfold updateBalanceOnInstanceDelete at h
    split at h
    · exact Option.some.inj h ▸ ⟨rfl, rfl⟩
    · split at h
      · exact Option.some.inj h ▸ ⟨rfl, rfl⟩
      · split at h
        · exact Option.some.inj h ▸ ⟨rfl, rfl⟩
        · split at h
          · exact Option.some.inj h ▸ ⟨rfl, rfl⟩
          · obtain ⟨cost, -, rfl⟩ := Option.map_eq_some_iff.1 h
            exact ⟨rfl, rfl⟩
  have hraw : ∀ (db db' : Db), db.instances id = some i → db.rawDelete now id = some db' →
      db'.instances = Function.update db.instances id none ∧
        db'.permissionsBitmask = db.permissionsBitmask := by
    intro db db' hi h
    rw [rawDelete, hi] at h
    obtain ⟨billed, hb, rfl⟩ := Option.map_eq_some_iff.1 h
    obtain ⟨hinst, hperm⟩ := htrigger db billed hb
    exact ⟨by rw [← hinst], hperm⟩
  cases d with
  | purge =>
    obtain ⟨deleted, hd, rfl⟩ := Option.map_eq_some_iff.1 h
    exact hraw db deleted hi hd
  | shutdownStale | terminateInstance => exact hraw (db.unbind id) db' hi h
  | deleteInstance | completeJob | terminateJob =>
    exact hraw ((db.finishJobOf id).unbind id) db' hi h

/-- An instance that was never activated is not charged for. -/
theorem charge_of_not_activated (hi : db.instances id = some i) (hactivated : i.activatedAt = none)
    (d : Deletion) : db.charge now id userId d = some 0 := by
  have htrigger : ∀ db : Db, db.updateBalanceOnInstanceDelete now id i = some db := by
    intro db
    unfold updateBalanceOnInstanceDelete
    rw [hactivated]
    split
    · rfl
    · split
      · rfl
      · split <;> rfl
  have hraw : ∀ db : Db, db.instances id = some i →
      (db.rawDelete now id).map (fun db' => db.balance userId - db'.balance userId) = some 0 := by
    intro db hi
    simp [rawDelete, hi, htrigger, unbind]
  cases d with
  | purge =>
    have h := hraw db hi
    rw [← h]
    unfold charge Deletion.run purge
    rw [Option.map_map]
    rfl
  | shutdownStale | terminateInstance => exact hraw (db.unbind id) hi
  | deleteInstance | completeJob | terminateJob => exact hraw ((db.finishJobOf id).unbind id) hi

/-- **The view after a deletion**: what the instance had accrued is no longer
taken off, and what it was charged is gone. -/
theorem effectiveBalance_run {d : Deletion} {ids : Finset String} (hid : id ∈ ids)
    (hi : db.instances id = some i) (hbilled : i.billedTo = some userId)
    (h : d.run db now id = some db') :
    db'.effectiveBalance now userId ids - db.effectiveBalance now userId ids =
      db.accrued now userId i - (db.balance userId - db'.balance userId) := by
  obtain ⟨hinst, hperm⟩ := run_frame hi h
  have hfree : db'.isFree userId = db.isFree userId := by simp only [isFree, hperm]
  have haccrued : ∀ j, db'.accrued now userId j = db.accrued now userId j := by
    intro j
    simp only [accrued, accruedHours, hfree]
  unfold effectiveBalance
  rw [← Finset.add_sum_erase ids _ hid, ← Finset.add_sum_erase ids _ hid, hinst,
    Function.update_self, hi]
  have hrest : ∀ j ∈ ids.erase id,
      (match Function.update db.instances id none j with
        | some k => if k.billedTo = some userId then db'.accrued now userId k else 0
        | none => 0) =
      match db.instances j with
        | some k => if k.billedTo = some userId then db.accrued now userId k else 0
        | none => 0 := by
    intro j hj
    rw [Function.update_of_ne (Finset.ne_of_mem_erase hj)]
    simp only [haccrued]
  rw [Finset.sum_congr rfl hrest]
  simp only [hbilled, if_true]
  ring

end Db

/-! ## When the view and the trigger agree -/

variable {s : Snapshot} {now : ℚ} {id : String} {i : Instance} {userId : UserId}
  {activatedAt : ℚ}

/-- **The balance is kept exactly when the charge is the accrued cost as
stored.** -/
theorem unchanged_iff_charge (hi : s.instances id = some i) (hbilled : i.billedTo = some userId)
    (d : Deletion) : s.Unchanged now id i userId d ↔
      ∃ stored, s.charge now id userId d = some stored ∧
        storedCost (s.accruedHours now userId i) i.hourlyRate = some stored := by
  have hid : id ∈ s.ids := s.covers id (by rw [hi]; rfl)
  constructor
  · rintro ⟨db', stored, hrun, hstored, hkept⟩
    rw [Db.effectiveBalance_run hid hi hbilled hrun] at hkept
    refine ⟨stored, ?_, hstored⟩
    rw [Db.charge, hrun, Option.map_some, Option.some.injEq]
    linarith
  · rintro ⟨stored, hcharge, hstored⟩
    obtain ⟨db', hrun, hdiff⟩ := Option.map_eq_some_iff.1 hcharge
    refine ⟨db', stored, hrun, hstored, ?_⟩
    rw [Db.effectiveBalance_run hid hi hbilled hrun, hdiff]

/-- What the view counts, stored, is the trigger's cost where billing stops in
the future, and nothing elsewhere. -/
theorem storedCost_accruedHours (hactivated : i.activatedAt = some activatedAt)
    (hfree : s.isFree userId = false) :
    storedCost (s.accruedHours now userId i) i.hourlyRate =
      if ∃ stop ∈ i.stopBillingAt, now < stop then i.cost now activatedAt else some 0 := by
  unfold Db.accruedHours Instance.cost
  rw [hactivated]
  rcases i.stopBillingAt with _ | stop
  · simp [storedCost_zero]
  · by_cases hstop : now < stop
    · simp [hstop, hfree, storedCost]
    · simp [hstop, storedCost_zero]

/-- What the trigger charges, in the same terms. -/
theorem charge_of_not_free (hi : s.instances id = some i) (hbilled : i.billedTo = some userId)
    (hactivated : i.activatedAt = some activatedAt) (hfree : s.isFree userId = false)
    (d : Deletion) : s.charge now id userId d =
      if s.Billable id i d then i.cost now activatedAt else some 0 := by
  have hskip : (d = .purge → s.hasJob id = false) ∧ s.isPublic i.chuteId ↔
      ¬ s.Billable id i d := by
    unfold Snapshot.Billable
    cases d <;> simp
  rw [Db.charge_eq now hi hbilled hactivated d]
  by_cases hb : s.Billable id i d
  · rw [if_neg, if_pos hb]
    rintro (h | h)
    · rw [h] at hfree
      cases hfree
    · exact hskip.1 h hb
  · rw [if_pos (.inr (hskip.2 hb)), if_neg hb]

/-- Two amounts that are each the cost or nothing are the same number. -/
theorem exists_stored_iff {b f : Prop} [Decidable b] [Decidable f] {cost : Option ℚ} :
    (∃ stored, (if b then cost else some 0) = some stored ∧
      (if f then cost else some 0) = some stored) ↔
      cost = some 0 ∨ ((b ↔ f) ∧ (b → cost.isSome)) := by
  by_cases hb : b <;> by_cases hf : f
  · rcases cost with _ | cost <;> simp [hb, hf]
  · rcases cost with _ | cost <;> simp [hb, hf, eq_comm]
  · rcases cost with _ | cost <;> simp [hb, hf]
  · simp [hb, hf]

/-- **Deleting an instance leaves the effective balance as it was exactly
when** the user is free, the instance was never activated or costs nothing,
or the trigger bills it just where billing stops in the future and its cost
fits the stored types. -/
theorem unchanged_iff (hi : s.instances id = some i) (hbilled : i.billedTo = some userId)
    (d : Deletion) : s.Unchanged now id i userId d ↔
      (s.isFree userId ∨ ∀ activatedAt ∈ i.activatedAt, i.cost now activatedAt = some 0 ∨
        ((s.Billable id i d ↔ ∃ stop ∈ i.stopBillingAt, now < stop) ∧
          (s.Billable id i d → (i.cost now activatedAt).isSome))) := by
  rw [unchanged_iff_charge hi hbilled]
  rcases hactivated : i.activatedAt with _ | activatedAt
  · have hhours : s.accruedHours now userId i = 0 := by
      unfold Db.accruedHours
      rw [hactivated]
    simp [Db.charge_of_not_activated hi hactivated, hhours, storedCost_zero]
  by_cases hfree : s.isFree userId
  · have hhours : s.accruedHours now userId i = 0 := by
      unfold Db.accruedHours
      split
      · simp [hfree]
      · rfl
    simp [Db.charge_eq now hi hbilled hactivated, hfree, hhours, storedCost_zero]
  · rw [Bool.not_eq_true] at hfree
    rw [charge_of_not_free hi hbilled hactivated hfree d,
      storedCost_accruedHours hactivated hfree, exists_stored_iff]
    simp [hfree]

section

/-- One instance of a private chute, billed at 2 an hour since time 0. -/
private def oneInstance (stopBillingAt : Option ℚ) : Snapshot where
  instances id := if id = "i" then some ⟨"c", some "u", some 0, stopBillingAt, 2⟩ else none
  jobs := []
  isPublic _ := false
  permissionsBitmask _ := 0
  balance _ := 100
  usageData _ := none
  ids := {"i"}
  covers := by
    intro id h
    split at h
    · next hid => exact Finset.mem_singleton.2 hid
    · cases h

theorem unchanged_running :
    (oneInstance (some 7200)).Unchanged 3600 "i" ⟨"c", some "u", some 0, some 7200, 2⟩ "u" .purge :=
  (unchanged_iff rfl rfl .purge).2 (.inr (by decide +kernel))

/-- **The effective balance is not always kept**: where billing has stopped,
the view no longer counts what the deletion charges. -/
theorem not_unchanged : ¬ ∀ (s : Snapshot) (now : ℚ) (id : String) (i : Instance)
    (userId : UserId) (d : Deletion), s.instances id = some i → i.billedTo = some userId →
      d.Applies s.toDb now id → s.Unchanged now id i userId d := by
  intro h
  have hkept := h (oneInstance (some 1800)) 3600 "i" _ "u" .purge rfl rfl rfl
  obtain ⟨stored, hcharge, hstored⟩ := (unchanged_iff_charge rfl rfl .purge).1 hkept
  have h1 : (oneInstance (some 1800)).charge 3600 "i" "u" .purge = some 1 := by decide +kernel
  have h2 : storedCost ((oneInstance (some 1800)).accruedHours 3600 "u"
      ⟨"c", some "u", some 0, some 1800, 2⟩) 2 = some 0 := by decide +kernel
  rw [h1] at hcharge
  rw [h2, ← hcharge] at hstored
  exact absurd hstored (by decide +kernel)

end

end ChutesApi
