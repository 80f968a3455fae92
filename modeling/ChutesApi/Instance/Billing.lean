import ChutesApi.Instance.Model
/-!
# The charge for an instance

The charge should be the same whichever way the instance is deleted. It is,
but for an instance of a job on a public chute: the trigger bills it where
the job still refers to it, which it does under `purge` only, and takes it
for one that nobody is billed for where the session has nulled the
reference before (`billedAlike_iff`).
-/

namespace ChutesApi

namespace Db

variable {db : Db} (now : ℚ) {id : String} {i : Instance} {userId : UserId} {activatedAt : ℚ}

/-- What a deletion takes from the user's balance; `none` where it
raises. -/
def charge (db : Db) (now : ℚ) (id : String) (userId : UserId) (d : Deletion) : Option ℚ :=
  (d.run db now id).map fun db' => db.balance userId - db'.balance userId

/-- **The charge does not depend on the deletion**, and that of a job's
instance is its cost, unless its user is free. -/
structure BilledAlike (db : Db) (now : ℚ) (id : String) (userId : UserId) (cost : Option ℚ) :
    Prop where
  same : ∀ d d' : Deletion, d.Applies db now id → d'.Applies db now id →
    db.charge now id userId d = db.charge now id userId d'
  job : db.hasJob id → db.isFree userId = false → ∀ d : Deletion, d.Applies db now id →
    db.charge now id userId d = cost

/-! ## The reference -/

theorem unbind_hasJob (db : Db) (id : String) : (db.unbind id).hasJob id = false := by
  unfold hasJob unbind
  rw [List.any_eq_false]
  intro job hjob
  obtain ⟨job₀, -, rfl⟩ := List.mem_map.1 hjob
  split
  · simp
  · next hne => simpa using hne

/-- What the trigger charges. -/
theorem updateBalance_charge (hbilled : i.billedTo = some userId)
    (hactivated : i.activatedAt = some activatedAt) :
    (db.updateBalanceOnInstanceDelete now id i).map
        (fun db' => db.balance userId - db'.balance userId) =
      if db.isFree userId ∨ (db.hasJob id = false ∧ db.isPublic i.chuteId) then some 0
      else i.cost now activatedAt := by
  unfold updateBalanceOnInstanceDelete
  rw [hbilled, hactivated]
  by_cases hfree : db.isFree userId
  · simp [hfree]
  · by_cases hskip : db.hasJob id = false ∧ db.isPublic i.chuteId
    · simp [hfree, hskip]
    · have hbill : ¬ ((!db.hasJob id && db.isPublic i.chuteId) = true) := by simpa using hskip
      simp only [hfree, hskip, hbill, or_self, if_false, Option.map_map, Function.comp_def, bill,
        Function.update_self, Bool.false_eq_true, sub_sub_cancel, Option.map_id']

/-- The end of the row takes nothing further. -/
theorem rawDelete_charge (hi : db.instances id = some i) (hbilled : i.billedTo = some userId)
    (hactivated : i.activatedAt = some activatedAt) :
    (db.rawDelete now id).map (fun db' => db.balance userId - db'.balance userId) =
      if db.isFree userId ∨ (db.hasJob id = false ∧ db.isPublic i.chuteId) then some 0
      else i.cost now activatedAt := by
  rw [← updateBalance_charge now hbilled hactivated]
  unfold rawDelete
  rw [hi, Option.map_map]
  rfl

/-- A session's deletion finds no job. -/
theorem sessionDelete_charge (hi : db.instances id = some i) (hbilled : i.billedTo = some userId)
    (hactivated : i.activatedAt = some activatedAt) :
    (db.sessionDelete now id).map (fun db' => db.balance userId - db'.balance userId) =
      if db.isFree userId ∨ db.isPublic i.chuteId then some 0 else i.cost now activatedAt := by
  have hraw : ((db.unbind id).rawDelete now id).map _ = _ :=
    rawDelete_charge now hi hbilled hactivated
  simp only [unbind_hasJob, true_and] at hraw
  exact hraw

/-! ## The deletions -/

/-- **Every deletion but `purge` bills as a session does.** -/
theorem charge_eq (hi : db.instances id = some i) (hbilled : i.billedTo = some userId)
    (hactivated : i.activatedAt = some activatedAt) (d : Deletion) :
    db.charge now id userId d =
      if db.isFree userId ∨ (d = .purge → db.hasJob id = false) ∧ db.isPublic i.chuteId then some 0
      else i.cost now activatedAt := by
  have hsession := sessionDelete_charge now hi hbilled hactivated
  cases d with
  | purge =>
    have hraw := rawDelete_charge now hi hbilled hactivated
    simp only [forall_const]
    rw [← hraw]
    unfold charge Deletion.run purge
    rw [Option.map_map]
    rfl
  | shutdownStale | terminateInstance =>
    simp only [reduceCtorEq, false_implies, true_and]
    exact hsession
  | deleteInstance | completeJob | terminateJob =>
    have hfinished : ((db.finishJobOf id).sessionDelete now id).map _ = _ :=
      sessionDelete_charge now hi hbilled hactivated
    simp only [reduceCtorEq, false_implies, true_and]
    exact hfinished

/-- **The charge for an instance does not depend on how it is deleted**
exactly where its chute is not public, no job refers to it, its user is
free, or it costs nothing. -/
theorem billedAlike_iff (hi : db.instances id = some i) (hbilled : i.billedTo = some userId)
    (hactivated : i.activatedAt = some activatedAt) :
    db.BilledAlike now id userId (i.cost now activatedAt) ↔
      (db.isPublic i.chuteId = false ∨ db.hasJob id = false ∨ db.isFree userId ∨
        i.cost now activatedAt = some 0) := by
  have hcharge := charge_eq now hi hbilled hactivated
  constructor
  · intro halike
    have hpurge := hcharge .purge
    have hdelete := hcharge .deleteInstance
    have hsame := halike.same .purge .deleteInstance (by simp [Deletion.Applies, hi])
      (by simp [Deletion.Applies, hi])
    rw [hpurge, hdelete] at hsame
    by_contra hnot
    simp only [not_or, Bool.not_eq_false] at hnot
    obtain ⟨hpublic, hjob, hfree, hcost⟩ := hnot
    simp only [hpublic, hjob, hfree, reduceCtorEq, forall_const, and_true, or_false, if_false,
      false_implies, or_true, if_true, Bool.true_eq_false] at hsame
    exact hcost hsame
  · intro hcond
    refine ⟨fun d d' _ _ => ?_, fun hjob hfree d _ => ?_⟩
    · rw [hcharge d, hcharge d']
      rcases hcond with h | h | h | h
      · simp [h]
      · simp [h]
      · simp [h]
      · simp [h]
    · rw [hcharge d]
      rcases hcond with h | h | h | h
      · simp [h, hfree]
      · simp [h] at hjob
      · simp [h] at hfree
      · simp [h]

section

/-- An instance of a job on a public chute, billed at 2 an hour. -/
private def jobInstance (isPublic : Bool) : Db where
  instances id := if id = "i" then some ⟨"c", some "u", some 0, none, 2⟩ else none
  jobs := [{ jobId := "j", minerHotkey := some "5Miner", instanceId := some "i" }]
  isPublic _ := isPublic
  permissionsBitmask _ := 0
  balance _ := 100
  usageData _ := none

theorem billedAlike_private :
    (jobInstance false).BilledAlike 3600 "i" "u" (some 2) := by
  have hcost : (⟨"c", some "u", some 0, none, 2⟩ : Instance).cost 3600 0 = some 2 := by
    decide +kernel
  exact hcost ▸ (billedAlike_iff 3600 rfl rfl rfl).2 (.inl rfl)

/-- **Billed by the watchtower, and not by the miner.** -/
theorem not_billedAlike : ¬ ∀ (db : Db) (now : ℚ) (id : String) (i : Instance) (userId : UserId)
    (activatedAt : ℚ), db.instances id = some i → i.billedTo = some userId →
      i.activatedAt = some activatedAt →
        db.BilledAlike now id userId (i.cost now activatedAt) := by
  intro h
  have hsame := (h (jobInstance true) 3600 "i" _ "u" 0 rfl rfl rfl).same .purge .deleteInstance
    (by simp [Deletion.Applies, jobInstance]) (by simp [Deletion.Applies, jobInstance])
  exact absurd hsame (by decide +kernel)

end

end Db

end ChutesApi
