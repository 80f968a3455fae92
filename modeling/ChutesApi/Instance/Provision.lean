import ChutesApi.Instance.Model.Provision
/-!
# The lifecycle of a launch config

A handler checks the config that it has loaded, and commits on the strength
of it later, when other requests with the same token may have retrieved,
verified or failed the config. Where the locks are (`Inv`) and what a request
that goes on has checked (`Loads`) are invariants; from them the lifecycle
holds exactly in the runs in which nobody overtakes a request between its load
and its commit (`lawful_iff`).
-/

namespace ChutesApi

namespace Provision

variable {s s' s₁ : State} {a : Action} {as : List Action} {t u : ℕ} {hasJob : Bool}

/-! ## Locks -/

/-- **Who holds which lock**, and what a config that has been retrieved or
activated has been through. -/
structure Inv (s : State) : Prop where
  config : ∀ t v, s.config.writer = some (t, v) →
    (s.txns t = some .checking ∨ s.txns t = some .inserted) ∧
      v = { s.config.committed with retrievedAt := true }
  slot : ∀ t v, s.slot.writer = some (t, v) → s.txns t = some .inserted
  locked : ∀ t, s.txns t = some .checking ∨ s.txns t = some .inserted →
    ∃ v, s.config.writer = some (t, v)
  retrieved : s.log.countP Event.isCreated ≠ 0 → s.config.committed.retrievedAt
  cause : s.config.committed.retrievedAt →
    s.log.countP Event.isCreated ≠ 0 ∨ s.config.committed.failedAt
  verified : ∀ t id active, s.txns t = some (.activating id active) →
    s.config.committed.verifiedAt
  committed : ∀ t, s.txns t = some .committed → s.log.countP Event.isCreated ≠ 0

/-- No claim but `t`'s has a lock. -/
def State.Free (s : State) (t : ℕ) : Prop :=
  ∀ u, u ≠ t → s.txns u ≠ some .checking ∧ s.txns u ≠ some .inserted

theorem writeConfig_eq_some {f : Config → Config} :
    s.writeConfig t f = some s' ↔
      s.config.Lockable t ∧ s' = { s with config := .idle (f (s.config.seen t)) } := by
  unfold State.writeConfig
  rw [Option.map_eq_some_iff]
  constructor
  · rintro ⟨config, hconfig, rfl⟩
    obtain ⟨hlock, rfl⟩ := Row.update_eq_some.1 hconfig
    exact ⟨hlock, by rw [Row.commit_of_writer rfl]⟩
  · rintro ⟨hlock, rfl⟩
    exact ⟨_, Row.update_eq_some.2 ⟨hlock, rfl⟩, by rw [Row.commit_of_writer rfl]⟩

theorem writeSlot_eq_some {f : Option Instance → Option Instance} :
    s.writeSlot t f = some s' ↔
      s.slot.Lockable t ∧ s' = { s with slot := .idle (f (s.slot.seen t)) } := by
  unfold State.writeSlot
  rw [Option.map_eq_some_iff]
  constructor
  · rintro ⟨slot, hslot, rfl⟩
    obtain ⟨hlock, rfl⟩ := Row.update_eq_some.1 hslot
    exact ⟨hlock, by rw [Row.commit_of_writer rfl]⟩
  · rintro ⟨hlock, rfl⟩
    exact ⟨_, Row.update_eq_some.2 ⟨hlock, rfl⟩, by rw [Row.commit_of_writer rfl]⟩

theorem deleteSlot_eq_some {meant : Instance → Bool} :
    s.deleteSlot t meant = some s' ↔ s.slot.Lockable t ∧
      s' = { s with
        slot := .idle ((s.slot.seen t).filter fun i => !meant i)
        deleted := s.deleted + (s.slot.committed.filter meant).toList.length } := by
  unfold State.deleteSlot
  rw [Option.map_eq_some_iff]
  constructor
  · rintro ⟨s₁, hs₁, rfl⟩
    obtain ⟨hlock, rfl⟩ := writeSlot_eq_some.1 hs₁
    exact ⟨hlock, rfl⟩
  · rintro ⟨hlock, rfl⟩
    exact ⟨_, writeSlot_eq_some.2 ⟨hlock, rfl⟩, rfl⟩

/-- Whose transaction is where, after `t`'s has gone on. -/
theorem txns_cases (s : State) (t : ℕ) (txn : Option Txn) (u : ℕ) :
    (u = t ∧ Function.update s.txns t txn u = txn) ∨
      (u ≠ t ∧ Function.update s.txns t txn u = s.txns u) := by
  rcases eq_or_ne u t with rfl | hne
  · exact .inl ⟨rfl, Function.update_self _ _ _⟩
  · exact .inr ⟨hne, Function.update_of_ne hne _ _⟩

/-- A transaction that is not where `t`'s is now is another's. -/
theorem txns_of_ne {txn txn' : Option Txn} {u : ℕ} (hu : (s.enter t txn).txns u = txn')
    (hne : txn ≠ txn') : s.txns u = txn' := by
  simp only [State.enter] at hu
  rcases txns_cases s t txn u with ⟨rfl, heq⟩ | ⟨-, heq⟩ <;> rw [heq] at hu
  · exact absurd hu hne
  · exact hu

/-- Who can write the config has it for itself. -/
theorem Inv.free_of_lockable (h : Inv s) (hlock : s.config.Lockable t) : s.Free t := by
  intro u hne
  refine not_or.1 fun hu => ?_
  obtain ⟨v, hv⟩ := h.locked u hu
  exact hne (hlock (u, v) hv)

/-- The same, of a claim that has flushed. -/
theorem Inv.free_of_locked (h : Inv s)
    (ht : s.txns t = some .checking ∨ s.txns t = some .inserted) : s.Free t := by
  obtain ⟨v, hv⟩ := h.locked t ht
  refine h.free_of_lockable fun w hw => ?_
  rw [hv, Option.mem_some_iff] at hw
  rw [← hw]

/-- A request that is not a claim with a lock sees what is committed. -/
theorem Inv.seen_of_not_locked (h : Inv s)
    (ht : ¬ (s.txns t = some .checking ∨ s.txns t = some .inserted)) :
    s.config.seen t = s.config.committed := by
  refine Row.seen_of_not_writer ?_
  rintro ⟨u, v⟩ hw rfl
  exact ht (h.config u v hw).1

/-- A claim with the lock sees the config retrieved. -/
theorem Inv.seen_of_locked (h : Inv s)
    (ht : s.txns t = some .checking ∨ s.txns t = some .inserted) :
    s.config.seen t = { s.config.committed with retrievedAt := true } := by
  obtain ⟨v, hv⟩ := h.locked t ht
  rw [Row.seen_of_writer hv]
  exact (h.config t v hv).2

/-- Nobody else is inserting. -/
theorem Inv.slot_writer (h : Inv s) (hfree : s.Free t) {w : ℕ × Option Instance}
    (hw : w ∈ s.slot.writer) : w.1 = t ∧ s.txns t = some .inserted := by
  have hinserted := h.slot w.1 w.2 hw
  have heq : w.1 = t := by
    by_contra hne
    exact (hfree w.1 hne).2 hinserted
  exact ⟨heq, heq ▸ hinserted⟩

/-! ## Steps -/

/-- What a request may be when it holds no lock. -/
structure Unlocked (config : Config) (log : List Event) (txn : Option Txn) : Prop where
  checking : txn ≠ some .checking
  inserted : txn ≠ some .inserted
  activating : ∀ id active, txn = some (.activating id active) → config.verifiedAt
  committed : txn = some .committed → log.countP Event.isCreated ≠ 0

theorem unlocked_none (config : Config) (log : List Event) : Unlocked config log none :=
  ⟨by simp, by simp, by simp, by simp⟩

/-- A request that holds no lock goes on. -/
theorem Inv.enter (h : Inv s) {txn : Option Txn}
    (ht : ¬ (s.txns t = some .checking ∨ s.txns t = some .inserted))
    (htxn : Unlocked s.config.committed s.log txn) : Inv (s.enter t txn) := by
  have hother : ∀ u, u ≠ t → (s.enter t txn).txns u = s.txns u :=
    fun u hne => Function.update_of_ne hne _ _
  refine ⟨fun u v hw => ?_, fun u v hw => ?_, fun u hu => ?_, h.retrieved, h.cause,
    fun u id active hu => ?_, fun u hu => ?_⟩
  -- The writer of a row is not `t`, which holds no lock.
  · have hne : u ≠ t := by
      rintro rfl
      exact ht (h.config u v hw).1
    rw [hother u hne]
    exact h.config u v hw
  · have hne : u ≠ t := by
      rintro rfl
      exact ht (.inr (h.slot u v hw))
    rw [hother u hne]
    exact h.slot u v hw
  · simp only [State.enter] at hu
    rcases txns_cases s t txn u with ⟨rfl, heq⟩ | ⟨-, heq⟩ <;> rw [heq] at hu
    · exact absurd hu (not_or.2 ⟨htxn.checking, htxn.inserted⟩)
    · exact h.locked u hu
  · simp only [State.enter] at hu
    rcases txns_cases s t txn u with ⟨rfl, heq⟩ | ⟨-, heq⟩ <;> rw [heq] at hu
    · exact htxn.activating id active hu
    · exact h.verified u id active hu
  · simp only [State.enter] at hu
    rcases txns_cases s t txn u with ⟨rfl, heq⟩ | ⟨-, heq⟩ <;> rw [heq] at hu
    · exact htxn.committed hu
    · exact h.committed u hu

/-- **A transaction that had the config for itself ends**, with the config
and the instance as it leaves them. -/
theorem Inv.finish (h : Inv s) (hfree : s.Free t) {config : Config}
    {slot : Row ℕ (Option Instance)} {txn : Option Txn} {log : List Event}
    (hslot : slot.writer = none) (htxn : Unlocked config log txn)
    (hverified : s.config.committed.verifiedAt → config.verifiedAt)
    (hlog : s.log.countP Event.isCreated ≠ 0 → log.countP Event.isCreated ≠ 0)
    (hretrieved : log.countP Event.isCreated ≠ 0 → config.retrievedAt)
    (hcause : config.retrievedAt → log.countP Event.isCreated ≠ 0 ∨ config.failedAt) :
    Inv { s with
      config := .idle config
      slot
      txns := Function.update s.txns t txn
      log } := by
  refine ⟨fun u v hw => (by cases hw), fun u v hw => ?_, fun u hu => ?_, hretrieved, hcause,
    fun u id active hu => ?_, fun u hu => ?_⟩
  · simp only [hslot] at hw
    cases hw
  · rcases txns_cases s t txn u with ⟨rfl, heq⟩ | ⟨hne, heq⟩ <;> simp only [heq] at hu
    · exact absurd hu (not_or.2 ⟨htxn.checking, htxn.inserted⟩)
    · exact absurd hu (not_or.2 (hfree u hne))
  · rcases txns_cases s t txn u with ⟨rfl, heq⟩ | ⟨-, heq⟩ <;> simp only [heq] at hu
    · exact htxn.activating id active hu
    · exact hverified (h.verified u id active hu)
  · rcases txns_cases s t txn u with ⟨rfl, heq⟩ | ⟨-, heq⟩ <;> simp only [heq] at hu
    · exact htxn.committed hu
    · exact hlog (h.committed u hu)

/-- Nobody is inserting, where the only request that could is not. -/
theorem Inv.slot_idle (h : Inv s) (hfree : s.Free t) (ht : s.txns t ≠ some .inserted) :
    s.slot.writer = none := by
  rw [Option.eq_none_iff_forall_not_mem]
  exact fun w hw => ht (h.slot_writer hfree hw).2

/-- A rollback, at the end of a transaction. -/
theorem Inv.rollback (h : Inv s) {txn : Option Txn} (htxn : Unlocked s.config.committed s.log txn) :
    Inv ((s.rollback t).enter t txn) := by
  by_cases ht : s.txns t = some .checking ∨ s.txns t = some .inserted
  · have hfree := h.free_of_locked ht
    obtain ⟨v, hv⟩ := h.locked t ht
    have hslot : (s.slot.rollback t).writer = none := by
      rcases s.slot.writer_cases t with ⟨w, hw⟩ | hw
      · rw [Row.rollback_of_writer hw, Row.idle_writer]
      · rw [Row.rollback_of_not_writer hw, Option.eq_none_iff_forall_not_mem]
        exact fun w hmem => hw w hmem (h.slot_writer hfree hmem).1
    have hinv := h.finish hfree hslot htxn id id h.retrieved h.cause
    rwa [← Row.rollback_of_writer hv] at hinv
  · have hconfig : s.config.rollback t = s.config :=
      Row.rollback_of_not_writer fun w hw heq => ht (heq ▸ (h.config w.1 w.2 hw).1)
    have hslot : s.slot.rollback t = s.slot :=
      Row.rollback_of_not_writer fun w hw heq => ht (.inr (heq ▸ h.slot w.1 w.2 hw))
    have hinv := h.enter ht htxn
    unfold State.rollback
    rw [hconfig, hslot]
    exact hinv

/-- A change of the instance by a request that commits at once. -/
theorem Inv.idleSlot (h : Inv s) (i : Option Instance) : Inv { s with slot := .idle i } :=
  ⟨h.config, fun _ _ hw => (by cases hw), h.locked, h.retrieved, h.cause, h.verified, h.committed⟩

/-- The locks do not depend on what has been loaded, nor on what has been
deleted. -/
theorem Inv.of_eq (h : Inv s) (hconfig : s'.config = s.config) (hslot : s'.slot = s.slot)
    (htxns : s'.txns = s.txns) (hlog : s'.log = s.log) : Inv s' := by
  refine ⟨?_, ?_, ?_, ?_, ?_, ?_, ?_⟩
  · rw [hconfig, htxns]
    exact h.config
  · rw [hslot, htxns]
    exact h.slot
  · rw [hconfig, htxns]
    exact h.locked
  · rw [hconfig, hlog]
    exact h.retrieved
  · rw [hconfig, hlog]
    exact h.cause
  · rw [hconfig, htxns]
    exact h.verified
  · rw [hlog, htxns]
    exact h.committed

/-- A request loads the config. -/
theorem Inv.load (h : Inv s) {txn : Txn} (ht : s.txns t = none)
    (htxn : Unlocked s.config.committed s.log (some txn)) : Inv (s.load t txn) :=
  (h.enter (by simp [ht]) htxn).of_eq rfl rfl rfl rfl

/-- An update of the config by a request that holds no lock, which it
commits at once. -/
theorem Inv.writeConfig (h : Inv s) {f : Config → Config} {txn : Option Txn}
    (hw : s.writeConfig t f = some s₁)
    (ht : ¬ (s.txns t = some .checking ∨ s.txns t = some .inserted))
    (hretrieved : s.config.committed.retrievedAt → (f s.config.committed).retrievedAt)
    (hverified : s.config.committed.verifiedAt → (f s.config.committed).verifiedAt)
    (hcause : (f s.config.committed).retrievedAt →
      s.log.countP Event.isCreated ≠ 0 ∨ (f s.config.committed).failedAt)
    (htxn : Unlocked (f s.config.committed) s.log txn) :
    Inv (s₁.enter t txn) ∧ s₁ = { s with config := .idle (f s.config.committed) } := by
  obtain ⟨hlock, rfl⟩ := writeConfig_eq_some.1 hw
  rw [h.seen_of_not_locked ht]
  have hfree := h.free_of_lockable hlock
  have hslot := h.slot_idle hfree fun heq => ht (.inr heq)
  exact ⟨h.finish hfree hslot htxn hverified id (fun hlog => hretrieved (h.retrieved hlog)) hcause,
    rfl⟩

/-- A claim flushes: the config is locked. -/
theorem Inv.flush (h : Inv s) (ht : s.txns t = some .claimed) {config : Row ℕ Config}
    (hconfig : s.config.update t (fun config => { config with retrievedAt := true }) =
      some config) :
    Inv { s.enter t (some .checking) with config } ∧ config.committed = s.config.committed := by
  obtain ⟨hlock, rfl⟩ := Row.update_eq_some.1 hconfig
  have hfree := h.free_of_lockable hlock
  have hseen := h.seen_of_not_locked (t := t) (by simp [ht])
  refine ⟨⟨fun u v hw => ?_, fun u v hw => ?_, fun u hu => ?_, h.retrieved, h.cause,
    fun u id active hu => ?_, fun u hu => ?_⟩, rfl⟩
  · obtain ⟨rfl, rfl⟩ := Prod.mk.inj (Option.some.inj hw)
    exact ⟨.inl (Function.update_self _ _ _), by rw [hseen]⟩
  · replace hw : s.slot.writer = some (u, v) := hw
    rw [h.slot_idle hfree (by simp [ht])] at hw
    cases hw
  · simp only [State.enter] at hu
    rcases txns_cases s t (some .checking) u with ⟨rfl, -⟩ | ⟨hne, heq⟩
    · exact ⟨_, rfl⟩
    · rw [heq] at hu
      exact absurd hu (not_or.2 (hfree u hne))
  · exact h.verified u id active (txns_of_ne hu (by simp))
  · exact h.committed u (txns_of_ne hu (by simp))

/-- A claim inserts its instance. -/
theorem Inv.insert (h : Inv s) (ht : s.txns t = some .checking)
    {f : Option Instance → Option Instance} {slot : Row ℕ (Option Instance)}
    (hslot : s.slot.update t f = some slot) : Inv { s.enter t (some .inserted) with slot } := by
  obtain ⟨-, rfl⟩ := Row.update_eq_some.1 hslot
  refine ⟨fun u v hw => ?_, fun u v hw => ?_, fun u hu => ?_, h.retrieved, h.cause,
    fun u id active hu => ?_, fun u hu => ?_⟩
  · obtain ⟨hphase, hv⟩ := h.config u v hw
    refine ⟨?_, hv⟩
    simp only [State.enter]
    rcases txns_cases s t (some .inserted) u with ⟨rfl, heq⟩ | ⟨-, heq⟩ <;> rw [heq]
    · exact .inr rfl
    · exact hphase
  · obtain ⟨rfl, rfl⟩ := Prod.mk.inj (Option.some.inj hw)
    exact Function.update_self _ _ _
  · simp only [State.enter] at hu
    rcases txns_cases s t (some .inserted) u with ⟨rfl, -⟩ | ⟨-, heq⟩
    · exact h.locked u (.inl ht)
    · rw [heq] at hu
      exact h.locked u hu
  · exact h.verified u id active (txns_of_ne hu (by simp))
  · exact h.committed u (txns_of_ne hu (by simp))

/-- A claim commits its instance. -/
theorem Inv.commitClaim (h : Inv s) (ht : s.txns t = some .inserted) :
    Inv { s.enter t (some .committed) with
      config := s.config.commit t
      slot := s.slot.commit t
      log := s.log ++ [.created s.config.committed] } ∧
    (s.config.commit t).committed = { s.config.committed with retrievedAt := true } := by
  have hfree := h.free_of_locked (.inr ht)
  obtain ⟨v, hv⟩ := h.locked t (.inr ht)
  obtain ⟨-, rfl⟩ := h.config t v hv
  have hslot : (s.slot.commit t).writer = none := by
    rcases s.slot.writer_cases t with ⟨w, hw⟩ | hw
    · rw [Row.commit_of_writer hw, Row.idle_writer]
    · rw [Row.commit_of_not_writer hw, Option.eq_none_iff_forall_not_mem]
      exact fun w hmem => hw w hmem (h.slot_writer hfree hmem).1
  have hlog : (s.log ++ [Event.created s.config.committed]).countP Event.isCreated ≠ 0 := by
    simp [Event.isCreated]
  have htxn : Unlocked { s.config.committed with retrievedAt := true }
      (s.log ++ [Event.created s.config.committed]) (some .committed) :=
    ⟨by simp, by simp, by simp, fun _ => hlog⟩
  rw [Row.commit_of_writer hv]
  exact ⟨h.finish hfree hslot htxn id (fun _ => hlog) (fun _ => rfl) (fun _ => .inl hlog), rfl⟩

/-- An activation is logged. -/
theorem Inv.activated (h : Inv s) (config : Config) :
    Inv { s with log := s.log ++ [.activated config] } := by
  have hcount : (s.log ++ [Event.activated config]).countP Event.isCreated =
      s.log.countP Event.isCreated := by
    simp [Event.isCreated]
  refine ⟨h.config, h.slot, h.locked, ?_, ?_, h.verified, ?_⟩
  · rw [hcount]
    exact h.retrieved
  · rw [hcount]
    exact h.cause
  · rw [hcount]
    exact h.committed

/-- **What a step leaves committed of the config**, and in the log. -/
def State.after (s : State) : Action → Config × List Event
  | .failClaim _ => ({ s.config.committed with retrievedAt := true, failedAt := true }, s.log)
  | .failNodes _ | .failVerify _ => ({ s.config.committed with failedAt := true }, s.log)
  | .commitClaim _ =>
    ({ s.config.committed with retrievedAt := true }, s.log ++ [.created s.config.committed])
  | .retrieve _ => ({ s.config.committed with retrievedAt := true }, s.log)
  | .succeed _ => ({ s.config.committed with verifiedAt := true }, s.log)
  | .commitActivate t =>
    (s.config.committed, if s.Activates t then s.log ++ [.activated s.config.committed] else s.log)
  | _ => (s.config.committed, s.log)

theorem activates_iff {instanceId : String} (ht : s.txns t = some (.activating instanceId false)) :
    s.Activates t ↔ s.slot.committed.any (·.instanceId = instanceId) := by
  unfold State.Activates
  cases s.slot.committed with
  | none => simp
  | some i => simp [ht, eq_comm]

/-- **The step lemma.** -/
theorem Inv.step (h : Inv s) (hs : step hasJob s a = some s') :
    Inv s' ∧ (s'.config.committed, s'.log) = s.after a := by
  cases a with
  | loadClaim t =>
    obtain ⟨⟨ht, -⟩, hs⟩ := Option.ite_none_right_eq_some.1 hs
    cases hs
    exact ⟨h.load ht ⟨by simp, by simp, by simp, by simp⟩, rfl⟩
  | flush t =>
    obtain ⟨ht, hs⟩ := Option.ite_none_right_eq_some.1 hs
    obtain ⟨config, hconfig, rfl⟩ := Option.map_eq_some_iff.1 hs
    obtain ⟨hinv, hcommitted⟩ := h.flush ht hconfig
    exact ⟨hinv, Prod.ext hcommitted rfl⟩
  | failClaim t =>
    obtain ⟨ht, hs⟩ := Option.ite_none_right_eq_some.1 hs
    obtain ⟨s₁, hw, rfl⟩ := Option.map_eq_some_iff.1 hs
    obtain ⟨hlock, rfl⟩ := writeConfig_eq_some.1 hw
    have hfree := h.free_of_lockable hlock
    have hslot := h.slot_idle hfree (by simp [ht])
    rw [h.seen_of_locked (.inl ht)]
    exact ⟨h.finish hfree hslot (unlocked_none _ _) id id (fun _ => rfl) (fun _ => .inr rfl), rfl⟩
  | insert t instanceId =>
    obtain ⟨ht, hs⟩ := Option.ite_none_right_eq_some.1 hs
    obtain ⟨slot, hslot, rfl⟩ := Option.map_eq_some_iff.1 hs
    split
    · exact ⟨h.insert ht hslot, rfl⟩
    · refine ⟨h.rollback ?_, by simp [State.rollback, State.enter, State.after]⟩
      cases hasJob
      · exact ⟨by simp, by simp, by simp, by simp⟩
      · exact unlocked_none _ _
  | rollbackNodes t =>
    obtain ⟨-, hs⟩ := Option.ite_none_right_eq_some.1 hs
    cases hs
    refine ⟨h.rollback ⟨by simp, by simp, by simp, by simp⟩, ?_⟩
    simp [State.rollback, State.enter, State.after]
  | failNodes t =>
    obtain ⟨ht, hs⟩ := Option.ite_none_right_eq_some.1 hs
    obtain ⟨s₁, hw, rfl⟩ := Option.map_eq_some_iff.1 hs
    obtain ⟨hinv, rfl⟩ := h.writeConfig hw (by simp [ht]) id id (fun _ => .inr rfl)
      (unlocked_none _ _)
    exact ⟨hinv, rfl⟩
  | commitClaim t =>
    obtain ⟨ht, hs⟩ := Option.ite_none_right_eq_some.1 hs
    cases hs
    obtain ⟨hinv, hcommitted⟩ := h.commitClaim ht
    exact ⟨hinv, Prod.ext hcommitted rfl⟩
  | retrieve t =>
    obtain ⟨ht, hs⟩ := Option.ite_none_right_eq_some.1 hs
    obtain ⟨s₁, hw, rfl⟩ := Option.map_eq_some_iff.1 hs
    obtain ⟨hinv, rfl⟩ := h.writeConfig hw (by simp [ht]) (fun _ => rfl) id
      (fun _ => .inl (h.committed t ht)) (unlocked_none _ _)
    exact ⟨hinv, rfl⟩
  | loadVerify t =>
    obtain ⟨⟨ht, -⟩, hs⟩ := Option.ite_none_right_eq_some.1 hs
    cases hs
    exact ⟨h.load ht ⟨by simp, by simp, by simp, by simp⟩, rfl⟩
  | findInstance t =>
    obtain ⟨ht, hs⟩ := Option.ite_none_right_eq_some.1 hs
    cases hs
    exact ⟨h.enter (by simp [ht]) ⟨by simp, by simp, by simp, by simp⟩, rfl⟩
  | failVerify t =>
    simp only [Provision.step] at hs
    split at hs
    · next ht =>
      obtain ⟨s₁, hw, rfl⟩ := Option.map_eq_some_iff.1 hs
      obtain ⟨hinv, rfl⟩ := h.writeConfig hw (by simp [ht]) id id (fun _ => .inr rfl)
        (unlocked_none _ _)
      exact ⟨hinv, rfl⟩
    · next instanceId ht =>
      -- The instance that was found is deleted with the failure.
      simp only [Option.bind_eq_bind, Option.bind_eq_some_iff] at hs
      obtain ⟨s₁, hw, s₂, hw₂, hs⟩ := hs
      obtain ⟨hinv, rfl⟩ := h.writeConfig hw (by simp [ht]) id id (fun _ => .inr rfl)
        (unlocked_none _ _)
      obtain ⟨-, rfl⟩ := deleteSlot_eq_some.1 hw₂
      cases hs
      exact ⟨(hinv.idleSlot _).of_eq rfl rfl rfl rfl, rfl⟩
    · cases hs
  | succeed t =>
    simp only [Provision.step] at hs
    split at hs
    · next instanceId ht =>
      simp only [Option.bind_eq_bind, Option.bind_eq_some_iff] at hs
      obtain ⟨s₁, hw, s₂, hw₂, hs⟩ := hs
      obtain ⟨hinv, rfl⟩ := h.writeConfig hw (by simp [ht]) id (fun _ => rfl) h.cause
        (unlocked_none _ _)
      obtain ⟨-, rfl⟩ := writeSlot_eq_some.1 hw₂
      cases hs
      exact ⟨hinv.idleSlot _, rfl⟩
    · cases hs
  | loadActivate t =>
    simp only [Provision.step] at hs
    split at hs
    · obtain ⟨⟨ht, hverified⟩, hs⟩ := Option.ite_none_right_eq_some.1 hs
      cases hs
      exact ⟨h.load ht ⟨by simp, by simp, fun _ _ _ => hverified, by simp⟩, rfl⟩
    · cases hs
  | commitActivate t =>
    simp only [Provision.step] at hs
    split at hs
    · next instanceId ht =>
      have hended := h.enter (t := t) (by simp [ht]) (unlocked_none _ _)
      -- Deleted since it was found, there is no instance to activate.
      split at hs
      · next hexists =>
        obtain ⟨s₁, hw, rfl⟩ := Option.map_eq_some_iff.1 hs
        obtain ⟨-, rfl⟩ := writeSlot_eq_some.1 hw
        refine ⟨(hended.idleSlot _).activated _, ?_⟩
        simp only [State.after, if_pos ((activates_iff ht).2 hexists)]
        rfl
      · next hgone =>
        cases hs
        refine ⟨hended, ?_⟩
        simp only [State.after, if_neg (mt (activates_iff ht).1 hgone)]
        rfl
    · next instanceId ht =>
      cases hs
      refine ⟨h.enter (by simp [ht]) (unlocked_none _ _), ?_⟩
      have hnot : ¬ s.Activates t := by simp [State.Activates, ht]
      simp only [State.after, if_neg hnot]
      rfl
    · cases hs
  | abort t =>
    obtain ⟨-, hs⟩ := Option.ite_none_left_eq_some.1 hs
    cases hs
    exact ⟨h.rollback (unlocked_none _ _), by simp [State.rollback, State.enter, State.after]⟩
  | deleteInstance t =>
    obtain ⟨ht, hs⟩ := Option.ite_none_right_eq_some.1 hs
    obtain ⟨-, rfl⟩ := deleteSlot_eq_some.1 hs
    exact ⟨(h.idleSlot _).of_eq rfl rfl rfl rfl, rfl⟩

/-! ## What a request has checked -/

/-- What a config has been through stays. -/
structure Config.Before (c c' : Config) : Prop where
  retrieved : c.retrievedAt → c'.retrievedAt
  failed : c.failedAt → c'.failedAt

theorem Config.Before.refl (c : Config) : c.Before c := ⟨id, id⟩

theorem Config.Before.trans {c₁ c₂ c₃ : Config} (h : c₁.Before c₂) (h' : c₂.Before c₃) :
    c₁.Before c₃ :=
  ⟨h'.retrieved ∘ h.retrieved, h'.failed ∘ h.failed⟩

/-- **What a request that goes on has found** in the config that it loaded: a
claim one that was not retrieved, so that it was not verified and had no
instance, a verification one that was retrieved, and an activation, by the
law, one that had not failed. -/
def Txn.Checked (loaded : Loaded) : Txn → Prop
  | .claimed | .checking | .inserted | .invalidNodes =>
    loaded.config.verifiedAt = false ∧ loaded.deleted = 0
  | .committed => True
  | .verifying | .found _ => loaded.config.retrievedAt ∧ loaded.config.verifiedAt = false ∧
      loaded.config.failedAt = false
  | .activating _ _ => loaded.config.failedAt = false

/-- **What the requests have checked still says something** of the config
that is committed: an instance that is inserted is the only one, by the
constraint, and each one that was created is there or has been deleted. -/
structure Loads (s : State) : Prop where
  checked : ∀ t, ∀ txn ∈ s.txns t, txn.Checked (s.loaded t)
  before : ∀ t, (s.loaded t).config.Before s.config.committed
  inserted : ∀ t, s.txns t = some .inserted →
    s.slot.committed = none ∧ ∃ i, s.slot.writer = some (t, some i)
  balance : s.log.countP Event.isCreated = s.deleted + s.slot.committed.toList.length
  retrieved : s.config.committed.verifiedAt → s.config.committed.retrievedAt

theorem loads_start : Loads start where
  checked _ _ htxn := by cases htxn
  before _ := .refl _
  inserted _ ht := by cases ht
  balance := rfl
  retrieved h := by cases h

/-- A request goes on, with the columns of the config growing. -/
theorem Loads.move (h : Loads s) {txn : Option Txn}
    (htxns : s'.txns = Function.update s.txns t txn) (hloaded : s'.loaded = s.loaded)
    (hchecked : ∀ x ∈ txn, x.Checked (s.loaded t))
    (hbefore : s.config.committed.Before s'.config.committed)
    (hretrieved : s'.config.committed.verifiedAt → s'.config.committed.retrievedAt)
    (hinserted : ∀ u, s'.txns u = some .inserted →
      s'.slot.committed = none ∧ ∃ i, s'.slot.writer = some (u, some i))
    (hbalance : s'.log.countP Event.isCreated = s'.deleted + s'.slot.committed.toList.length) :
    Loads s' := by
  refine ⟨fun u x hx => ?_, fun u => ?_, hinserted, hbalance, hretrieved⟩
  · rw [htxns] at hx
    rw [hloaded]
    rcases txns_cases s t txn u with ⟨rfl, heq⟩ | ⟨-, heq⟩ <;> rw [heq] at hx
    · exact hchecked x hx
    · exact h.checked u x hx
  · rw [hloaded]
    exact (h.before u).trans hbefore

/-- The same, where the instance is left alone. -/
theorem Loads.keep (h : Loads s) {txn : Option Txn}
    (htxns : s'.txns = Function.update s.txns t txn) (hloaded : s'.loaded = s.loaded)
    (hchecked : ∀ x ∈ txn, x.Checked (s.loaded t))
    (hbefore : s.config.committed.Before s'.config.committed)
    (hretrieved : s'.config.committed.verifiedAt → s'.config.committed.retrievedAt)
    (htxn : txn ≠ some .inserted) (hslot : s'.slot = s.slot)
    (hlog : s'.log = s.log) (hdeleted : s'.deleted = s.deleted) : Loads s' := by
  refine h.move htxns hloaded hchecked hbefore hretrieved (fun u hu => ?_) ?_
  · rw [htxns] at hu
    rw [hslot]
    rcases txns_cases s t txn u with ⟨rfl, heq⟩ | ⟨-, heq⟩ <;> rw [heq] at hu
    · exact absurd hu htxn
    · exact h.inserted u hu
  · rw [hslot, hlog, hdeleted]
    exact h.balance

/-- A request loads the config. -/
theorem Loads.load (h : Loads s) {txn : Txn}
    (hchecked : txn.Checked ⟨s.config.committed, s.deleted⟩) (htxn : txn ≠ .inserted) :
    Loads (s.load t txn) := by
  refine ⟨fun u x hx => ?_, fun u => ?_, fun u hu => ?_, h.balance, h.retrieved⟩
  · simp only [State.load, State.enter] at hx ⊢
    rcases eq_or_ne u t with rfl | hne
    · rw [Function.update_self, Option.mem_some_iff] at hx
      rw [Function.update_self, ← hx]
      exact hchecked
    · rw [Function.update_of_ne hne] at hx ⊢
      exact h.checked u x hx
  · simp only [State.load]
    rcases eq_or_ne u t with rfl | hne
    · rw [Function.update_self]
      exact .refl _
    · rw [Function.update_of_ne hne]
      exact h.before u
  · refine h.inserted u (txns_of_ne hu fun heq => htxn ?_)
    exact Option.some.inj heq

/-- While another one can write the instance, nobody is inserting one. -/
theorem Loads.not_inserted (h : Loads s) (hlock : s.slot.Lockable t)
    (ht : s.txns t ≠ some .inserted) (u : ℕ) : s.txns u ≠ some .inserted := by
  intro hu
  obtain ⟨-, i, hw⟩ := h.inserted u hu
  have heq : u = t := hlock (u, some i) hw
  exact ht (heq ▸ hu)

/-- A rollback, at the end of a transaction. -/
theorem Loads.rollback (h : Loads s) {txn : Option Txn}
    (hchecked : ∀ x ∈ txn, x.Checked (s.loaded t)) (htxn : txn ≠ some .inserted) :
    Loads ((s.rollback t).enter t txn) := by
  have hconfig : (s.config.rollback t).committed = s.config.committed := by simp
  have hslot : (s.slot.rollback t).committed = s.slot.committed := by simp
  refine h.move rfl rfl hchecked ?_ ?_ (fun u hu => ?_) ?_
  · rw [show ((s.rollback t).enter t txn).config.committed = s.config.committed from hconfig]
    exact .refl _
  · rw [show ((s.rollback t).enter t txn).config.committed = s.config.committed from hconfig]
    exact h.retrieved
  · simp only [State.enter] at hu
    rcases txns_cases (s.rollback t) t txn u with ⟨rfl, heq⟩ | ⟨hne, heq⟩ <;> rw [heq] at hu
    · exact absurd hu htxn
    · obtain ⟨hnone, i, hw⟩ := h.inserted u hu
      refine ⟨hslot.trans hnone, i, ?_⟩
      show (s.slot.rollback t).writer = _
      rw [Row.rollback_of_not_writer, hw]
      rintro w hmem rfl
      rw [hw, Option.mem_some_iff] at hmem
      exact hne (by rw [← hmem])
  · show _ = s.deleted + (s.slot.rollback t).committed.toList.length
    rw [hslot]
    exact h.balance

/-- An instance that is deleted is no longer there. -/
theorem length_filter_not (meant : Instance → Bool) (i : Option Instance) :
    (i.filter meant).toList.length + (i.filter fun i => !meant i).toList.length =
      i.toList.length := by
  cases i with
  | none => rfl
  | some i => cases hi : meant i <;> simp [Option.filter, hi]

/-- **The step lemma** of what is checked. -/
theorem Loads.step (h : Loads s) (hinv : Inv s) (hlaw : Lawful s)
    (hs : step hasJob s a = some s') : Loads s' := by
  have hseen : ∀ t, s.txns t ≠ some .inserted → s.slot.seen t = s.slot.committed :=
    fun t ht => Row.seen_of_not_writer fun w hw heq => ht (heq ▸ hinv.slot w.1 w.2 hw)
  cases a with
  | loadClaim t =>
    obtain ⟨⟨-, hretrieved⟩, hs⟩ := Option.ite_none_right_eq_some.1 hs
    cases hs
    refine h.load ⟨?_, ?_⟩ (by simp)
    · by_contra hverified
      rw [h.retrieved (by simpa using hverified)] at hretrieved
      cases hretrieved
    · have hnone : s.log.countP Event.isCreated = 0 := by
        by_contra hcount
        rw [hinv.retrieved hcount] at hretrieved
        cases hretrieved
      have hbalance := h.balance
      show s.deleted = 0
      omega
  | flush t =>
    obtain ⟨ht, hs⟩ := Option.ite_none_right_eq_some.1 hs
    obtain ⟨config, hconfig, rfl⟩ := Option.map_eq_some_iff.1 hs
    obtain ⟨-, rfl⟩ := Row.update_eq_some.1 hconfig
    have hchecked := h.checked t _ ht
    exact h.keep rfl rfl (by rintro x ⟨⟩; exact hchecked) (.refl _) h.retrieved (by simp) rfl rfl
      rfl
  | failClaim t =>
    obtain ⟨ht, hs⟩ := Option.ite_none_right_eq_some.1 hs
    obtain ⟨s₁, hw, rfl⟩ := Option.map_eq_some_iff.1 hs
    obtain ⟨-, rfl⟩ := writeConfig_eq_some.1 hw
    rw [hinv.seen_of_locked (.inl ht)]
    exact h.keep rfl rfl (by simp) ⟨fun _ => rfl, fun _ => rfl⟩ (fun _ => rfl) (by simp) rfl rfl rfl
  | insert t instanceId =>
    obtain ⟨ht, hs⟩ := Option.ite_none_right_eq_some.1 hs
    obtain ⟨slot, hslot, rfl⟩ := Option.map_eq_some_iff.1 hs
    have hchecked := h.checked t _ ht
    split
    · next hnone =>
      obtain ⟨hlock, rfl⟩ := Row.update_eq_some.1 hslot
      have hother := h.not_inserted hlock (by simp [ht])
      refine h.move rfl rfl (by rintro x ⟨⟩; exact hchecked) (.refl _) h.retrieved (fun u hu => ?_)
        h.balance
      simp only [State.enter] at hu
      rcases txns_cases s t (some .inserted) u with ⟨rfl, -⟩ | ⟨-, heq⟩
      · exact ⟨hnone, _, rfl⟩
      · rw [heq] at hu
        exact absurd hu (hother u)
    · cases hasJob
      · exact h.rollback (by rintro x ⟨⟩; exact hchecked) (by simp)
      · exact h.rollback (by simp) (by simp)
  | rollbackNodes t =>
    obtain ⟨ht, hs⟩ := Option.ite_none_right_eq_some.1 hs
    cases hs
    have hchecked := h.checked t _ ht
    exact h.rollback (by rintro x ⟨⟩; exact hchecked) (by simp)
  | failNodes t =>
    obtain ⟨ht, hs⟩ := Option.ite_none_right_eq_some.1 hs
    obtain ⟨s₁, hw, rfl⟩ := Option.map_eq_some_iff.1 hs
    obtain ⟨-, rfl⟩ := writeConfig_eq_some.1 hw
    rw [hinv.seen_of_not_locked (by simp [ht])]
    exact h.keep rfl rfl (by simp) ⟨id, fun _ => rfl⟩ h.retrieved (by simp) rfl rfl rfl
  | commitClaim t =>
    obtain ⟨ht, hs⟩ := Option.ite_none_right_eq_some.1 hs
    cases hs
    obtain ⟨hnone, i, hw⟩ := h.inserted t ht
    obtain ⟨-, hcommitted⟩ := hinv.commitClaim ht
    have hfree := hinv.free_of_locked (.inr ht)
    -- The instance takes the free place.
    have hbalance := h.balance
    rw [hnone] at hbalance
    refine h.move rfl rfl (by rintro x ⟨⟩; exact trivial) ?_ ?_ (fun u hu => ?_) ?_
    · show s.config.committed.Before (s.config.commit t).committed
      rw [hcommitted]
      exact ⟨fun _ => rfl, id⟩
    · show (s.config.commit t).committed.verifiedAt → (s.config.commit t).committed.retrievedAt
      rw [hcommitted]
      exact fun _ => rfl
    · rcases txns_cases s t (some .committed) u with ⟨rfl, heq⟩ | ⟨hne, heq⟩
      · simp only [State.enter, heq] at hu
        cases hu
      · simp only [State.enter, heq] at hu
        exact absurd hu (hfree u hne).2
    · show (s.log ++ [Event.created s.config.committed]).countP Event.isCreated =
        s.deleted + (s.slot.commit t).committed.toList.length
      have hone : [Event.created s.config.committed].countP Event.isCreated = 1 := rfl
      rw [Row.commit_of_writer hw, List.countP_append, hbalance, hone]
      rfl
  | retrieve t =>
    obtain ⟨ht, hs⟩ := Option.ite_none_right_eq_some.1 hs
    obtain ⟨s₁, hw, rfl⟩ := Option.map_eq_some_iff.1 hs
    obtain ⟨-, rfl⟩ := writeConfig_eq_some.1 hw
    rw [hinv.seen_of_not_locked (by simp [ht])]
    exact h.keep rfl rfl (by simp) ⟨fun _ => rfl, id⟩ (fun _ => rfl) (by simp) rfl rfl rfl
  | loadVerify t =>
    obtain ⟨⟨-, hchecked⟩, hs⟩ := Option.ite_none_right_eq_some.1 hs
    cases hs
    exact h.load hchecked (by simp)
  | findInstance t =>
    obtain ⟨ht, hs⟩ := Option.ite_none_right_eq_some.1 hs
    cases hs
    have hchecked := h.checked t _ ht
    exact h.keep rfl rfl (by rintro x ⟨⟩; exact hchecked) (.refl _) h.retrieved (by simp) rfl rfl
      rfl
  | failVerify t =>
    simp only [Provision.step] at hs
    split at hs
    · next ht =>
      obtain ⟨s₁, hw, rfl⟩ := Option.map_eq_some_iff.1 hs
      obtain ⟨-, rfl⟩ := writeConfig_eq_some.1 hw
      rw [hinv.seen_of_not_locked (by simp [ht])]
      exact h.keep rfl rfl (by simp) ⟨id, fun _ => rfl⟩ h.retrieved (by simp) rfl rfl rfl
    · next instanceId ht =>
      simp only [Option.bind_eq_bind, Option.bind_eq_some_iff] at hs
      obtain ⟨s₁, hw, s₂, hw₂, hs⟩ := hs
      obtain ⟨-, rfl⟩ := writeConfig_eq_some.1 hw
      obtain ⟨hlock, rfl⟩ := deleteSlot_eq_some.1 hw₂
      cases hs
      have hother := h.not_inserted hlock (by simp [ht])
      rw [hinv.seen_of_not_locked (by simp [ht]), hseen t (by simp [ht])]
      refine h.move rfl rfl (by simp) ⟨id, fun _ => rfl⟩ h.retrieved (fun u hu => ?_) ?_
      · exact absurd (txns_of_ne hu (by simp)) (hother u)
      · have hbalance := h.balance
        have hlength := length_filter_not (fun i => i.instanceId = instanceId) s.slot.committed
        simp only [State.enter, Row.idle_committed]
        omega
    · cases hs
  | succeed t =>
    simp only [Provision.step] at hs
    split at hs
    · next instanceId ht =>
      simp only [Option.bind_eq_bind, Option.bind_eq_some_iff] at hs
      obtain ⟨s₁, hw, s₂, hw₂, hs⟩ := hs
      obtain ⟨-, rfl⟩ := writeConfig_eq_some.1 hw
      obtain ⟨hlock, rfl⟩ := writeSlot_eq_some.1 hw₂
      cases hs
      have hother := h.not_inserted hlock (by simp [ht])
      have hbalance := h.balance
      -- A verification goes on with a config that was retrieved.
      have hretrieved := (h.before t).retrieved (h.checked t _ ht).1
      rw [hinv.seen_of_not_locked (by simp [ht]), hseen t (by simp [ht])]
      refine h.move rfl rfl (by simp) (.mk id id) (fun _ => hretrieved) (fun u hu => ?_) ?_
      · exact absurd (txns_of_ne hu (by simp)) (hother u)
      · simp only [State.enter, Row.idle_committed, Option.toList_map, List.length_map]
        exact hbalance
    · cases hs
  | loadActivate t =>
    simp only [Provision.step] at hs
    split at hs
    · obtain ⟨⟨-, hverified⟩, hs⟩ := Option.ite_none_right_eq_some.1 hs
      cases hs
      refine h.load ?_ (by simp)
      show s.config.committed.failedAt = false
      by_contra hfailed
      exact hlaw.exclusive ⟨hverified, by simpa using hfailed⟩
    · cases hs
  | commitActivate t =>
    simp only [Provision.step] at hs
    split at hs
    · next instanceId ht =>
      split at hs
      · obtain ⟨s₁, hw, rfl⟩ := Option.map_eq_some_iff.1 hs
        obtain ⟨hlock, rfl⟩ := writeSlot_eq_some.1 hw
        have hother := h.not_inserted hlock (by simp [ht])
        have hbalance := h.balance
        rw [hseen t (by simp [ht])]
        refine h.move rfl rfl (by simp) (.refl _) h.retrieved (fun u hu => ?_) ?_
        · exact absurd (txns_of_ne hu (by simp)) (hother u)
        · simp only [State.enter, Row.idle_committed, Option.toList_map, List.length_map]
          rw [List.countP_append, hbalance]
          rfl
      · cases hs
        exact h.keep rfl rfl (by simp) (.refl _) h.retrieved (by simp) rfl rfl rfl
    · cases hs
      exact h.keep rfl rfl (by simp) (.refl _) h.retrieved (by simp) rfl rfl rfl
    · cases hs
  | abort t =>
    obtain ⟨-, hs⟩ := Option.ite_none_left_eq_some.1 hs
    cases hs
    exact h.rollback (by simp) (by simp)
  | deleteInstance t =>
    obtain ⟨ht, hs⟩ := Option.ite_none_right_eq_some.1 hs
    obtain ⟨hlock, rfl⟩ := deleteSlot_eq_some.1 hs
    have hother := h.not_inserted hlock (by simp [ht])
    refine ⟨h.checked, h.before, fun u hu => absurd hu (hother u), ?_, h.retrieved⟩
    have hbalance := h.balance
    have hlength := length_filter_not (fun _ => true) s.slot.committed
    rw [hseen t (by simp [ht])]
    simp only [Row.idle_committed]
    omega

theorem inv_start : Inv start :=
  ⟨fun _ _ hw => (by cases hw), fun _ _ hw => (by cases hw), fun _ hu => (by simp [start] at hu),
    fun hlog => (by simp [start] at hlog), fun hretrieved => (by cases hretrieved),
    fun _ _ _ hu => (by cases hu), fun _ hu => (by cases hu)⟩

/-! ## The law -/

/-- What the law asks of an event that is logged. -/
theorem Lawful.append_iff (hl : Lawful s) {e : Event} (hlog : s'.log = s.log ++ [e]) :
    Lawful s' ↔ (s.log ++ [e]).countP Event.isCreated ≤ 1 ∧
      (∀ config, e = .created config → config.failedAt = false) ∧
      ¬ (s'.config.committed.verifiedAt ∧ s'.config.committed.failedAt) ∧
      ∀ config, e = .activated config → config.verifiedAt ∧ config.failedAt = false := by
  have hmem : ∀ e', e' ∈ s'.log ↔ e' ∈ s.log ∨ e = e' := fun e' => by
    rw [hlog, List.mem_append, List.mem_singleton, eq_comm (a := e)]
  constructor
  · intro h
    refine ⟨hlog ▸ h.once, fun config he => ?_, h.exclusive, fun config he => ?_⟩
    · exact h.created config ((hmem _).2 (.inr he))
    · exact h.activated config ((hmem _).2 (.inr he))
  · rintro ⟨honce, hcreated, hexclusive, hactivated⟩
    refine ⟨hlog ▸ honce, fun config he => ?_, hexclusive, fun config he => ?_⟩
    · exact ((hmem _).1 he).elim (hl.created config) (hcreated config)
    · exact ((hmem _).1 he).elim (hl.activated config) (hactivated config)

/-- Who fails has loaded a config that was not verified. -/
theorem Loads.failed (h : Loads s) (hs : Provision.step hasJob s a = some s')
    (ha : a = .failClaim t ∨ a = .failNodes t ∨ a = .failVerify t) :
    (s.loaded t).config.verifiedAt = false := by
  rcases ha with rfl | rfl | rfl
  · obtain ⟨ht, -⟩ := Option.ite_none_right_eq_some.1 hs
    exact (h.checked t _ ht).1
  · obtain ⟨ht, -⟩ := Option.ite_none_right_eq_some.1 hs
    exact (h.checked t _ ht).1
  · simp only [Provision.step] at hs
    split at hs
    · next ht => exact (h.checked t _ ht).2.1
    · next ht => exact (h.checked t _ ht).2.1
    · cases hs

/-- Who succeeds has loaded one that had not failed. -/
theorem Loads.succeeded (h : Loads s)
    (hs : Provision.step hasJob s (.succeed t) = some s') :
    (s.loaded t).config.failedAt = false := by
  simp only [Provision.step] at hs
  split at hs
  · next ht => exact (h.checked t _ ht).2.2
  · cases hs

/-- **The instance that a claim commits is the first one** exactly if none
has been deleted since its load: it has found no other, and there was none
when it loaded the config. -/
theorem Loads.first_iff (h : Loads s) (ht : s.txns t = some .inserted) :
    s.log.countP Event.isCreated = 0 ↔ s.deleted = (s.loaded t).deleted := by
  have hloaded := (h.checked t _ ht).2
  have hbalance := h.balance
  rw [(h.inserted t ht).1] at hbalance
  simp only [Option.toList_none, List.length_nil] at hbalance
  omega

/-- **A step keeps the law exactly if it is not overtaken.** -/
theorem lawful_step_iff (h : Inv s) (hloads : Loads s) (hl : Lawful s)
    (hs : step hasJob s a = some s') : Lawful s' ↔ Unovertaken s a := by
  obtain ⟨hconfig, hlog⟩ := Prod.mk.inj (h.step hs).2
  have hflags : s'.log = s.log → (Lawful s' ↔
      ¬ (s'.config.committed.verifiedAt ∧ s'.config.committed.failedAt)) := fun hg =>
    ⟨fun h' => h'.exclusive, fun he => ⟨hg ▸ hl.once, hg ▸ hl.created, he, hg ▸ hl.activated⟩⟩
  have hexclusive := hl.exclusive
  cases a with
  | loadClaim | flush | insert | rollbackNodes | loadVerify | findInstance | loadActivate | abort
  | deleteInstance | retrieve =>
    simp only at hconfig hlog
    refine iff_of_true ((hflags hlog).2 ?_) trivial
    rw [hconfig]
    exact hexclusive
  | failClaim t | failNodes t | failVerify t =>
    have hloaded : (s.loaded t).config.verifiedAt = false := hloads.failed hs (by simp)
    simp only at hconfig hlog
    rw [hflags hlog, hconfig]
    simp [Unovertaken, hloaded]
  | succeed t =>
    have hloaded := hloads.succeeded hs
    simp only at hconfig hlog
    rw [hflags hlog, hconfig]
    simp [Unovertaken, hloaded]
  | commitClaim t =>
    obtain ⟨ht, -⟩ := Option.ite_none_right_eq_some.1 hs
    have hfirst := hloads.first_iff ht
    have hone : [Event.created s.config.committed].countP Event.isCreated = 1 := rfl
    simp only at hconfig hlog
    rw [hl.append_iff hlog, hconfig, List.countP_append, hone]
    constructor
    · rintro ⟨honce, hcreated, -, -⟩
      have hfailed : s.config.committed.failedAt = false := hcreated _ rfl
      have hloaded : (s.loaded t).config.failedAt = false := by
        by_contra hne
        rw [(hloads.before t).failed (by simpa using hne)] at hfailed
        cases hfailed
      exact ⟨hloaded, hfailed.trans hloaded.symm, hfirst.1 (by omega)⟩
    · rintro ⟨hloaded, hsince, hdeleted⟩
      have hnone := hfirst.2 hdeleted
      refine ⟨by omega, fun config he => ?_, hexclusive, fun config he => (by cases he)⟩
      cases he
      exact hsince.trans hloaded
  | commitActivate t =>
    simp only at hconfig hlog
    by_cases hactivates : s.Activates t
    · rw [if_pos hactivates] at hlog
      have hunovertaken : Unovertaken s (.commitActivate t) ↔
          s.config.committed.failedAt = (s.loaded t).config.failedAt :=
        ⟨fun h' => h' hactivates, fun h' _ => h'⟩
      obtain ⟨i, -, ht⟩ := hactivates
      have hverified := h.verified t _ _ ht
      have hloaded : (s.loaded t).config.failedAt = false := hloads.checked t _ ht
      rw [hunovertaken, hloaded, hl.append_iff hlog, hconfig]
      constructor
      · rintro ⟨-, -, -, hactivated⟩
        exact (hactivated _ rfl).2
      · intro hfailed
        refine ⟨?_, fun config he => (by cases he), hexclusive, fun config he => ?_⟩
        · rw [List.countP_append]
          exact hl.once
        · cases he
          exact ⟨hverified, hfailed⟩
    · rw [if_neg hactivates] at hlog
      refine iff_of_true ((hflags hlog).2 ?_) fun hact => absurd hact hactivates
      rw [hconfig]
      exact hexclusive

theorem lawful_start : Lawful start :=
  ⟨by decide, by simp [start], by decide, by simp [start]⟩

/-- **The lifecycle of a launch config**: it is kept exactly as long as
nobody overtakes a request between its load and its commit. -/
theorem lawful_iff (actions : List Action)
    (he : (system hasJob).exec start actions = some s') :
    (∀ done t, done <+: actions → (system hasJob).exec start done = some t → Lawful t) ↔
      (system hasJob).Meets Unovertaken start actions :=
  Lts.forall_prefix_iff_meets (J := fun s => Inv s ∧ Loads s)
    (fun _ _ _ hJ hl hs _ => ⟨(hJ.1.step hs).1, hJ.2.step hJ.1 hl hs⟩)
    (fun _ _ _ hJ hl hs => lawful_step_iff hJ.1 hJ.2 hl hs) ⟨inv_start, loads_start⟩ lawful_start he

section

/-- A claim that goes through, and two verifications that have both checked
the config. -/
private def claimed : List Action :=
  [.loadClaim 0, .flush 0, .insert 0 "i", .commitClaim 0, .retrieve 0]

private def verified (t : ℕ) : List Action := [.loadVerify t, .findInstance t]

/-- One verification succeeds, and the instance is activated. -/
private def activated : List Action :=
  claimed ++ verified 1 ++ [.succeed 1, .loadActivate 2, .commitActivate 2]

theorem lawful_iff_activated :
    ∃ s', (system false).exec start activated = some s' ∧
      ((∀ done t, done <+: activated → (system false).exec start done = some t → Lawful t) ↔
        (system false).Meets Unovertaken start activated) :=
  ⟨_, rfl, lawful_iff activated rfl⟩

/-- **Verified and failed**: one verification succeeds, and the other, which
has checked the config before, does not. -/
theorem not_lawful : ¬ ∀ hasJob as s, (system hasJob).Run as s → Lawful s := by
  intro h
  have hr : (system false).Run
      (claimed ++ verified 1 ++ verified 2 ++ [.succeed 1, .failVerify 2]) _ :=
    Lts.reach_of_exec rfl (Lts.meets_of_forall (fun _ _ _ => trivial) _) rfl
  exact (h _ _ _ hr).exclusive (by decide +kernel)

end

end Provision

end ChutesApi
