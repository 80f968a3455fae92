import ChutesApi.Common.Lts
import Mathlib.Logic.Function.Basic
/-!
# The payment monitor's lock

Any number of monitors share the one row of `payment_monitor_state`. A
monitor acquires it by a conditional update, which also takes over a lock
whose row has not been updated for `lock_timeout`, saves its progress in it,
and releases it in a `finally` that every way out of its main loop passes
through, that of a monitor that never acquired the lock included.

Neither the release nor the save compares `lock_holder` with the monitor
that performs it. The lock works in the runs whose releases are all by the
recorded holder (`lock_lawful`), and in a run with one other release two
monitors are inside the block loop at once (`not_lock_lawful`).
-/

namespace ChutesApi

namespace MonitorLock

/-- The row of `payment_monitor_state`. -/
structure Row (μ : Type*) where
  blockNumber : ℕ
  isLocked : Bool
  lockHolder : Option μ
  lockedAt : Option ℕ
  lastUpdatedAt : ℕ
  deriving DecidableEq

section Row

variable {μ : Type*}

/-- The `where` of `_lock`. -/
def Row.Lockable (row : Row μ) (lockTimeout now : ℕ) : Prop :=
  row.isLocked = false ∨ row.lastUpdatedAt + lockTimeout ≤ now

instance (row : Row μ) (lockTimeout now : ℕ) : Decidable (row.Lockable lockTimeout now) := by
  unfold Row.Lockable
  infer_instance

/-- The `values` of `_lock`. -/
def Row.lock (row : Row μ) (m : μ) (now : ℕ) : Row μ :=
  { row with isLocked := true, lockHolder := some m, lockedAt := some now, lastUpdatedAt := now }

/-- `_unlock`. -/
def Row.unlock (row : Row μ) : Row μ :=
  { row with isLocked := false, lockHolder := none, lockedAt := none }

/-- `_save_state`. -/
def Row.save (row : Row μ) (blockNumber now : ℕ) : Row μ :=
  { row with blockNumber, lastUpdatedAt := now }

/-- `_get_state`: a monitor that is too far behind skips ahead. -/
def getState (maxRecoveryBlocks saved head : ℕ) : ℕ :=
  if head - saved > maxRecoveryBlocks then head - maxRecoveryBlocks else saved

theorem le_getState (maxRecoveryBlocks saved head : ℕ) :
    saved ≤ getState maxRecoveryBlocks saved head := by
  unfold getState
  split <;> omega

end Row

/-- Where a monitor is in `monitor_transfers`. -/
inductive Phase
  /-- Not started, or ended. -/
  | ended
  /-- At the head of the outer loop, to acquire the lock or to sleep. -/
  | waiting
  | locked
  /-- After `_get_state`. -/
  | loaded (current : ℕ)
  /-- At the head of the inner loop. -/
  | loop (current latest : ℕ)
  /-- Waiting for the block to advance. -/
  | polling (current : ℕ)
  /-- Processing the events of the current block, then saving. -/
  | processing (current latest : ℕ)
  /-- In the `finally`. -/
  | releasing
  deriving DecidableEq, Repr

/-- Inside the inner block loop. -/
def Phase.InLoop : Phase → Prop
  | .loop _ _ | .polling _ | .processing _ _ => True
  | _ => False

/-- The block a monitor is at, once it has loaded the state. -/
def Phase.current : Phase → Option ℕ
  | .loaded c | .loop c _ | .polling c | .processing c _ => some c
  | _ => none

/-- Between the acquisition and the way out. -/
def Phase.Running (p : Phase) : Prop := p = .locked ∨ p.current.isSome

instance (p : Phase) : Decidable p.Running := by
  unfold Phase.Running
  infer_instance

theorem Phase.InLoop.running {p : Phase} (h : p.InLoop) : p.Running := by
  cases p <;> simp_all [InLoop, Running, current]

/-- The row, the clock, and the monitors' phases and `is_running` flags. -/
structure State (μ : Type*) where
  row : Row μ
  now : ℕ
  phase : μ → Phase
  isRunning : μ → Bool

/-- A step. A transaction's `now()` is the time at which it started. -/
inductive Action (μ : Type*)
  | start (m : μ)
  /-- `stop`, from outside. -/
  | stop (m : μ)
  /-- One call of `_lock`. -/
  | lock (m : μ) (now : ℕ)
  | load (m : μ) (head : ℕ)
  | enter (m : μ) (latest : ℕ)
  /-- The tests at the head of the inner loop. -/
  | loop (m : μ)
  | poll (m : μ) (latest : ℕ)
  /-- The block's events, then `_save_state`, which swallows its exceptions. -/
  | save (m : μ) (now : ℕ) (committed : Bool)
  /-- The outer loop ends. -/
  | leave (m : μ)
  /-- Any of the calls raises. -/
  | raised (m : μ)
  | unlock (m : μ) (committed : Bool)
  /-- The process dies, with no `finally`. -/
  | kill (m : μ)
  | tick
  deriving DecidableEq

variable {μ : Type*} [DecidableEq μ]

/-- A monitor goes to a phase. -/
def State.goto (s : State μ) (m : μ) (p : Phase) : State μ :=
  { s with phase := Function.update s.phase m p }

def step (lockTimeout maxRecoveryBlocks : ℕ) (s : State μ) : Action μ → Option (State μ)
  | .start m =>
    if s.phase m = .ended then
      some { s.goto m .waiting with isRunning := Function.update s.isRunning m true }
    else none
  | .stop m => some { s with isRunning := Function.update s.isRunning m false }
  | .lock m now =>
    if s.phase m = .waiting ∧ s.isRunning m ∧ now ≤ s.now then
      if s.row.Lockable lockTimeout now then some { s.goto m .locked with row := s.row.lock m now }
      else some s
    else none
  | .load m head =>
    if s.phase m = .locked then
      some (s.goto m (.loaded (getState maxRecoveryBlocks s.row.blockNumber head)))
    else none
  | .enter m latest =>
    match s.phase m with
    | .loaded current => some (s.goto m (.loop current latest))
    | _ => none
  | .loop m =>
    match s.phase m with
    | .loop current latest =>
      if s.isRunning m then
        some (s.goto m (if current = latest then .polling current else .processing current latest))
      else some (s.goto m .waiting)
    | _ => none
  | .poll m latest =>
    match s.phase m with
    | .polling current =>
      if s.isRunning m then
        some (s.goto m (if latest = current then .polling current else .processing current latest))
      else some (s.goto m (.processing current current))
    | _ => none
  | .save m now committed =>
    match s.phase m with
    | .processing current latest =>
      if now ≤ s.now then
        some { s.goto m (.loop (current + 1) latest) with
          row := if committed then s.row.save current now else s.row }
      else none
    | _ => none
  | .leave m =>
    if s.phase m = .waiting ∧ s.isRunning m = false then some (s.goto m .releasing) else none
  | .raised m =>
    if s.phase m = .waiting ∨ (s.phase m).Running then some (s.goto m .releasing) else none
  | .unlock m committed =>
    if s.phase m = .releasing then
      some { s.goto m .ended with row := if committed then s.row.unlock else s.row }
    else none
  | .kill m => some (s.goto m .ended)
  | .tick => some { s with now := s.now + 1 }

/-- The row's lock columns agree, and no monitor has started. -/
def system (lockTimeout maxRecoveryBlocks : ℕ) : Lts (State μ) (Action μ) where
  init s := (∀ m, s.phase m = .ended) ∧
    (s.row.isLocked = false → s.row.lockHolder = none ∧ s.row.lockedAt = none)
  step := step lockTimeout maxRecoveryBlocks

/-- **The running holder saves in time**: its last update of the row is less
than the timeout ago. -/
def Timely (lockTimeout : ℕ) (s : State μ) : Prop :=
  ∀ m ∈ s.row.lockHolder, (s.phase m).Running → s.now < s.row.lastUpdatedAt + lockTimeout

omit [DecidableEq μ] in
instance (lockTimeout : ℕ) (s : State μ) : Decidable (Timely lockTimeout s) := by
  unfold Timely
  infer_instance

/-- **A release is the holder's**, or finds the row unlocked. -/
def ReleasedByHolder (s : State μ) : Action μ → Prop
  | .unlock m committed => committed → s.row.isLocked → s.row.lockHolder = some m
  | _ => True

instance (s : State μ) (a : Action μ) : Decidable (ReleasedByHolder s a) := by
  unfold ReleasedByHolder
  split <;> infer_instance

/-- The runs in which the running holder saves in time and releases are the
holder's. -/
def Guarded (lockTimeout : ℕ) (s : State μ) (a : Action μ) : Prop :=
  Timely lockTimeout s ∧ ReleasedByHolder s a

instance (lockTimeout : ℕ) (s : State μ) (a : Action μ) : Decidable (Guarded lockTimeout s a) := by
  unfold Guarded
  infer_instance

/-- The monitor that performs a release or a save. -/
def Action.writer : Action μ → Option μ
  | .unlock m _ | .save m _ _ => some m
  | _ => none

/-- **The law of the lock**: at most one monitor is inside the block loop;
and a step changes the row by a release or a save only as the holder's, and
never takes the block number back. -/
structure Lawful (lockTimeout maxRecoveryBlocks : ℕ) (ok : State μ → Action μ → Prop)
    (s : State μ) : Prop where
  exclusive : ∀ m m', (s.phase m).InLoop → (s.phase m').InLoop → m = m'
  byHolder : ∀ a s', ok s a → step lockTimeout maxRecoveryBlocks s a = some s' →
    ∀ m ∈ a.writer, s'.row ≠ s.row → s.row.lockHolder = some m
  monotone : ∀ a s', ok s a → step lockTimeout maxRecoveryBlocks s a = some s' →
    s.row.blockNumber ≤ s'.row.blockNumber

/-! ## The invariant -/

/-- A running monitor holds the lock and is not behind the saved block. -/
structure Inv (s : State μ) : Prop where
  holder : ∀ m, (s.phase m).Running → s.row.isLocked = true ∧ s.row.lockHolder = some m
  ahead : ∀ m c, (s.phase m).current = some c → s.row.blockNumber ≤ c
  columns : s.row.isLocked = false → s.row.lockHolder = none ∧ s.row.lockedAt = none

variable {lockTimeout maxRecoveryBlocks : ℕ} {s s' : State μ} {m : μ}

omit [DecidableEq μ] in
theorem Inv.running_unique (hs : Inv s) {m' : μ} (h : (s.phase m).Running)
    (h' : (s.phase m').Running) : m = m' :=
  Option.some.inj ((hs.holder m h).2.symm.trans (hs.holder m' h').2)

/-- **A monitor that only moves** keeps the invariant, if it was running
already where it is now, and is not behind. -/
theorem Inv.goto {p : Phase} (hs : Inv s) (hrun : p.Running → (s.phase m).Running)
    (hcur : ∀ c, p.current = some c → s.row.blockNumber ≤ c) : Inv (s.goto m p) := by
  refine ⟨fun u hu => ?_, fun u c hu => ?_, hs.columns⟩
  · rcases eq_or_ne u m with rfl | hne
    · simp only [State.goto, Function.update_self] at hu
      exact hs.holder u (hrun hu)
    · simp only [State.goto, Function.update_of_ne hne] at hu
      exact hs.holder u hu
  · rcases eq_or_ne u m with rfl | hne
    · simp only [State.goto, Function.update_self] at hu
      exact hcur c hu
    · simp only [State.goto, Function.update_of_ne hne] at hu
      exact hs.ahead u c hu

/-- **While nobody is running**, the row may change hands: the monitor that
changes it is running after it only as the holder. -/
theorem Inv.of_none_running {p : Phase} {row : Row μ} (hnone : ∀ u, ¬(s.phase u).Running)
    (hrun : p.Running → row.isLocked = true ∧ row.lockHolder = some m) (hcur : p.current = none)
    (hcolumns : row.isLocked = false → row.lockHolder = none ∧ row.lockedAt = none) :
    Inv { s.goto m p with row } := by
  refine ⟨fun u hu => ?_, fun u c hu => ?_, hcolumns⟩
  · rcases eq_or_ne u m with rfl | hne
    · simp only [State.goto, Function.update_self] at hu
      exact hrun hu
    · simp only [State.goto, Function.update_of_ne hne] at hu
      exact absurd hu (hnone u)
  · rcases eq_or_ne u m with rfl | hne
    · simp only [State.goto, Function.update_self, hcur] at hu
      cases hu
    · simp only [State.goto, Function.update_of_ne hne] at hu
      exact absurd (.inr (by simp [hu])) (hnone u)

/-- An acquisition finds no monitor running, since the one holder that
could be has saved in time. -/
theorem Inv.lock {now : ℕ} (hs : Inv s) (ht : Timely lockTimeout s) (hnow : now ≤ s.now)
    (hl : s.row.Lockable lockTimeout now) :
    Inv { s.goto m .locked with row := s.row.lock m now } := by
  have hnone : ∀ u, ¬(s.phase u).Running := by
    intro u hu
    obtain ⟨hlocked, hholder⟩ := hs.holder u hu
    have := ht u hholder hu
    rcases hl with h | h
    · simp [h] at hlocked
    · omega
  exact .of_none_running hnone (fun _ => ⟨rfl, rfl⟩) rfl (by simp [Row.lock])

theorem Inv.save {current latest now : ℕ} (hs : Inv s)
    (hp : s.phase m = .processing current latest) :
    Inv { s.goto m (.loop (current + 1) latest) with row := s.row.save current now } := by
  have hm : (s.phase m).Running := by simp [hp, Phase.Running, Phase.current]
  refine ⟨fun u hu => ?_, fun u c hu => ?_, hs.columns⟩
  · rcases eq_or_ne u m with rfl | hne
    · exact hs.holder u hm
    · simp only [State.goto, Function.update_of_ne hne] at hu
      exact hs.holder u hu
  · rcases eq_or_ne u m with rfl | hne
    · simp only [State.goto, Function.update_self, Phase.current, Option.some.injEq] at hu
      simp only [Row.save]
      omega
    · -- no other monitor is past the load
      simp only [State.goto, Function.update_of_ne hne] at hu
      exact absurd (hs.running_unique (.inr (by simp [hu])) hm) hne

theorem Inv.unlock (hs : Inv s) (hp : s.phase m = .releasing)
    (hg : s.row.isLocked → s.row.lockHolder = some m) :
    Inv { s.goto m .ended with row := s.row.unlock } := by
  have hnone : ∀ u, ¬(s.phase u).Running := by
    intro u hu
    obtain ⟨hlocked, hholder⟩ := hs.holder u hu
    obtain rfl : u = m := Option.some.inj (hholder.symm.trans (hg hlocked))
    simp [hp, Phase.Running, Phase.current] at hu
  exact .of_none_running hnone (by simp [Phase.Running, Phase.current]) rfl fun _ => ⟨rfl, rfl⟩

/-- **The step lemma.** -/
theorem Inv.step {a : Action μ} (hs : Inv s) (ht : Timely lockTimeout s)
    (hg : ReleasedByHolder s a) (h : step lockTimeout maxRecoveryBlocks s a = some s') :
    Inv s' := by
  cases a with
  | start m =>
    simp only [MonitorLock.step, Option.ite_none_right_eq_some, Option.some.injEq] at h
    obtain ⟨-, rfl⟩ := h
    have := hs.goto (m := m) (p := .waiting) (by simp [Phase.Running, Phase.current])
      (by simp [Phase.current])
    exact ⟨this.holder, this.ahead, this.columns⟩
  | stop m =>
    obtain rfl := Option.some.inj h
    exact ⟨hs.holder, hs.ahead, hs.columns⟩
  | lock m now =>
    simp only [MonitorLock.step, Option.ite_none_right_eq_some] at h
    obtain ⟨⟨-, -, hnow⟩, h⟩ := h
    -- Where the row is somebody's, the monitor waits and nothing changes.
    split at h
    · next hl =>
      obtain rfl := Option.some.inj h
      exact hs.lock ht hnow hl
    · obtain rfl := Option.some.inj h
      exact hs
  | load m head =>
    simp only [MonitorLock.step, Option.ite_none_right_eq_some, Option.some.injEq] at h
    obtain ⟨hp, rfl⟩ := h
    refine hs.goto (fun _ => .inl hp) fun c hc => ?_
    simp only [Phase.current, Option.some.injEq] at hc
    exact hc ▸ le_getState ..
  | enter m latest =>
    simp only [MonitorLock.step] at h
    split at h
    · next current hp =>
      obtain rfl := Option.some.inj h
      exact hs.goto (fun _ => .inr (by simp [hp, Phase.current])) fun c hc =>
        hs.ahead m c (by simpa [hp, Phase.current] using hc)
    · simp at h
  | loop m =>
    simp only [MonitorLock.step] at h
    split at h
    · next current latest hp =>
      have hcur := hs.ahead m
      have hrun : (s.phase m).Running := .inr (by simp [hp, Phase.current])
      split at h
      · obtain rfl := Option.some.inj h
        refine hs.goto (fun _ => hrun) fun c hc => hcur c ?_
        split at hc <;> simpa [hp, Phase.current] using hc
      · obtain rfl := Option.some.inj h
        exact hs.goto (fun _ => hrun) (by simp [Phase.current])
    · simp at h
  | poll m latest =>
    simp only [MonitorLock.step] at h
    split at h
    · next current hp =>
      have hcur := hs.ahead m
      have hrun : (s.phase m).Running := .inr (by simp [hp, Phase.current])
      split at h
      · obtain rfl := Option.some.inj h
        refine hs.goto (fun _ => hrun) fun c hc => hcur c ?_
        split at hc <;> simpa [hp, Phase.current] using hc
      · obtain rfl := Option.some.inj h
        exact hs.goto (fun _ => hrun) fun c hc => hcur c (by simpa [hp, Phase.current] using hc)
    · simp at h
  | save m now committed =>
    simp only [MonitorLock.step] at h
    split at h
    · next current latest hp =>
      simp only [Option.ite_none_right_eq_some, Option.some.injEq] at h
      obtain ⟨-, rfl⟩ := h
      cases committed with
      | true => exact hs.save hp
      | false =>
        refine hs.goto (fun _ => .inr (by simp [hp, Phase.current])) fun c hc => ?_
        have := hs.ahead m current (by simp [hp, Phase.current])
        simp only [Phase.current, Option.some.injEq] at hc
        omega
    · simp at h
  | leave m =>
    simp only [MonitorLock.step, Option.ite_none_right_eq_some, Option.some.injEq] at h
    obtain ⟨-, rfl⟩ := h
    exact hs.goto (by simp [Phase.Running, Phase.current]) (by simp [Phase.current])
  | raised m =>
    simp only [MonitorLock.step, Option.ite_none_right_eq_some, Option.some.injEq] at h
    obtain ⟨-, rfl⟩ := h
    exact hs.goto (by simp [Phase.Running, Phase.current]) (by simp [Phase.current])
  | unlock m committed =>
    simp only [MonitorLock.step, Option.ite_none_right_eq_some, Option.some.injEq] at h
    obtain ⟨hp, rfl⟩ := h
    cases committed with
    -- The guard has the lock that is released be the monitor's own.
    | true => exact hs.unlock hp (hg rfl)
    | false => exact hs.goto (by simp [Phase.Running, Phase.current]) (by simp [Phase.current])
  | kill m =>
    obtain rfl := Option.some.inj h
    exact hs.goto (by simp [Phase.Running, Phase.current]) (by simp [Phase.current])
  | tick =>
    obtain rfl := Option.some.inj h
    exact ⟨hs.holder, hs.ahead, hs.columns⟩

/-! ## The law -/

/-- **What a step does to the row**: nothing, or one of the three updates,
each by the monitor that takes the step. -/
theorem step_row {a : Action μ} (h : step lockTimeout maxRecoveryBlocks s a = some s') :
    s'.row = s.row ∨ (∃ m now, a = .lock m now ∧ s'.row = s.row.lock m now) ∨
      (∃ m now current latest, a = .save m now true ∧ s.phase m = .processing current latest ∧
        s'.row = s.row.save current now) ∨
      ∃ m, a = .unlock m true ∧ s'.row = s.row.unlock := by
  cases a with
  | lock m now =>
    simp only [step, Option.ite_none_right_eq_some] at h
    obtain ⟨-, h⟩ := h
    split at h <;> obtain rfl := Option.some.inj h
    · exact .inr (.inl ⟨m, now, rfl, rfl⟩)
    · exact .inl rfl
  | save m now committed =>
    simp only [step] at h
    split at h
    · next current latest hp =>
      simp only [Option.ite_none_right_eq_some, Option.some.injEq] at h
      obtain ⟨-, rfl⟩ := h
      cases committed with
      | true => exact .inr (.inr (.inl ⟨m, now, current, latest, rfl, hp, rfl⟩))
      | false => exact .inl rfl
    · simp at h
  | unlock m committed =>
    simp only [step, Option.ite_none_right_eq_some, Option.some.injEq] at h
    obtain ⟨-, rfl⟩ := h
    cases committed with
    | true => exact .inr (.inr (.inr ⟨m, rfl, rfl⟩))
    | false => exact .inl rfl
  | start m =>
    simp only [step, Option.ite_none_right_eq_some, Option.some.injEq] at h
    exact .inl (h.2 ▸ rfl)
  | stop m => exact .inl (Option.some.inj h ▸ rfl)
  | load m head =>
    simp only [step, Option.ite_none_right_eq_some, Option.some.injEq] at h
    exact .inl (h.2 ▸ rfl)
  | enter m latest =>
    simp only [step] at h
    split at h
    · exact .inl (Option.some.inj h ▸ rfl)
    · simp at h
  | loop m =>
    simp only [step] at h
    split at h
    · split at h <;> exact .inl (Option.some.inj h ▸ rfl)
    · simp at h
  | poll m latest =>
    simp only [step] at h
    split at h
    · split at h <;> exact .inl (Option.some.inj h ▸ rfl)
    · simp at h
  | leave m =>
    simp only [step, Option.ite_none_right_eq_some, Option.some.injEq] at h
    exact .inl (h.2 ▸ rfl)
  | raised m =>
    simp only [step, Option.ite_none_right_eq_some, Option.some.injEq] at h
    exact .inl (h.2 ▸ rfl)
  | kill m => exact .inl (Option.some.inj h ▸ rfl)
  | tick => exact .inl (Option.some.inj h ▸ rfl)

theorem Inv.lawful (hs : Inv s) : Lawful lockTimeout maxRecoveryBlocks (Guarded lockTimeout) s where
  exclusive m m' h h' := hs.running_unique h.running h'.running
  byHolder a s' hok h m hm hrow := by
    rcases step_row h with heq | ⟨u, now, rfl, -⟩ | ⟨u, now, c, l, rfl, hp, -⟩ | ⟨u, rfl, heq⟩
    · exact absurd heq hrow
    · simp [Action.writer] at hm
    · obtain rfl : u = m := by simpa [Action.writer] using hm
      exact (hs.holder u (.inr (by simp [hp, Phase.current]))).2
    · obtain rfl : u = m := by simpa [Action.writer] using hm
      cases hl : s.row.isLocked with
      | true => exact hok.2 rfl hl
      | false =>
        -- the release of a row that is not locked changes nothing
        obtain ⟨hholder, hat⟩ := hs.columns hl
        refine absurd ?_ hrow
        rw [heq, Row.unlock, ← hholder, ← hl]
        rcases hr : s.row with ⟨b, locked, holder, at', last⟩
        simp_all
  monotone a s' _ h := by
    rcases step_row h with heq | ⟨u, now, rfl, heq⟩ | ⟨u, now, c, l, rfl, hp, heq⟩ | ⟨u, rfl, heq⟩
    · exact heq ▸ Nat.le_refl _
    · exact heq ▸ Nat.le_refl s.row.blockNumber
    · exact heq ▸ hs.ahead u c (by simp [hp, Phase.current])
    · exact heq ▸ Nat.le_refl s.row.blockNumber

/-- **The lock works where only its holder releases it.** -/
theorem lock_lawful (as : List (Action μ)) (s : State μ)
    (h : (system lockTimeout maxRecoveryBlocks).Reach (Guarded lockTimeout) as s) :
    Lawful lockTimeout maxRecoveryBlocks (Guarded lockTimeout) s := by
  have hinv : Inv s := by
    refine h.invariant ?_ ?_
    · rintro s ⟨hended, hcolumns⟩
      refine ⟨fun m hm => ?_, fun m c hm => ?_, hcolumns⟩
      · simp [hended m, Phase.Running, Phase.current] at hm
      · simp [hended m, Phase.current] at hm
    · rintro s a s' hs ⟨ht, hg⟩ hstep
      exact hs.step ht hg hstep
  exact hinv.lawful

/-! ## A run on each side of the guard -/

private def atRest : State ℕ :=
  ⟨⟨100, false, none, none, 0⟩, 0, fun _ => .ended, fun _ => false⟩

private theorem atRest_init : (system 5 10).init atRest := ⟨fun _ => rfl, fun _ => ⟨rfl, rfl⟩⟩

/-- The first monitor saves a block and ends; the second, which was waiting,
takes its place. -/
private def handover : List (Action ℕ) :=
  [.start 0, .start 1, .lock 0 0, .lock 1 0, .load 0 102, .enter 0 102, .loop 0, .tick,
    .save 0 1 true, .stop 0, .loop 0, .leave 0, .unlock 0 true, .lock 1 1, .load 1 102,
    .enter 1 102]

theorem lock_lawful_handover :
    ∃ s, (system 5 10).Reach (Guarded 5) handover s ∧ Lawful 5 10 (Guarded 5) s ∧
      s.phase 0 = .ended ∧ s.phase 1 = .loop 100 102 := by
  have hreach : (system 5 10).Reach (Guarded 5) handover _ :=
    Lts.reach_of_exec atRest_init (by decide) rfl
  exact ⟨_, hreach, lock_lawful handover _ hreach, rfl, rfl⟩

/-- **Two monitors in the block loop.** A monitor that is stopped while it
waits releases the lock of the one that runs, and a third acquires it. -/
theorem not_lock_lawful :
    ¬ ∀ (lockTimeout maxRecoveryBlocks : ℕ) (as : List (Action ℕ)) (s : State ℕ),
      (system lockTimeout maxRecoveryBlocks).Reach (fun s _ => Timely lockTimeout s) as s →
        Lawful lockTimeout maxRecoveryBlocks (fun s _ => Timely lockTimeout s) s := by
  intro h
  let as : List (Action ℕ) :=
    [.start 0, .start 1, .start 2, .lock 0 0, .load 0 102, .enter 0 102, .stop 1, .leave 1,
      .unlock 1 true, .lock 2 0, .load 2 102, .enter 2 102]
  have hreach : (system 5 10).Reach (fun s _ => Timely 5 s) as _ :=
    Lts.reach_of_exec atRest_init (by decide) rfl
  exact absurd ((h 5 10 as _ hreach).exclusive 0 2 trivial trivial) (by decide)

end MonitorLock

end ChutesApi
