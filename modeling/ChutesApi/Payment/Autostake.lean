import ChutesApi.Common.Lts
import Mathlib.Algebra.Order.Ring.Rat
import Mathlib.Logic.Function.Basic
import Mathlib.Tactic.Linarith
/-!
# The lock of the autostaker

The stake tasks of a user exclude each other by a key in Redis, whose
lifetime of an hour is set once after the attempt to acquire it, by the
tasks that were turned away as well, and never by the holder while it
stakes. The holder deletes it only if the user is gone or the balance is
staked. So a holder that takes longer loses the lock, and one that ends
otherwise leaves it behind. As long as neither happens the key is that of
the task that holds the lock (`Keyed`), and it excludes the others:
`exclusive_iff` says that these two are all that can go wrong.
-/

namespace ChutesApi

namespace Autostake

/-- Where a task is in `stake`. -/
inductive Phase
  | idle
  /-- `setnx` has returned 1. -/
  | acquired
  /-- `setnx` has returned 0. -/
  | refused
  /-- `setnx` has raised, with the key set or not. -/
  | raised (applied : Bool)
  | loading
  | wallet
  /-- At the head of the loop. -/
  | staking (consecutiveFailures : ℕ)
  /-- In the `except` of the loop. -/
  | recovering (consecutiveFailures : ℕ)
  /-- About to delete the key and return. -/
  | deleting
  | ended
  deriving DecidableEq, Repr

/-- Between acquiring the key and the end. -/
def Phase.holds : Phase → Bool
  | .idle | .refused | .ended => false
  | .raised applied => applied
  | .acquired | .loading | .wallet | .staking _ | .recovering _ | .deleting => true

/-- How an attempt to stake ends. -/
inductive Staked
  | ok
  | insufficientBalance
  | failed
  deriving DecidableEq, Repr

/-- The key, with the task that set it and the time at which it runs out, if
it does. Times are in seconds. -/
structure Entry where
  task : ℕ
  expiry : Option ℚ
  deriving DecidableEq

structure State where
  now : ℚ
  key : Option Entry
  tasks : ℕ → Phase

/-- **Whose key is there.** -/
def State.owner (s : State) : Option ℕ :=
  s.key.bind fun entry => if entry.expiry.all (s.now < ·) then some entry.task else none

/-- The lifetime of the key is over. -/
def State.Over (s : State) : Prop := ∃ entry ∈ s.key, ∃ time ∈ entry.expiry, time ≤ s.now

/-- `expire(key, 60 * 60)`, which does nothing if there is no key. -/
def State.expireKey (s : State) : Option Entry :=
  match s.owner with
  | some task => some ⟨task, some (s.now + 60 * 60)⟩
  | none => s.key

/-- What a task does next, and how it goes. What raises may have been done
before. -/
inductive Move
  | setnx
  | setnxRaises (applied : Bool)
  | expire
  | expireRaises (applied : Bool)
  | findUser (found : Bool)
  | sessionRaises
  /-- The wallet is decrypted, or its failure logged. -/
  | keypair (ok : Bool)
  | addStake (outcome : Staked)
  /-- The new connection after a failure, where a raised exception goes
  through. -/
  | reconnect (ok : Bool)
  | delete
  | deleteRaises (applied : Bool)
  /-- The worker stops. -/
  | killed
  deriving DecidableEq, Repr

inductive Action
  | tick (seconds : ℚ)
  | move (task : ℕ) (move : Move)

/-- **`stake`**, one await at a time: the key and the task afterwards. -/
def advance (s : State) (task : ℕ) : Phase → Move → Option (Option Entry × Phase)
  | .idle, .setnx =>
    if s.owner = none then some (some ⟨task, none⟩, .acquired) else some (s.key, .refused)
  | .idle, .setnxRaises applied =>
    if s.owner = none ∧ applied then some (some ⟨task, none⟩, .raised true)
    else some (s.key, .raised false)
  -- the `finally` is everybody's
  | .acquired, .expire => some (s.expireKey, .loading)
  | .refused, .expire | .raised _, .expire => some (s.expireKey, .ended)
  | .acquired, .expireRaises applied | .refused, .expireRaises applied
  | .raised _, .expireRaises applied => some (if applied then s.expireKey else s.key, .ended)
  | .loading, .findUser found => some (s.key, if found then .wallet else .deleting)
  | .loading, .sessionRaises => some (s.key, .ended)
  | .wallet, .keypair ok => some (s.key, if ok then .staking 0 else .ended)
  | .staking failures, .addStake outcome =>
    match outcome with
    | .ok => some (s.key, .staking failures)
    | .insufficientBalance => some (s.key, .deleting)
    | .failed => some (s.key, .recovering failures)
  | .recovering failures, .reconnect ok =>
    if ok ∧ failures + 1 < 15 then some (s.key, .staking (failures + 1))
    else some (s.key, .ended)
  | .deleting, .delete => some (none, .ended)
  | .deleting, .deleteRaises applied => some (if applied then none else s.key, .ended)
  | .idle, .killed | .ended, .killed => none
  | _, .killed => some (s.key, .ended)
  | _, _ => none

def step (s : State) : Action → Option State
  | .tick seconds => if 0 ≤ seconds then some { s with now := s.now + seconds } else none
  | .move task move =>
    (advance s task (s.tasks task) move).map fun (key, phase) =>
      { s with key := key, tasks := Function.update s.tasks task phase }

/-- No task has started, and there is no key. -/
def system : Lts State Action where
  init s := s.key = none ∧ ∀ task, s.tasks task = .idle
  step := step

/-- **Exclusion and release**: at most one task holds the lock, and the key
that is there is that of a task that holds it, so that nobody is turned
away on account of a task that has ended. -/
structure Exclusive (s : State) : Prop where
  unique : ∀ task task', (s.tasks task).holds → (s.tasks task').holds → task = task'
  owner : ∀ task, s.owner = some task → (s.tasks task).holds

/-! ## What a move does to the lock -/

/-- What a move means for the lock. -/
inductive Effect
  | kept
  | acquired
  /-- The task ends, and does nothing to the key. -/
  | ended
  /-- The task ends, and deletes the key. -/
  | deleted
  deriving DecidableEq, Repr

def State.effect (s : State) (task : ℕ) : Move → Effect
  | .setnx => if s.owner = none then .acquired else .kept
  | .setnxRaises applied => if s.owner = none ∧ applied then .acquired else .kept
  | .expire => if s.tasks task = .acquired then .kept else .ended
  | .expireRaises _ | .sessionRaises | .killed => .ended
  | .findUser _ | .addStake _ => .kept
  | .keypair ok => if ok then .kept else .ended
  | .reconnect ok =>
    match s.tasks task with
    | .recovering failures => if ok ∧ failures + 1 < 15 then .kept else .ended
    | _ => .ended
  | .delete => .deleted
  | .deleteRaises applied => if applied then .deleted else .ended

/-- **The condition on a step**: nobody starts past the lifetime of the key
of a task that is still running, and a task that has acquired the key does
not end without deleting it before its lifetime is over. -/
def Clean (s : State) : Action → Prop
  | .tick _ => True
  | .move task move =>
    match s.effect task move with
    | .acquired => s.Over → ∀ task', (s.tasks task').holds = false
    | .ended => (s.tasks task).holds → s.Over
    | .kept | .deleted => True

/-- **The key that was set last is that of the task that holds the lock.** -/
def Keyed (s : State) : Prop :=
  ∀ task, (s.tasks task).holds → s.key.map Entry.task = some task

variable {s s' : State} {task : ℕ} {move : Move}

/-- The owner is that of the key, as long as the clock allows. -/
theorem owner_eq_some : s.owner = some task ↔
    ∃ expiry, s.key = some ⟨task, expiry⟩ ∧ ∀ time ∈ expiry, s.now < time := by
  unfold State.owner
  rw [Option.bind_eq_some_iff]
  constructor
  · rintro ⟨⟨t, expiry⟩, hkey, h⟩
    rw [Option.ite_none_right_eq_some, Option.some.injEq] at h
    obtain ⟨hall, rfl⟩ := h
    exact ⟨expiry, hkey, by simpa [Option.all_eq_true] using hall⟩
  · rintro ⟨expiry, hkey, hall⟩
    exact ⟨⟨task, expiry⟩, hkey, if_pos (by simpa [Option.all_eq_true] using hall)⟩

/-- Without an owner there is no key, or its lifetime is over. -/
theorem owner_eq_none : s.owner = none ↔ s.key = none ∨ s.Over := by
  unfold State.owner State.Over
  cases s.key with
  | none => simp
  | some entry =>
    rcases entry with ⟨task, _ | time⟩
    · simp
    · simp

/-- Who holds the lock owns the key as long as it lives. -/
theorem Keyed.owner_iff (h : Keyed s) (hholds : (s.tasks task).holds) :
    s.owner = some task ↔ ¬s.Over := by
  have htask := h task hholds
  constructor
  · intro hown hover
    rw [owner_eq_none.2 (.inr hover)] at hown
    cases hown
  · intro hover
    rw [Option.map_eq_some_iff] at htask
    obtain ⟨⟨t, expiry⟩, hkey, rfl⟩ := htask
    refine owner_eq_some.2 ⟨expiry, hkey, fun time htime => ?_⟩
    by_contra hle
    exact hover ⟨_, hkey, time, htime, not_lt.1 hle⟩

/-- A key that is set where there was none. -/
theorem owner_of_acquired (h : s.effect task move = .acquired) : s.owner = none := by
  cases move with
  | setnx =>
    simp only [State.effect] at h
    split at h
    · assumption
    · cases h
  | setnxRaises applied =>
    simp only [State.effect] at h
    split at h
    · next hfree => exact hfree.1
    · cases h
  | expire | keypair ok | deleteRaises applied =>
    simp only [State.effect] at h
    split at h
    · cases h
    · cases h
  | reconnect ok =>
    simp only [State.effect] at h
    split at h
    · split at h
      · cases h
      · cases h
    · cases h
  | _ => cases h

/-- The lock is left to whom it is. -/
structure Keeps (s s' : State) : Prop where
  owner : s'.owner = s.owner
  task : s'.key.map Entry.task = s.key.map Entry.task

/-- **A new lifetime** leaves the key to whom it is. -/
theorem keeps_expireKey (tasks : ℕ → Phase) :
    Keeps s { s with key := s.expireKey, tasks := tasks } := by
  cases hown : s.owner with
  | none =>
    have hkey : s.expireKey = s.key := by
      unfold State.expireKey
      rw [hown]
    rw [hkey]
    exact ⟨rfl, rfl⟩
  | some task =>
    have hkey : s.expireKey = some ⟨task, some (s.now + 60 * 60)⟩ := by
      unfold State.expireKey
      rw [hown]
    obtain ⟨expiry, hentry, -⟩ := owner_eq_some.1 hown
    rw [hkey]
    refine ⟨?_, by simp [hentry]⟩
    rw [hown]
    refine owner_eq_some.2 ⟨_, rfl, fun time htime => ?_⟩
    obtain rfl := Option.some.inj htime
    show s.now < s.now + 60 * 60
    linarith

/-- Time only takes the key away. -/
theorem owner_of_tick {seconds : ℚ} (h : 0 ≤ seconds)
    (hown : { s with now := s.now + seconds }.owner = some task) : s.owner = some task := by
  obtain ⟨expiry, hkey, hall⟩ := owner_eq_some.1 hown
  refine owner_eq_some.2 ⟨expiry, hkey, fun time htime => ?_⟩
  have hlater : s.now + seconds < time := hall time htime
  linarith

/-- The lock does not depend on where the tasks are. -/
theorem keeps_tasks (tasks : ℕ → Phase) : Keeps s { s with tasks := tasks } := ⟨rfl, rfl⟩

/-- **What a move does**, by its effect. -/
theorem advance_effect {key : Option Entry} {phase : Phase} (tasks : ℕ → Phase)
    (h : advance s task (s.tasks task) move = some (key, phase)) :
    match s.effect task move with
    | .kept => Keeps s { s with key := key, tasks := tasks } ∧
        phase.holds = (s.tasks task).holds
    | .acquired => (s.tasks task).holds = false ∧ phase.holds = true ∧ key = some ⟨task, none⟩
    | .ended => Keeps s { s with key := key, tasks := tasks } ∧ phase.holds = false
    | .deleted => (s.tasks task).holds = true ∧ phase.holds = false ∧ key = none := by
  have hexpire := keeps_expireKey (s := s) tasks
  have hsame := keeps_tasks (s := s) tasks
  cases hphase : s.tasks task with
  | idle =>
    cases move <;> simp only [advance, hphase, reduceCtorEq] at h
    case setnx =>
      by_cases hfree : s.owner = none
      · rw [if_pos hfree] at h
        cases h
        simp only [State.effect, if_pos hfree]
        exact ⟨rfl, rfl, trivial⟩
      · rw [if_neg hfree] at h
        cases h
        simp only [State.effect, if_neg hfree]
        exact ⟨hsame, rfl⟩
    case setnxRaises applied =>
      by_cases hfree : s.owner = none ∧ applied
      · rw [if_pos hfree] at h
        cases h
        simp only [State.effect, if_pos hfree]
        exact ⟨rfl, rfl, trivial⟩
      · rw [if_neg hfree] at h
        cases h
        simp only [State.effect, if_neg hfree]
        exact ⟨hsame, rfl⟩
  | acquired =>
    cases move <;> simp only [advance, hphase, reduceCtorEq, Option.some.injEq, Prod.mk.injEq] at h
      <;> obtain ⟨rfl, rfl⟩ := h
    case expire =>
      simp only [State.effect, if_pos hphase]
      exact ⟨hexpire, rfl⟩
    case expireRaises applied => cases applied <;> [exact ⟨hsame, rfl⟩; exact ⟨hexpire, rfl⟩]
    case killed => exact ⟨hsame, rfl⟩
  | refused | raised applied =>
    cases move <;> simp only [advance, hphase, reduceCtorEq, Option.some.injEq, Prod.mk.injEq] at h
      <;> obtain ⟨rfl, rfl⟩ := h
    case expire =>
      have hne : s.tasks task ≠ .acquired := by simp [hphase]
      simp only [State.effect, if_neg hne]
      exact ⟨hexpire, rfl⟩
    case expireRaises applied => cases applied <;> [exact ⟨hsame, rfl⟩; exact ⟨hexpire, rfl⟩]
    case killed => exact ⟨hsame, rfl⟩
  | loading =>
    cases move <;> simp only [advance, hphase, reduceCtorEq, Option.some.injEq, Prod.mk.injEq] at h
      <;> obtain ⟨rfl, rfl⟩ := h
    case findUser found => cases found <;> exact ⟨hsame, rfl⟩
    case sessionRaises => exact ⟨hsame, rfl⟩
    case killed => exact ⟨hsame, rfl⟩
  | wallet =>
    cases move <;> simp only [advance, hphase, reduceCtorEq, Option.some.injEq, Prod.mk.injEq] at h
      <;> obtain ⟨rfl, rfl⟩ := h
    case keypair ok => cases ok <;> exact ⟨hsame, rfl⟩
    case killed => exact ⟨hsame, rfl⟩
  | staking failures =>
    cases move <;> simp only [advance, hphase, reduceCtorEq] at h
    case addStake outcome => cases outcome <;> cases h <;> exact ⟨hsame, rfl⟩
    case killed => cases h; exact ⟨hsame, rfl⟩
  | recovering failures =>
    cases move <;> simp only [advance, hphase, reduceCtorEq] at h
    case reconnect ok =>
      by_cases hagain : ok ∧ failures + 1 < 15
      · rw [if_pos hagain] at h
        cases h
        simp only [State.effect, hphase, if_pos hagain]
        exact ⟨hsame, rfl⟩
      · rw [if_neg hagain] at h
        cases h
        simp only [State.effect, hphase, if_neg hagain]
        exact ⟨hsame, rfl⟩
    case killed => cases h; exact ⟨hsame, rfl⟩
  | deleting =>
    cases move <;> simp only [advance, hphase, reduceCtorEq, Option.some.injEq, Prod.mk.injEq] at h
      <;> obtain ⟨rfl, rfl⟩ := h
    case delete => exact ⟨rfl, rfl, rfl⟩
    case deleteRaises applied => cases applied <;> [exact ⟨hsame, rfl⟩; exact ⟨rfl, rfl, rfl⟩]
    case killed => exact ⟨hsame, rfl⟩
  | ended => cases move <;> simp only [advance, hphase, reduceCtorEq] at h

theorem step_move_iff : step s (.move task move) = some s' ↔
    ∃ key phase, advance s task (s.tasks task) move = some (key, phase) ∧
      { s with key := key, tasks := Function.update s.tasks task phase } = s' := by
  simp only [step, Option.map_eq_some_iff, Prod.exists]

/-! ## Exclusive runs -/

/-- What a move leaves of the tasks: the others stay where they are. -/
theorem tasks_of_move {key : Option Entry} {phase : Phase}
    (h : { s with key := key, tasks := Function.update s.tasks task phase } = s') :
    s'.tasks task = phase ∧ ∀ other ≠ task, s'.tasks other = s.tasks other := by
  rw [← h]
  exact ⟨Function.update_self .., fun other hne => Function.update_of_ne hne ..⟩

/-- **A move keeps exclusion** exactly if it is clean. -/
theorem exclusive_move (hkeyed : Keyed s) (hex : Exclusive s)
    (h : step s (.move task move) = some s') : Exclusive s' ↔ Clean s (.move task move) := by
  obtain ⟨key, phase, hadv, hs'⟩ := step_move_iff.1 h
  have heff := advance_effect (Function.update s.tasks task phase) hadv
  obtain ⟨hself, hother⟩ := tasks_of_move hs'
  rw [hs'] at heff
  have hkey : s'.key = key := by rw [← hs']
  rw [Clean]
  cases hcase : s.effect task move with
  | kept =>
    rw [hcase] at heff
    obtain ⟨hkeeps, hholds⟩ := heff
    have hall : ∀ t, (s'.tasks t).holds = (s.tasks t).holds := by
      intro t
      by_cases ht : t = task
      · rw [ht, hself, hholds]
      · rw [hother t ht]
    refine iff_of_true ⟨fun t t' ht ht' => ?_, fun t ht => ?_⟩ trivial
    · exact hex.unique t t' (hall t ▸ ht) (hall t' ▸ ht')
    · rw [hall]
      exact hex.owner t (hkeeps.owner ▸ ht)
  | acquired =>
    rw [hcase] at heff
    obtain ⟨hidle, hholds, hentry⟩ := heff
    have howner : s'.owner = some task :=
      owner_eq_some.2 ⟨none, hkey.trans hentry, fun _ h => by cases h⟩
    constructor
    · intro hex' _ t
      by_cases ht : t = task
      · rw [ht, hidle]
      · have hnot := mt (hex'.unique t task · (hself.symm ▸ hholds)) ht
        rwa [hother t ht, Bool.not_eq_true] at hnot
    · intro (hover : s.Over → ∀ task', (s.tasks task').holds = false)
      -- The lock keeps a task from starting while the key of another lives.
      have hnone : ∀ t, (s.tasks t).holds = false := by
        intro t
        by_contra ht
        rw [Bool.not_eq_false] at ht
        have hlive := mt (hkeyed.owner_iff ht).2 (by rw [owner_of_acquired hcase]; simp)
        rw [hover (not_not.1 hlive) t] at ht
        cases ht
      have hholder : ∀ t, (s'.tasks t).holds → t = task := by
        intro t ht
        by_contra hne
        rw [hother t hne, hnone t] at ht
        cases ht
      refine ⟨fun t t' ht ht' => (hholder t ht).trans (hholder t' ht').symm, fun t ht => ?_⟩
      rwa [← Option.some.inj (howner.symm.trans ht), hself]
  | ended =>
    rw [hcase] at heff
    obtain ⟨hkeeps, hholds⟩ := heff
    constructor
    · intro hex' htask
      by_contra hover
      have hown := (hkeyed.owner_iff htask).2 hover
      have hstill := hex'.owner task (hkeeps.owner.trans hown)
      rw [hself, hholds] at hstill
      cases hstill
    · intro (hover : (s.tasks task).holds → s.Over)
      have hne : s.owner ≠ some task := by
        intro hown
        have htask := hex.owner task hown
        exact (hkeyed.owner_iff htask).1 hown (hover htask)
      have hrest : ∀ t, (s'.tasks t).holds → (s.tasks t).holds := by
        intro t ht
        by_cases heq : t = task
        · rw [heq, hself, hholds] at ht
          cases ht
        · rwa [hother t heq] at ht
      refine ⟨fun t t' ht ht' => hex.unique t t' (hrest t ht) (hrest t' ht'), fun t ht => ?_⟩
      have hown : s.owner = some t := hkeeps.owner ▸ ht
      have htask : t ≠ task := fun heq => hne (heq ▸ hown)
      rw [hother t htask]
      exact hex.owner t hown
  | deleted =>
    rw [hcase] at heff
    obtain ⟨hheld, hholds, hentry⟩ := heff
    have howner : s'.owner = none := owner_eq_none.2 (.inl (hkey.trans hentry))
    refine iff_of_true ⟨fun t t' ht ht' => ?_, fun t ht => ?_⟩ trivial
    · have hnobody : ∀ t, (s'.tasks t).holds = false := by
        intro t
        by_cases heq : t = task
        · rw [heq, hself, hholds]
        · rw [hother t heq]
          by_contra hsome
          exact heq (hex.unique t task (by simpa using hsome) hheld)
      rw [hnobody t] at ht
      cases ht
    · rw [howner] at ht
      cases ht

/-- **An exclusive move leaves the key to the task that holds the lock.** -/
theorem keyed_move (hkeyed : Keyed s) (hex : Exclusive s)
    (h : step s (.move task move) = some s') (hex' : Exclusive s') : Keyed s' := by
  obtain ⟨key, phase, hadv, hs'⟩ := step_move_iff.1 h
  have heff := advance_effect (Function.update s.tasks task phase) hadv
  obtain ⟨hself, hother⟩ := tasks_of_move hs'
  rw [hs'] at heff
  have hkey : s'.key = key := by rw [← hs']
  intro t ht
  cases hcase : s.effect task move with
  | kept =>
    rw [hcase] at heff
    rw [heff.1.task]
    refine hkeyed t ?_
    by_cases heq : t = task
    · rw [heq, hself, heff.2] at ht
      rwa [heq]
    · rwa [hother t heq] at ht
  | acquired =>
    rw [hcase] at heff
    obtain rfl := hex'.unique t task ht (hself.symm ▸ heff.2.1)
    rw [hkey, heff.2.2]
    rfl
  | ended =>
    rw [hcase] at heff
    rw [heff.1.task]
    refine hkeyed t ?_
    by_cases heq : t = task
    · rw [heq, hself, heff.2] at ht
      cases ht
    · rwa [hother t heq] at ht
  | deleted =>
    rw [hcase] at heff
    by_cases heq : t = task
    · rw [heq, hself, heff.2.1] at ht
      cases ht
    · rw [hother t heq] at ht
      exact absurd (hex.unique t task ht heff.1) heq

/-- **A step keeps exclusion** exactly if it is clean. -/
theorem exclusive_step (a : Action) (hkeyed : Keyed s) (hex : Exclusive s)
    (h : system.step s a = some s') : Exclusive s' ↔ Clean s a := by
  cases a with
  | tick seconds =>
    obtain ⟨hpos, rfl⟩ : 0 ≤ seconds ∧ { s with now := s.now + seconds } = s' := by
      simpa [system, step] using h
    exact iff_of_true ⟨hex.unique, fun t ht => hex.owner t (owner_of_tick hpos ht)⟩ trivial
  | move task move => exact exclusive_move hkeyed hex h

theorem keyed_step (a : Action) (hkeyed : Keyed s) (hex : Exclusive s)
    (h : system.step s a = some s') (hex' : Exclusive s') : Keyed s' := by
  cases a with
  | tick seconds =>
    obtain ⟨-, rfl⟩ : 0 ≤ seconds ∧ { s with now := s.now + seconds } = s' := by
      simpa [system, step] using h
    exact hkeyed
  | move task move => exact keyed_move hkeyed hex h hex'

theorem exclusive_init (h : system.init s) : Exclusive s where
  unique t _ ht := by simp [h.2 t, Phase.holds] at ht
  owner t ht := by simp [State.owner, h.1] at ht

theorem keyed_init (h : system.init s) : Keyed s :=
  fun t ht => by simp [h.2 t, Phase.holds] at ht

/-- **The stake tasks of a user exclude each other, and leave nothing
behind**, exactly as long as nobody starts past the lifetime of the key of a
task that is still running, and no task that has acquired the key ends
without deleting it before its lifetime is over. -/
theorem exclusive_iff (actions : List Action) (h0 : system.init s)
    (he : system.exec s actions = some s') :
    (∀ done t, done <+: actions → system.exec s done = some t → Exclusive t) ↔
      system.Meets Clean s actions :=
  Lts.forall_prefix_iff_meets (J := Keyed) (fun _ a _ => keyed_step a)
    (fun _ a _ hkeyed hex h => exclusive_step a hkeyed hex h) (keyed_init h0) (exclusive_init h0) he

/-- Nobody has started. -/
def start : State where
  now := 0
  key := none
  tasks _ := .idle

theorem init_start : system.init start := ⟨rfl, fun _ => rfl⟩

/-- **A long holder**: the first task stakes for an hour, and the second one
acquires the lock meanwhile. -/
private def overtaken : List Action :=
  [.move 0 .setnx, .move 0 .expire, .move 0 (.findUser true), .move 0 (.keypair true),
    .tick 3600, .move 1 .setnx]

/-- Two tasks are between the acquisition and the end. -/
theorem not_exclusive : ¬ ∀ as s, system.Run as s → Exclusive s := by
  intro h
  have hboth : (system.exec start overtaken).map
      (fun t => ((t.tasks 0).holds, (t.tasks 1).holds)) = some (true, true) := by
    decide +kernel
  obtain ⟨t, hrun, hholds⟩ := Option.map_eq_some_iff.1 hboth
  rw [Prod.mk.injEq] at hholds
  have hmeets : system.Meets (fun _ _ => True) start overtaken :=
    Lts.meets_of_forall (fun _ _ _ => trivial) start
  have hex := h overtaken t (Lts.reach_of_exec init_start hmeets hrun)
  exact absurd (hex.unique 0 1 hholds.1 hholds.2) zero_ne_one

/-- The user is gone, and the key is deleted. -/
theorem exclusive_iff_deleted :
    (system.init start ∧ ∃ t, system.exec start [.move 0 .setnx, .move 0 .expire,
        .move 0 (.findUser false), .move 0 .delete] = some t) ∧
      ((∀ done t, done <+: [.move 0 .setnx, .move 0 .expire, .move 0 (.findUser false),
          .move 0 .delete] → system.exec start done = some t → Exclusive t) ↔
        system.Meets Clean start [.move 0 .setnx, .move 0 .expire, .move 0 (.findUser false),
          .move 0 .delete]) :=
  ⟨⟨init_start, _, rfl⟩, exclusive_iff _ init_start rfl⟩

end Autostake

end ChutesApi
