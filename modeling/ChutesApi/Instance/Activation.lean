import ChutesApi.Common.Lts
import Mathlib.Data.Int.Notation
import Mathlib.Data.Nat.Notation
import Mathlib.Logic.Function.Basic
/-!
# The cap of a private chute

Miners race to deploy a private chute, so that there may be more instances
than are wanted, and `activate_launch_config_instance` activates no more
than the target, or one for a bounty. It counts the active instances and
sets its own to active in separate statements, and between the two others
may commit theirs. The cap holds in the runs in which nobody does
(`capped`): then the count that an activation has checked is still the
number of active instances when it commits (`Inv`).
-/

namespace ChutesApi

namespace Activation

/-- A row of `instances`, of the chute. -/
structure Instance where
  active : Bool
  verified : Bool
  deriving DecidableEq

/-- What `active_count` counts. -/
def Instance.counts (i : Instance) : Bool := i.active && i.verified

/-- Where an activation is. -/
inductive Phase
  /-- The instance is loaded. -/
  | loaded
  | counted (activeCount : ℕ)
  /-- The check is passed, and the instance set to active in the session. -/
  | activating
  /-- The bounty is deleted. -/
  | committing
  deriving DecidableEq

/-- An activation, with the index of its instance. -/
structure Txn where
  index : ℕ
  /-- `instance.active`, as loaded. -/
  active : Bool
  phase : Phase
  /-- The commits that were there when it loaded, or has counted. -/
  seen : ℕ
  deriving DecidableEq

structure State where
  instances : List Instance
  bounty : Bool
  txns : ℕ → Option Txn
  /-- How many activations have added to the active instances. -/
  commits : ℕ

def State.activeCount (s : State) : ℕ := s.instances.countP Instance.counts

def State.enter (s : State) (t : ℕ) (txn : Option Txn) : State :=
  { s with txns := Function.update s.txns t txn }

/-- `can_scale`. -/
def canScale (targetCount : ℤ) (bounty : Bool) (activeCount : ℕ) : Bool :=
  (activeCount == 0 && bounty) || activeCount < targetCount

inductive Action
  | load (t index : ℕ)
  /-- The statement that counts. -/
  | count (t : ℕ)
  /-- The check, with the bounty as it is now. -/
  | check (t : ℕ)
  | deleteBounty (t : ℕ)
  | commit (t : ℕ)
  /-- Anything raises. -/
  | abort (t : ℕ)
  /-- A request is made while no instance is active. -/
  | createBounty

/-- The activation of the instance would be counted. -/
def Adds (instances : List Instance) (index : ℕ) : Prop :=
  ∃ i ∈ instances[index]?, i.verified ∧ i.active = false

instance (instances : List Instance) (index : ℕ) : Decidable (Adds instances index) := by
  unfold Adds
  infer_instance

section

variable (targetCount : ℤ)

def step (s : State) : Action → Option State
  | .load t index =>
    match s.txns t, s.instances[index]? with
    | none, some i => some (s.enter t (some ⟨index, i.active, .loaded, s.commits⟩))
    | _, _ => none
  | .count t =>
    match s.txns t with
    | some ⟨index, active, .loaded, _⟩ =>
      some (s.enter t (some ⟨index, active, .counted s.activeCount, s.commits⟩))
    | _ => none
  | .check t =>
    match s.txns t with
    | some ⟨index, active, .counted activeCount, seen⟩ =>
      -- Where it raises, the deletion of the instance is rolled back, and
      -- an instance that is active already is left alone.
      if canScale targetCount s.bounty activeCount ∧ active = false then
        some (s.enter t (some ⟨index, active, .activating, seen⟩))
      else some (s.enter t none)
    | _ => none
  | .deleteBounty t =>
    match s.txns t with
    | some ⟨index, active, .activating, seen⟩ =>
      some ({ s with bounty := false }.enter t (some ⟨index, active, .committing, seen⟩))
    | _ => none
  | .commit t =>
    match s.txns t with
    | some ⟨index, _, .committing, _⟩ =>
      some ({ s with
        instances := s.instances.modify index fun i => { i with active := true }
        commits := s.commits + if Adds s.instances index then 1 else 0 }.enter t none)
    | _ => none
  | .abort t => some (s.enter t none)
  | .createBounty => some { s with bounty := true }

/-- **The cap**: the target, or one instance for a bounty. -/
def Capped (s : State) : Prop := (s.activeCount : ℤ) ≤ max targetCount 1

instance (s : State) : Decidable (Capped targetCount s) := by
  unfold Capped
  infer_instance

/-- The chute before its activations. -/
def system : Lts State Action where
  init s := Capped targetCount s ∧ ∀ t, s.txns t = none
  step := step targetCount

end

/-- **Nobody came in between**: when an activation that adds to the active
instances commits, no other has done so since it counted them. -/
def Undisturbed (s : State) : Action → Prop
  | .commit t => ∀ txn ∈ s.txns t, Adds s.instances txn.index → txn.seen = s.commits
  | _ => True

instance (s : State) (a : Action) : Decidable (Undisturbed s a) := by
  cases a <;> unfold Undisturbed <;> infer_instance

/-! ## A commit -/

variable {targetCount : ℤ} {s s' : State} {a : Action} {as : List Action}

/-- **What a commit does to the count.** -/
theorem countP_activate (instances : List Instance) (index : ℕ) :
    (instances.modify index fun i => { i with active := true }).countP Instance.counts =
      instances.countP Instance.counts + if Adds instances index then 1 else 0 := by
  induction instances generalizing index with
  | nil => simp [Adds]
  | cons i instances ih =>
    cases index with
    | zero =>
      cases hactive : i.active <;> cases hverified : i.verified <;>
        simp [Adds, Instance.counts, hactive, hverified]
    | succ index =>
      have hrest := ih index
      have hadds : Adds (i :: instances) (index + 1) ↔ Adds instances index := by simp [Adds]
      simp only [List.modify_succ_cons, List.countP_cons, hrest, hadds]
      omega

/-- The check, with a bounty, is on one more instance under the cap. -/
theorem canScale_iff (activeCount : ℕ) : canScale targetCount true activeCount ↔
    (activeCount + 1 : ℤ) ≤ max targetCount 1 := by
  unfold canScale
  rw [Bool.and_true, Bool.or_eq_true, beq_iff_eq, decide_eq_true_eq]
  omega

theorem canScale_of_bounty {bounty : Bool} {activeCount : ℕ}
    (h : canScale targetCount bounty activeCount) : canScale targetCount true activeCount := by
  unfold canScale at h ⊢
  rw [Bool.or_eq_true] at h ⊢
  rcases h with h | h
  · rw [Bool.and_eq_true] at h
    exact .inl (by rw [h.1]; rfl)
  · exact .inr h

/-- **A commit keeps the cap exactly if the check passes still**, where it is
counted. -/
theorem capped_commit_iff {t : ℕ} {txn : Txn} (h : Capped targetCount s) (ht : s.txns t = some txn)
    (hs : step targetCount s (.commit t) = some s') :
    Capped targetCount s' ↔
      (Adds s.instances txn.index → canScale targetCount true s.activeCount) := by
  simp only [step, ht] at hs
  split at hs
  · next index active seen heq =>
    cases heq
    cases hs
    have hcount := countP_activate s.instances index
    rw [canScale_iff]
    unfold Capped at h ⊢
    unfold State.activeCount at h ⊢
    simp only [State.enter]
    by_cases hadds : Adds s.instances index
    · rw [if_pos hadds] at hcount
      simp only [hadds, forall_const]
      omega
    · rw [if_neg hadds] at hcount
      simp only [hadds, false_implies, iff_true]
      omega
  · cases hs

/-! ## What the check is good for -/

/-- What an activation knows, as long as no other has committed since it
counted: what it has counted, and that the check passes. -/
def Knows (targetCount : ℤ) (s : State) (txn : Txn) : Prop :=
  txn.seen = s.commits →
    match txn.phase with
    | .loaded => True
    | .counted activeCount => activeCount = s.activeCount
    | .activating | .committing => canScale targetCount true s.activeCount

/-- **What every activation knows**, and has seen. -/
structure Inv (targetCount : ℤ) (s : State) : Prop where
  seen : ∀ t txn, s.txns t = some txn → txn.seen ≤ s.commits
  knows : ∀ t txn, s.txns t = some txn → Knows targetCount s txn

/-- An activation goes on. -/
theorem Inv.enter (h : Inv targetCount s) {t : ℕ} {txn : Option Txn}
    (hseen : ∀ x ∈ txn, x.seen ≤ s.commits) (hknows : ∀ x ∈ txn, Knows targetCount s x) :
    Inv targetCount (s.enter t txn) := by
  have hcases : ∀ u x, (s.enter t txn).txns u = some x → x ∈ txn ∨ s.txns u = some x := by
    intro u x hu
    simp only [State.enter] at hu
    rcases eq_or_ne u t with rfl | hne
    · rw [Function.update_self] at hu
      exact .inl hu
    · rw [Function.update_of_ne hne] at hu
      exact .inr hu
  refine ⟨fun u x hu => ?_, fun u x hu => ?_⟩
  · exact (hcases u x hu).elim (hseen x) (h.seen u x)
  · exact (hcases u x hu).elim (hknows x) (h.knows u x)

/-- The bounty is nothing that an activation knows of. -/
theorem Inv.bounty (h : Inv targetCount s) (bounty : Bool) :
    Inv targetCount { s with bounty } := ⟨h.seen, h.knows⟩

/-- **A commit** is one more for everybody else, or changes nothing. -/
theorem Inv.commit (h : Inv targetCount s) (index : ℕ) :
    Inv targetCount { s with
      instances := s.instances.modify index fun i => { i with active := true }
      commits := s.commits + if Adds s.instances index then 1 else 0 } := by
  have hcount := countP_activate s.instances index
  by_cases hadds : Adds s.instances index
  · simp only [if_pos hadds]
    refine ⟨fun u x hu => Nat.le_succ_of_le (h.seen u x hu), fun u x hu hseen => ?_⟩
    have hle := h.seen u x hu
    have hnext : x.seen = s.commits + 1 := hseen
    omega
  · rw [if_neg hadds] at hcount
    simp only [if_neg hadds]
    refine ⟨h.seen, fun u x hu hseen => ?_⟩
    have hsame : (s.instances.modify index fun i => { i with active := true }).countP
        Instance.counts = s.activeCount := hcount
    have hknown := h.knows u x hu hseen
    unfold State.activeCount
    rw [hsame]
    exact hknown

/-- **The step lemma.** -/
theorem Inv.step (h : Inv targetCount s) (hs : step targetCount s a = some s') :
    Inv targetCount s' := by
  cases a with
  | load t index =>
    simp only [Activation.step] at hs
    split at hs
    · cases hs
      refine h.enter (fun x hx => ?_) fun x hx => ?_
      · obtain rfl := Option.some.inj hx
        exact Nat.le_refl _
      · obtain rfl := Option.some.inj hx
        exact fun _ => trivial
    · cases hs
  | count t =>
    simp only [Activation.step] at hs
    split at hs
    · cases hs
      refine h.enter (fun x hx => ?_) fun x hx => ?_
      · obtain rfl := Option.some.inj hx
        exact Nat.le_refl _
      · obtain rfl := Option.some.inj hx
        exact fun _ => rfl
    · cases hs
  | check t =>
    simp only [Activation.step] at hs
    split at hs
    · next index active activeCount seen ht =>
      split at hs
      · next hcheck =>
        cases hs
        have hle := h.seen t _ ht
        refine h.enter (fun x hx => ?_) fun x hx => ?_
        · obtain rfl := Option.some.inj hx
          exact hle
        · obtain rfl := Option.some.inj hx
          intro hseen
          -- What it has checked is what is still there.
          have hcounted : activeCount = s.activeCount := h.knows t _ ht hseen
          exact hcounted ▸ canScale_of_bounty hcheck.1
      · cases hs
        exact h.enter (by simp) (by simp)
    · cases hs
  | deleteBounty t =>
    simp only [Activation.step] at hs
    split at hs
    · next index active seen ht =>
      cases hs
      have hle := h.seen t _ ht
      have hknows := h.knows t _ ht
      refine (h.bounty false).enter (fun x hx => ?_) fun x hx => ?_
      · obtain rfl := Option.some.inj hx
        exact hle
      · obtain rfl := Option.some.inj hx
        exact hknows
    · cases hs
  | commit t =>
    simp only [Activation.step] at hs
    split at hs
    · cases hs
      exact (h.commit _).enter (by simp) (by simp)
    · cases hs
  | abort t =>
    cases hs
    exact h.enter (by simp) (by simp)
  | createBounty =>
    cases hs
    exact h.bounty true

/-- The other steps leave the instances. -/
theorem step_instances (hs : step targetCount s a = some s') (ha : ∀ t, a ≠ .commit t) :
    s'.instances = s.instances := by
  cases a with
  | commit t => exact absurd rfl (ha t)
  | load | count | deleteBounty =>
    simp only [step] at hs
    split at hs
    · cases hs
      rfl
    · cases hs
  | check t =>
    simp only [step] at hs
    split at hs
    · split at hs
      · cases hs
        rfl
      · cases hs
        rfl
    · cases hs
  | abort | createBounty =>
    cases hs
    rfl

/-- **The cap of a private chute**, in the runs in which no activation
commits between the count of another and its commit. -/
theorem capped (h : (system targetCount).Reach Undisturbed as s) : Capped targetCount s := by
  suffices hboth : Inv targetCount s ∧ Capped targetCount s from hboth.2
  refine h.invariant (I := fun s => Inv targetCount s ∧ Capped targetCount s) ?_ ?_
  · intro s hinit
    obtain ⟨hcap, hnone⟩ : Capped targetCount s ∧ ∀ t, s.txns t = none := hinit
    exact ⟨⟨fun t _ ht => by simp [hnone t] at ht, fun t _ ht => by simp [hnone t] at ht⟩, hcap⟩
  · intro s a s' hboth hok hs
    obtain ⟨hinv, hcap⟩ := hboth
    refine ⟨hinv.step hs, ?_⟩
    by_cases hcommit : ∃ t, a = .commit t
    · obtain ⟨t, rfl⟩ := hcommit
      cases ht : s.txns t with
      | none => simp [system, step, ht] at hs
      | some txn =>
        refine (capped_commit_iff hcap ht hs).2 fun hadds => ?_
        have hknows := hinv.knows t txn ht (hok txn ht hadds)
        have hphase : txn.phase = .committing := by
          simp only [system, step, ht] at hs
          split at hs
          · next heq => rw [Option.some.inj heq]
          · cases hs
        rw [hphase] at hknows
        exact hknows
    · have hsame := step_instances hs fun t heq => hcommit ⟨t, heq⟩
      unfold Capped State.activeCount at hcap ⊢
      rw [hsame]
      exact hcap

section

/-- A chute with two verified instances. -/
private def raced : State where
  instances := [⟨false, true⟩, ⟨false, true⟩]
  bounty := true
  txns _ := none
  commits := 0

/-- An activation up to its check, and the rest of it. -/
private def checked (t : ℕ) : List Action := [.load t t, .count t, .check t]

private def activated (t : ℕ) : List Action := [.deleteBounty t, .commit t]

theorem capped_raced : ∃ s, (system 1).Reach Undisturbed
    (checked 0 ++ activated 0 ++ checked 1) s ∧ Capped 1 s := by
  have hr : (system 1).Reach Undisturbed (checked 0 ++ activated 0 ++ checked 1) _ :=
    Lts.reach_of_exec (show (system 1).init raced from ⟨by decide, fun _ => rfl⟩)
      (by decide +kernel) rfl
  exact ⟨_, hr, capped hr⟩

/-- **Both count before either commits.** -/
theorem not_capped : ¬ ∀ targetCount as s, (system targetCount).Run as s →
    Capped targetCount s := by
  intro h
  have hr : (system 1).Run (checked 0 ++ checked 1 ++ activated 0 ++ activated 1) _ :=
    Lts.reach_of_exec (show (system 1).init raced from ⟨by decide, fun _ => rfl⟩)
      (Lts.meets_of_forall (fun _ _ _ => trivial) _) rfl
  exact absurd (h 1 _ _ hr) (by decide +kernel)

end

end Activation

end ChutesApi
