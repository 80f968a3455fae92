import ChutesApi.Common.Lts
import ChutesApi.Python.Exc
import Mathlib.Data.Int.Notation
import Mathlib.Data.Nat.Notation
import Mathlib.Logic.Function.Basic
/-!
# The quota of a rolling update

While a chute is updated, each miner may launch as many new instances as it
had. The numbers stand in a column of JSON, which `_check_scalable` counts
down in place, and the session writes a column back only if it was assigned.
So the committed numbers never change (`permitted_eq`): a miner with any
quota has it without limit, and the quota is kept in the runs in which
nobody uses it (`quota_kept`), and in no others (`quota_iff`).
-/

namespace ChutesApi

open Python

namespace RollingUpdate

/-! ## The check -/

/-- `permitted`, by hotkey. -/
abbrev Permitted := List (String × ℕ)

/-- `permitted[hotkey] -= 1`. -/
def Permitted.consume (permitted : Permitted) (hotkey : String) : Permitted :=
  permitted.map fun (key, limit) => if key = hotkey then (key, limit - 1) else (key, limit)

/-- What `_check_scalable` counts, and the target. -/
structure Counts where
  currentCount : ℕ
  activeCount : ℕ
  hotkeyCount : ℕ
  targetCount : ℤ

/-- How a launch gets past the check; by the branch of the rolling update,
with `permitted` as it leaves it in memory. -/
inductive Admission
  | open
  | rollingUpdate (permitted : Permitted)
  deriving DecidableEq

/-- The check on the target, where no rolling update applies. -/
def checkTarget (chuteId : String) (n : Counts) : Except Exc Admission :=
  if n.targetCount ≤ n.currentCount then
    .error (.http 423
      s!"Chute {chuteId} has reached its target capacity of {n.targetCount} instances.")
  else if n.targetCount - n.currentCount ≤ 2 ∧ n.hotkeyCount = n.currentCount then
    .error (.http 423
      (s!"Chute {chuteId} is near capacity with only {n.targetCount - n.currentCount} slots " ++
        s!"remaining. You already have {n.hotkeyCount} instance(s)."))
  else .ok .open

/-- The branch of a rolling update. -/
def checkPermitted (chuteId : String) (permitted : Permitted) (hotkey : String) :
    Except Exc Admission :=
  let limit := (permitted.lookup hotkey).getD 0
  if limit = 0 ∧ permitted ≠ [] then
    .error (.http 423
      (s!"Chute {chuteId} is currently undergoing a rolling update and you have no quota, " ++
        "try again later."))
  else .ok (.rollingUpdate (if limit = 0 then permitted else permitted.consume hotkey))

/-- Whether the branch of a rolling update is taken. -/
def Counts.Rolling (n : Counts) : Prop :=
  ¬ ((n.currentCount : ℤ) ≤ n.targetCount + 2 ∧ n.activeCount = 0) ∧
    n.targetCount - 2 ≤ n.currentCount

/-- `_check_scalable`. -/
def checkScalable (chuteId : String) (n : Counts) (rollingUpdate : Option Permitted)
    (hotkey : String) : Except Exc Admission :=
  if (n.currentCount : ℤ) ≤ n.targetCount + 2 ∧ n.activeCount = 0 then .ok .open
  else match rollingUpdate with
    | some permitted =>
      if n.targetCount - 2 ≤ n.currentCount then checkPermitted chuteId permitted hotkey
      else checkTarget chuteId n
    | none => checkTarget chuteId n

/-- A miner with a number is let in, whatever the number, as long as it is
not 0. -/
theorem checkScalable_of_lookup {chuteId hotkey : String} {n : Counts} {permitted : Permitted}
    {limit : ℕ} (hn : n.Rolling) (hlimit : permitted.lookup hotkey = some limit)
    (hpos : 0 < limit) :
    checkScalable chuteId n (some permitted) hotkey =
      .ok (.rollingUpdate (permitted.consume hotkey)) := by
  have hne : limit ≠ 0 := by omega
  unfold checkScalable checkPermitted
  rw [if_neg hn.1]
  simp [hn.2, hlimit, hne]

/-! ## The column -/

/-- A column as the session sees it. -/
structure Column (α : Type*) where
  value : α
  /-- An assignment to the attribute has been seen. -/
  assigned : Bool := false

/-- A change of the value in place, which nobody sees. -/
def Column.mutate {α : Type*} (c : Column α) (value : α) : Column α := { c with value }

/-- What the commit of the session leaves in the row. -/
def Column.flush {α : Type*} (c : Column α) (committed : α) : α :=
  if c.assigned then c.value else committed

/-! ## The system -/

/-- A row of `instances`. -/
structure Instance where
  configId : String
  hotkey : String
  /-- `active` and `verified`. -/
  active : Bool

/-- A request past the check, up to its commit. -/
structure Session where
  hotkey : String
  /-- The config that is claimed; `none` for `get_launch_config`. -/
  configId : Option String
  permitted : Column Permitted
  /-- The check was passed by the branch of the rolling update. -/
  rolling : Bool

structure State where
  permitted : Permitted
  instances : List Instance
  /-- The miner of a launch config. -/
  configs : String → Option String
  sessions : ℕ → Option Session
  /-- The instances a miner has launched by the rolling update. -/
  launched : String → ℕ

inductive Action
  /-- The check of either endpoint; the target is `none` if it is not
  known. -/
  | getLaunchConfig (sid : ℕ) (hotkey : String) (targetCount : Option ℤ)
  | claimLaunchConfig (sid : ℕ) (configId : String) (targetCount : Option ℤ)
  | commitGet (sid : ℕ) (configId : String)
  | commitClaim (sid : ℕ)
  | rollback (sid : ℕ)
  /-- What else happens to instances. -/
  | others (instances : List Instance)

variable (chuteId : String)

/-- What the check of a miner counts. -/
def State.counts (s : State) (hotkey : String) (targetCount : Option ℤ) : Counts where
  currentCount := s.instances.length
  activeCount := s.instances.countP (·.active)
  hotkeyCount := s.instances.countP (·.hotkey = hotkey)
  targetCount := targetCount.getD s.instances.length

/-- The check, in a session of its own. -/
def State.check (s : State) (sid : ℕ) (hotkey : String) (configId : Option String)
    (targetCount : Option ℤ) : State :=
  let column : Column Permitted := { value := s.permitted }
  match checkScalable chuteId (s.counts hotkey targetCount) (some s.permitted) hotkey with
  | .error _ => s
  | .ok .open =>
    { s with sessions := Function.update s.sessions sid (some ⟨hotkey, configId, column, false⟩) }
  | .ok (.rollingUpdate permitted) =>
    { s with
      sessions := Function.update s.sessions sid
        (some ⟨hotkey, configId, column.mutate permitted, true⟩) }

def step (s : State) : Action → Option State
  | .getLaunchConfig sid hotkey targetCount =>
    if s.sessions sid = none then some (s.check chuteId sid hotkey none targetCount) else none
  | .claimLaunchConfig sid configId targetCount =>
    match s.configs configId with
    | some hotkey =>
      if s.sessions sid = none then
        some (s.check chuteId sid hotkey (some configId) targetCount)
      else none
    | none => none
  | .commitGet sid configId =>
    match s.sessions sid, s.configs configId with
    | some ⟨hotkey, none, column, _⟩, none =>
      some { s with
        permitted := column.flush s.permitted
        configs := Function.update s.configs configId (some hotkey)
        sessions := Function.update s.sessions sid none }
    | _, _ => none
  | .commitClaim sid =>
    match s.sessions sid with
    | some ⟨hotkey, some configId, column, rolling⟩ =>
      if s.instances.any (·.configId = configId) then none
      else some
        { s with
          permitted := column.flush s.permitted
          instances := s.instances ++ [⟨configId, hotkey, false⟩]
          sessions := Function.update s.sessions sid none
          launched := if rolling then
              Function.update s.launched hotkey (s.launched hotkey + 1)
            else s.launched }
    | _ => none
  | .rollback sid => some { s with sessions := Function.update s.sessions sid none }
  | .others instances => some { s with instances }

/-- A rolling update begins, with the numbers given. -/
def system (permitted : Permitted) : Lts State Action where
  init s := s.permitted = permitted ∧ (∀ sid, s.sessions sid = none) ∧ ∀ h, s.launched h = 0
  step := step chuteId

/-- **The quota**: a miner launches as many instances as it has units, the
committed numbers say how many are left, and what is left can be used. -/
structure Quota (permitted : Permitted) (s : State) : Prop where
  bounded : ∀ hotkey q, permitted.lookup hotkey = some q → s.launched hotkey ≤ q
  recorded : ∀ hotkey q, permitted.lookup hotkey = some q →
    s.permitted.lookup hotkey = some (q - s.launched hotkey)
  available : ∀ hotkey q, permitted.lookup hotkey = some q → s.launched hotkey < q →
    ∀ n : Counts, n.Rolling → ∃ left,
      checkScalable chuteId n (some s.permitted) hotkey = .ok (.rollingUpdate left)

/-- No launch by the branch of the rolling update uses a quota. -/
def Unused (s : State) : Action → Prop
  | .commitClaim sid => ∀ session ∈ s.sessions sid, session.rolling →
    s.permitted.lookup session.hotkey = none
  | _ => True

instance (s : State) (a : Action) : Decidable (Unused s a) := by
  cases a <;> unfold Unused <;> infer_instance

/-! ## The committed numbers -/

variable {chuteId} {s s' : State} {a : Action} {as : List Action} {permitted : Permitted}

/-- **Nothing is written back**: no open session has seen an assignment, and
the numbers are as they were. -/
structure Inv (permitted : Permitted) (s : State) : Prop where
  permitted : s.permitted = permitted
  sessions : ∀ sid, ∀ session ∈ s.sessions sid, session.permitted.assigned = false

/-- A session that saw no assignment writes nothing. -/
theorem flush_of_not_assigned {α : Type*} {c : Column α} (h : c.assigned = false) (committed : α) :
    c.flush committed = committed := by
  simp [Column.flush, h]

/-- A session comes or goes. -/
theorem sessions_update {sid : ℕ} {new : Option Session}
    (hs : ∀ sid, ∀ session ∈ s.sessions sid, session.permitted.assigned = false)
    (hnew : ∀ session ∈ new, session.permitted.assigned = false) (sid' : ℕ) :
    ∀ session ∈ Function.update s.sessions sid new sid', session.permitted.assigned = false := by
  by_cases heq : sid' = sid
  · subst heq
    simpa using hnew
  · simpa [heq] using hs sid'

theorem Inv.check (h : Inv permitted s) (sid : ℕ) (hotkey : String) (configId : Option String)
    (targetCount : Option ℤ) :
    Inv permitted (s.check chuteId sid hotkey configId targetCount) ∧
      (s.check chuteId sid hotkey configId targetCount).launched = s.launched := by
  simp only [State.check]
  split
  · exact ⟨h, rfl⟩
  · refine ⟨⟨h.permitted, sessions_update h.sessions ?_⟩, rfl⟩
    rintro session ⟨⟩
    rfl
  · refine ⟨⟨h.permitted, sessions_update h.sessions ?_⟩, rfl⟩
    rintro session ⟨⟩
    rfl

/-- The step of an instance: what it counts. -/
theorem commitClaim_cases {sid : ℕ} (hs : step chuteId s (.commitClaim sid) = some s') :
    ∃ session configId, s.sessions sid = some session ∧ session.configId = some configId ∧
      s' = { s with
        permitted := session.permitted.flush s.permitted
        instances := s.instances ++ [⟨configId, session.hotkey, false⟩]
        sessions := Function.update s.sessions sid none
        launched := if session.rolling then
            Function.update s.launched session.hotkey (s.launched session.hotkey + 1)
          else s.launched } := by
  simp only [step] at hs
  split at hs
  · next hotkey configId column rolling hsession =>
    obtain ⟨-, hs⟩ := Option.ite_none_left_eq_some.1 hs
    cases hs
    exact ⟨_, configId, hsession, rfl, rfl⟩
  · cases hs

/-- **What a step does to the numbers and to the launches.** -/
theorem Inv.step (h : Inv permitted s) (hs : step chuteId s a = some s') :
    Inv permitted s' ∧ (s'.launched = s.launched ∨ ∃ sid session, a = .commitClaim sid ∧
      s.sessions sid = some session ∧ session.rolling ∧ s'.launched =
        Function.update s.launched session.hotkey (s.launched session.hotkey + 1)) := by
  cases a with
  | getLaunchConfig sid hotkey targetCount =>
    obtain ⟨-, hs⟩ := Option.ite_none_right_eq_some.1 hs
    cases hs
    obtain ⟨hinv, hlaunched⟩ := h.check sid hotkey none targetCount
    exact ⟨hinv, .inl hlaunched⟩
  | claimLaunchConfig sid configId targetCount =>
    simp only [RollingUpdate.step] at hs
    split at hs
    · next hotkey _ =>
      obtain ⟨-, hs⟩ := Option.ite_none_right_eq_some.1 hs
      cases hs
      obtain ⟨hinv, hlaunched⟩ := h.check sid hotkey (some configId) targetCount
      exact ⟨hinv, .inl hlaunched⟩
    · cases hs
  | commitGet sid configId =>
    simp only [RollingUpdate.step] at hs
    split at hs
    · next hotkey column rolling hsession _ =>
      cases hs
      have hassigned := h.sessions sid _ hsession
      exact ⟨⟨(flush_of_not_assigned hassigned _).trans h.permitted,
        sessions_update h.sessions fun _ hnone => (by cases hnone)⟩, .inl rfl⟩
    · cases hs
  | commitClaim sid =>
    obtain ⟨session, configId, hsession, -, rfl⟩ := commitClaim_cases hs
    have hassigned := h.sessions sid _ hsession
    refine ⟨⟨(flush_of_not_assigned hassigned _).trans h.permitted,
      sessions_update h.sessions fun _ hnone => (by cases hnone)⟩, ?_⟩
    cases hrolling : session.rolling with
    | true => exact .inr ⟨sid, session, rfl, hsession, hrolling, by simp⟩
    | false => exact .inl (by simp)
  | rollback sid =>
    cases hs
    exact ⟨⟨h.permitted, sessions_update h.sessions fun _ hnone => (by cases hnone)⟩, .inl rfl⟩
  | others instances =>
    cases hs
    exact ⟨⟨h.permitted, h.sessions⟩, .inl rfl⟩

theorem Inv.of_reach {ok : State → Action → Prop} (h : (system chuteId permitted).Reach ok as s) :
    Inv permitted s := by
  refine h.invariant ?_ fun _ _ _ hi _ hs => (hi.step hs).1
  rintro s ⟨hpermitted, hsessions, -⟩
  refine ⟨hpermitted, fun sid session hsession => ?_⟩
  rw [hsessions sid] at hsession
  cases hsession

/-- **The numbers of a rolling update never change.** -/
theorem permitted_eq (h : (system chuteId permitted).Run as s) : s.permitted = permitted :=
  (Inv.of_reach h).permitted

/-! ## The quota -/

/-- With the numbers as they were, the quota is kept where nobody has used
it. -/
theorem Inv.quota_iff (h : Inv permitted s) : Quota chuteId permitted s ↔
    ∀ hotkey q, permitted.lookup hotkey = some q → s.launched hotkey = 0 := by
  constructor
  · intro hquota hotkey q hq
    have hbounded := hquota.bounded hotkey q hq
    have hrecorded := hquota.recorded hotkey q hq
    rw [h.permitted, hq, Option.some.injEq] at hrecorded
    omega
  · intro hzero
    refine ⟨fun hotkey q hq => ?_, fun hotkey q hq => ?_, fun hotkey q hq hlt n hn => ?_⟩
    · rw [hzero hotkey q hq]
      omega
    · rw [hzero hotkey q hq, h.permitted]
      exact hq
    · rw [h.permitted]
      exact ⟨_, checkScalable_of_lookup hn hq (by omega)⟩

/-- **The quota is kept exactly as long as it is not used.** -/
theorem quota_iff (h : (system chuteId permitted).Run as s) : Quota chuteId permitted s ↔
    ∀ hotkey q, permitted.lookup hotkey = some q → s.launched hotkey = 0 :=
  (Inv.of_reach h).quota_iff

/-- **The quota is kept** in the runs in which nobody launches by it. -/
theorem quota_kept (h : (system chuteId permitted).Reach Unused as s) :
    Quota chuteId permitted s := by
  refine (Inv.of_reach h).quota_iff.2 ?_
  induction h with
  | init hinit =>
    intro hotkey q _
    exact hinit.2.2 hotkey
  | step hr hok hs ih =>
    intro hotkey q hq
    have hinv := Inv.of_reach hr
    obtain ⟨-, hsame | ⟨sid, session, rfl, hsession, hrolling, hlaunched⟩⟩ := hinv.step hs
    · rw [hsame]
      exact ih hotkey q hq
    · have hnone := hok session hsession hrolling
      rw [hinv.permitted] at hnone
      have hne : hotkey ≠ session.hotkey := by
        rintro rfl
        rw [hnone] at hq
        cases hq
      rw [hlaunched, Function.update_of_ne hne]
      exact ih hotkey q hq

section

/-- A chute with two instances, whose miner may launch one. -/
private def updating : State where
  permitted := [("5Miner", 1)]
  instances := [⟨"x", "5Miner", true⟩, ⟨"y", "5Other", true⟩]
  configs _ := none
  sessions _ := none
  launched _ := 0

/-- The miner gets a launch config. -/
private def asked (configId : String) : List Action :=
  [.getLaunchConfig 0 "5Miner" (some 2), .commitGet 0 configId]

/-- One launch of the miner. -/
private def launch (configId : String) : List Action :=
  asked configId ++ [.claimLaunchConfig 0 configId (some 2), .commitClaim 0]

theorem quota_kept_asked : ∃ s, (system "c" updating.permitted).Reach Unused (asked "a") s ∧
    Quota "c" updating.permitted s := by
  have hr : (system "c" updating.permitted).Reach Unused (asked "a") _ :=
    Lts.reach_of_exec ⟨rfl, fun _ => rfl, fun _ => rfl⟩ (by decide +kernel) rfl
  exact ⟨_, hr, quota_kept hr⟩

/-- **Two instances for one unit.** -/
theorem not_quota : ¬ ∀ chuteId permitted as s, (system chuteId permitted).Run as s →
    Quota chuteId permitted s := by
  intro h
  have hr : (system "c" updating.permitted).Run (launch "a" ++ launch "b") _ :=
    Lts.reach_of_exec ⟨rfl, fun _ => rfl, fun _ => rfl⟩
      (Lts.meets_of_forall (fun _ _ _ => trivial) _) rfl
  exact absurd ((h _ _ _ _ hr).bounded "5Miner" 1 rfl) (by decide +kernel)

end

end RollingUpdate

end ChutesApi
