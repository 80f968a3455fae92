import ChutesApi.Common.Lts
import ChutesApi.Common.Session
import ChutesApi.User.Model
import Mathlib.Data.Rat.Defs
import Mathlib.Tactic.NormNum
import Mathlib.Tactic.Ring
/-!
# The writers of `users.balance`

Four pieces of code change the column: the payment watcher and the usage
tracker and the admin endpoint through the ORM, which loads the row and
writes an absolute value back, and the instance-deletion trigger with a
relative `UPDATE`. Each is a transaction under READ COMMITTED, in any
interleaving and with any rollbacks. No update is lost in the runs whose
every absolute write finds the balance it loaded (`balance_law`), and one
is in a run of two transactions otherwise (`not_balance_law`).
-/

namespace ChutesApi

namespace Balance

/-- `delta = amount * fmv / 1e9`. -/
def usdAmount (amount : ℕ) (fmv : ℚ) : ℚ := amount * fmv / 1000000000

/-- The least transfer that is not dust, in rao. -/
def minPayment : ℕ := 7000000

/-- A free account without invoice billing is not charged. -/
def skipsDeduction (user : User) : Bool :=
  user.hasRole Permissioning.freeAccount && !user.hasRole Permissioning.invoiceBilling

/-- A transaction that may change `users.balance`, with the user it found
and what else it was called with. -/
inductive Writer
  /-- `_handle_payment` of a transfer to the user's payment address. -/
  | handlePayment (userId : UserId) (amount : ℕ) (fmv : ℚ)
  /-- `process_balance_changes`, with the totals it has read from Redis. -/
  | processBalanceChanges (userTotals : List (UserId × ℚ))
  /-- `admin_balance_change`. -/
  | adminBalanceChange (userId : UserId) (amount : ℚ)
  /-- `update_balance_on_instance_delete`, where it charges the user. -/
  | instanceDelete (billedTo : UserId) (totalCost : ℚ)

variable (users : UserId → Option User)

/-- `user.balance += delta`, of which a session flushes nothing where the
value is as it was. -/
def increase (userId : UserId) (delta : ℚ) : List (Stmt UserId ℚ) :=
  if delta = 0 then [.load userId] else [.load userId, .store userId delta]

/-- The loop body of the tracker over `user_totals`. -/
def deduct (userId : UserId) (amount : ℚ) : List (Stmt UserId ℚ) :=
  match users userId with
  | none => []
  | some user => if skipsDeduction user then [.load userId] else increase userId (-amount)

/-- The statements of a transaction on the balance column. -/
def Writer.stmts : Writer → List (Stmt UserId ℚ)
  | .handlePayment userId amount fmv =>
    if amount < minPayment then [.load userId] else increase userId (usdAmount amount fmv)
  | .processBalanceChanges userTotals =>
    userTotals.flatMap fun total => deduct users total.1 total.2
  | .adminBalanceChange userId amount => increase userId amount
  | .instanceDelete billedTo totalCost => [.add billedTo (-totalCost)]

/-! ## What each transaction is for -/

/-- What a transaction credits to a user. An admin's adjustment counts as a
credit, of either sign. -/
def Writer.credit (u : UserId) : Writer → ℚ
  | .handlePayment userId amount fmv =>
    if userId = u ∧ minPayment ≤ amount then usdAmount amount fmv else 0
  | .adminBalanceChange userId amount => if userId = u then amount else 0
  | _ => 0

/-- What one of the tracker's totals debits from a user: nothing if there is
no such user or it is not charged. -/
def charge (u : UserId) (total : UserId × ℚ) : ℚ :=
  match users total.1 with
  | none => 0
  | some user => if total.1 = u ∧ !skipsDeduction user then total.2 else 0

/-- What a transaction debits from a user. -/
def Writer.debit (u : UserId) : Writer → ℚ
  | .processBalanceChanges userTotals => (userTotals.map (charge users u)).sum
  | .instanceDelete billedTo totalCost => if billedTo = u then totalCost else 0
  | _ => 0

theorem net_increase (u userId : UserId) (delta : ℚ) :
    net (increase userId delta) u = if userId = u then delta else 0 := by
  unfold increase
  split
  · next hzero => simp [hzero, Stmt.delta]
  · simp [Stmt.delta]

theorem net_deduct (u : UserId) (total : UserId × ℚ) :
    net (deduct users total.1 total.2) u = -charge users u total := by
  unfold deduct charge
  cases users total.1 with
  | none => simp
  | some user =>
    by_cases hs : skipsDeduction user <;> by_cases hu : total.1 = u <;>
      simp [hs, hu, Stmt.delta, net_increase]

theorem net_flatMap_deduct (u : UserId) (userTotals : List (UserId × ℚ)) :
    net (userTotals.flatMap fun total => deduct users total.1 total.2) u =
      -(userTotals.map (charge users u)).sum := by
  induction userTotals with
  | nil => simp
  | cons total userTotals ih =>
    simp only [List.flatMap_cons, net_append, net_deduct, ih, List.map_cons, List.sum_cons]
    ring

/-- **The statements are meant to make the change the transaction is for.** -/
theorem net_stmts (w : Writer) (u : UserId) :
    net (w.stmts users) u = w.credit u - w.debit users u := by
  cases w with
  | handlePayment userId amount fmv =>
    by_cases h : amount < minPayment
    · simp [Writer.stmts, Writer.credit, Writer.debit, Stmt.delta, h, not_le.2 h]
    · simp [Writer.stmts, Writer.credit, Writer.debit, net_increase, h, not_lt.1 h]
  | processBalanceChanges userTotals =>
    simp [Writer.stmts, Writer.credit, Writer.debit, net_flatMap_deduct]
  | adminBalanceChange userId amount =>
    simp [Writer.stmts, Writer.credit, Writer.debit, net_increase]
  | instanceDelete billedTo totalCost =>
    by_cases h : billedTo = u <;>
      simp [Writer.stmts, Writer.credit, Writer.debit, Stmt.delta, h]

/-! ## The system -/

/-- The column, what each open transaction is, and the committed ones. -/
structure State (τ : Type*) where
  table : Table τ UserId ℚ
  running : τ → Option Writer
  committed : List Writer

/-- A step of some transaction. -/
inductive Action (τ : Type*)
  | begin (t : τ) (w : Writer)
  | exec (t : τ)
  | commit (t : τ)
  | rollback (t : τ)

variable {τ : Type*} [DecidableEq τ]

def step (s : State τ) : Action τ → Option (State τ)
  | .begin t w => (s.table.begin t (w.stmts users)).map fun table =>
    { s with table, running := Function.update s.running t (some w) }
  | .exec t => (s.table.exec t).map fun table => { s with table }
  | .commit t => (s.running t).bind fun w => (s.table.commit t).map fun table =>
    ⟨table, Function.update s.running t none, s.committed ++ [w]⟩
  | .rollback t => (s.table.rollback t).map fun table =>
    { s with table, running := Function.update s.running t none }

/-- Any number of writers over the given initial balances. -/
def system (τ : Type*) [DecidableEq τ] (balance : UserId → ℚ) : Lts (State τ) (Action τ) where
  init s := s = ⟨.idle balance, fun _ => none, []⟩
  step := step users

/-- An absolute write finds the balance its transaction loaded. -/
def Unmoved (s : State τ) : Action τ → Prop
  | .exec t => s.table.Current t
  | _ => True

instance (s : State τ) (a : Action τ) : Decidable (Unmoved s a) := by
  unfold Unmoved
  split <;> infer_instance

/-- **No lost update**: a balance is the initial one, plus the committed
credits, minus the committed debits. -/
def Law (balance : UserId → ℚ) (s : State τ) : Prop :=
  ∀ u, (s.table.row u).committed =
    balance u + (s.committed.map (Writer.credit u)).sum
      - (s.committed.map (Writer.debit users u)).sum

/-! ## The law -/

/-- The transactions run their writers' statements: the open ones have run
a first part of them, the committed ones all. -/
structure Scripted (s : State τ) : Prop where
  log : s.table.log = s.committed.map (Writer.stmts users)
  running : ∀ t S w, s.table.sess t = some S → s.running t = some w →
    S.done ++ S.todo = w.stmts users

variable {users} {balance : UserId → ℚ}

theorem Scripted.step {s s' : State τ} {a : Action τ} (hs : Scripted users s)
    (h : step users s a = some s') : Scripted users s' := by
  cases a with
  | begin t w =>
    simp only [Balance.step, Option.map_eq_some_iff] at h
    obtain ⟨T, hT, rfl⟩ := h
    obtain ⟨-, hlog, -, hsess⟩ := Table.begin_sess hT
    refine ⟨hlog.trans hs.log, fun u S w' hS hw => ?_⟩
    rw [hsess] at hS
    obtain ⟨rfl, hnew⟩ | ⟨hu, hS⟩ := of_update_eq_some hS
    · simp only [Function.update_self, Option.some.injEq] at hw
      rw [← Option.some.inj hnew, ← hw, List.nil_append]
    · simp only [Function.update_of_ne hu] at hw
      exact hs.running u S w' hS hw
  | exec t =>
    simp only [Balance.step, Option.map_eq_some_iff] at h
    obtain ⟨T, hT, rfl⟩ := h
    obtain ⟨hlog, hother, S, S', hS, hS', hscript⟩ := Table.exec_sess hT
    refine ⟨hlog.trans hs.log, fun u S₁ w hu hw => ?_⟩
    rcases eq_or_ne u t with rfl | hut
    · obtain rfl := Option.some.inj (hS'.symm.trans hu)
      rw [hscript]
      exact hs.running u S w hS hw
    · rw [hother u hut] at hu
      exact hs.running u S₁ w hu hw
  | commit t =>
    simp only [Balance.step, Option.bind_eq_some_iff, Option.map_eq_some_iff] at h
    obtain ⟨w, hw, T, hT, rfl⟩ := h
    obtain ⟨done, kept, hS, hlog, hsess⟩ := Table.commit_sess hT
    have hdone : done = w.stmts users := by simpa using hs.running t _ w hS hw
    refine ⟨?_, fun u S w' hu hw' => ?_⟩
    · simp [hlog, hs.log, hdone]
    · rw [hsess] at hu
      obtain ⟨-, hnone⟩ | ⟨hut, hu⟩ := of_update_eq_some hu
      · cases hnone
      · simp only [Function.update_of_ne hut] at hw'
        exact hs.running u S w' hu hw'
  | rollback t =>
    simp only [Balance.step, Option.map_eq_some_iff] at h
    obtain ⟨T, hT, rfl⟩ := h
    obtain ⟨hlog, hsess⟩ := Table.rollback_sess hT
    refine ⟨hlog.trans hs.log, fun u S w' hu hw' => ?_⟩
    rw [hsess] at hu
    obtain ⟨-, hnone⟩ | ⟨hut, hu⟩ := of_update_eq_some hu
    · cases hnone
    · simp only [Function.update_of_ne hut] at hw'
      exact hs.running u S w' hu hw'

theorem inv_step {s s' : State τ} {a : Action τ} (hs : s.table.Inv balance) (hok : Unmoved s a)
    (h : step users s a = some s') : s'.table.Inv balance := by
  cases a with
  | begin t w =>
    simp only [Balance.step, Option.map_eq_some_iff] at h
    obtain ⟨T, hT, rfl⟩ := h
    exact hs.begin hT
  | exec t =>
    simp only [Balance.step, Option.map_eq_some_iff] at h
    obtain ⟨T, hT, rfl⟩ := h
    exact hs.exec hok hT
  | commit t =>
    simp only [Balance.step, Option.bind_eq_some_iff, Option.map_eq_some_iff] at h
    obtain ⟨w, hw, T, hT, rfl⟩ := h
    exact hs.commit hT
  | rollback t =>
    simp only [Balance.step, Option.map_eq_some_iff] at h
    obtain ⟨T, hT, rfl⟩ := h
    exact hs.rollback hT

theorem sum_net_stmts (ws : List Writer) (u : UserId) :
    (ws.map fun w => net (w.stmts users) u).sum =
      (ws.map (Writer.credit u)).sum - (ws.map (Writer.debit users u)).sum := by
  induction ws with
  | nil => simp
  | cons w ws ih =>
    rw [List.map_cons, List.sum_cons, ih, net_stmts, List.map_cons, List.sum_cons,
      List.map_cons, List.sum_cons]
    ring

/-- **No update is lost where no absolute write is of a stale balance.** -/
theorem balance_law (as : List (Action τ)) (s : State τ)
    (h : (system users τ balance).Reach Unmoved as s) : Law users balance s := by
  have hinv : s.table.Inv balance ∧ Scripted users s := by
    refine h.invariant (I := fun s => s.table.Inv balance ∧ Scripted users s) ?_ ?_
    · rintro s rfl
      exact ⟨Table.inv_idle, rfl, fun t S w hS => by simp [Table.idle] at hS⟩
    · rintro s a s' ⟨hi, hs⟩ hok hstep
      exact ⟨inv_step hi hok hstep, hs.step hstep⟩
  intro u
  rw [hinv.1.law u, hinv.2.log, List.map_map, add_sub_assoc, ← sum_net_stmts]
  rfl

/-! ## A run on each side of the guard -/

/-- One user, who is charged. -/
private def oneUser (userId : UserId) : Option User :=
  if userId = "u" then some { userId } else none

/-- A payment, a tracker pass and an instance deletion, all open at once,
of which none loads the balance while another is changing it. -/
private def turns : List (Action ℕ) :=
  [.begin 0 (.handlePayment "u" 2000000000 3),
    .begin 1 (.processBalanceChanges [("u", 5), ("v", 7)]), .begin 2 (.instanceDelete "u" 4),
    .exec 2, .commit 2, .exec 1, .exec 1, .commit 1, .exec 0, .exec 0, .commit 0]

theorem balance_law_turns : ∃ s, (system oneUser ℕ fun _ => 10).Reach Unmoved turns s ∧
    Law oneUser (fun _ => 10) s ∧ (s.table.row "u").committed = 7 := by
  have hreach : (system oneUser ℕ fun _ => 10).Reach Unmoved turns _ :=
    Lts.reach_getD_exec rfl (by decide +kernel) (by decide +kernel)
  exact ⟨_, hreach, balance_law turns _ hreach, by decide +kernel⟩

/-- **A lost update.** A payment and an admin's adjustment both load the
balance, and the second one to write it back undoes the first: 5 are left
where there should be 11. -/
theorem not_balance_law : ¬ ∀ (users : UserId → Option User) (balance : UserId → ℚ)
    (as : List (Action ℕ)) (s : State ℕ), (system users ℕ balance).Run as s →
      (∀ t, s.table.sess t = none) → Law users balance s := by
  intro h
  let as : List (Action ℕ) :=
    [.begin 0 (.handlePayment "u" 2000000000 3), .begin 1 (.adminBalanceChange "u" 5),
      .exec 0, .exec 1, .exec 0, .commit 0, .exec 1, .commit 1]
  have hreach : (system oneUser ℕ fun _ => 0).Run as _ :=
    Lts.run_getD_exec rfl (by decide +kernel)
  refine absurd (h oneUser _ as _ hreach (fun t => ?_) "u") (by decide +kernel)
  rcases t with _ | _ | t <;> with_unfolding_all rfl

end Balance

end ChutesApi
