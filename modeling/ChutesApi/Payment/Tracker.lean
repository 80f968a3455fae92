import ChutesApi.Payment.Model.Usage
import Mathlib.Algebra.BigOperators.Fin
import Mathlib.Tactic.Abel
/-!
# The usage tracker

Invocations increment the hashes while any number of trackers run their
passes. A pass lists the keys, reads each hash, issues the deductions to
its session, deletes the keys it has listed and commits. Its insertions
into `usage_data` are relative and take effect with the commit; its
deductions go through the ORM, which writes absolute balances.

What a pass has read is held by it until it deletes the keys. The counts
are conserved in the runs where nothing is added to a held key, no held key
is read by another pass, or by the same one again, and no absolute write is
of a stale balance (`usage_conserved`). An increment between a read and the
deletion is lost (`not_usage_conserved`), as a key that `SCAN` lists twice is
charged twice.
-/

namespace ChutesApi

namespace Tracker

open Usage

/-- How far a pass is. -/
inductive Stage
  /-- It reads the keys it has listed. -/
  | reading
  /-- It has totalled what it read and deducts it. -/
  | deducting
  /-- It has deleted the keys. -/
  | deleted
  deriving DecidableEq

/-- A pass of `process_balance_changes`: the listed keys it has still to
read, and what it has read. -/
structure Pass where
  todo : List Key
  reads : Reads
  stage : Stage

/-- The stores, with the open passes. `added` and `charged` keep what the
invocations have added and what the committed passes have read. -/
structure State (τ : Type*) where
  redis : Redis
  usageData : List UsageData
  /-- `users.balance`. -/
  table : Table τ UserId ℚ
  passes : τ → Option Pass
  added : Key → Counts
  charged : Reads

inductive Action (τ : Type*)
  /-- The pipeline of an invocation. -/
  | invoke (i : Invocation)
  /-- `SCAN` has listed these keys. -/
  | scan (t : τ) (keys : List Key)
  /-- `HGETALL` of the next key, and its insertion. -/
  | read (t : τ)
  /-- The totals go to the session. -/
  | total (t : τ)
  /-- The next statement on `users`. -/
  | exec (t : τ)
  /-- The pipeline that deletes the listed keys. -/
  | delete (t : τ)
  | commit (t : τ)

variable (users : UserId → Option User)

/-- The loop over `user_totals.items()`. -/
def deductions (reads : Reads) : List (Stmt UserId ℚ) :=
  (userTotals reads).flatMap fun total => Balance.deduct users total.1 total.2

/-- The selects have run. What is left are updates, which the session may
flush as late as in its commit. -/
def Selected (ss : List (Stmt UserId ℚ)) : Prop := ∀ s ∈ ss, ∀ u, s ≠ .load u

instance (ss : List (Stmt UserId ℚ)) : Decidable (Selected ss) :=
  decidable_of_iff (∀ s ∈ ss, (match s with | .load _ => false | _ => true) = true) (by
    refine forall₂_congr fun s _ => ?_
    cases s <;> simp)

variable {τ : Type*} [DecidableEq τ]

/-- One step. The listing of a `scan` is any list of keys, so that it may
lack keys and have some twice. -/
def step (s : State τ) : Action τ → Option (State τ)
  | .invoke i =>
    some { s with redis := s.redis.pipeline i, added := fun k => s.added k + i.added k }
  | .scan t keys => (s.table.begin t []).map fun table =>
    { s with table, passes := Function.update s.passes t (some ⟨keys, [], .reading⟩) }
  | .read t =>
    match s.passes t with
    | some ⟨k :: keys, reads, .reading⟩ =>
      some { s with
        passes := Function.update s.passes t
          (some ⟨keys, reads ++ [(k, s.redis.hgetall k)], .reading⟩) }
    | _ => none
  | .total t =>
    match s.passes t with
    | some ⟨[], reads, .reading⟩ => (s.table.issue t (deductions users reads)).map fun table =>
      { s with table, passes := Function.update s.passes t (some ⟨[], reads, .deducting⟩) }
    | _ => none
  | .exec t => (s.table.exec t).map fun table => { s with table }
  | .delete t =>
    match s.passes t, s.table.sess t with
    | some ⟨todo, reads, .deducting⟩, some S =>
      if Selected S.todo then
        some { s with
          redis := s.redis.delete (reads.map Prod.fst)
          passes := Function.update s.passes t (some ⟨todo, reads, .deleted⟩) }
      else none
    | _, _ => none
  | .commit t =>
    match s.passes t with
    | some ⟨_, reads, .deleted⟩ => (s.table.commit t).map fun table =>
      { s with
        table
        usageData := reads.foldl (insertUsage users) s.usageData
        passes := Function.update s.passes t none
        charged := s.charged ++ reads }
    | _ => none

/-- Trackers `τ`, over the given initial balances. -/
def system (τ : Type*) [DecidableEq τ] (balance : UserId → ℚ) : Lts (State τ) (Action τ) where
  init s := s = ⟨fun _ => none, [], .idle balance, fun _ => none, 0, []⟩
  step := step users

/-- The pass has read the key and not deleted it. -/
def Pass.Holds (p : Pass) (k : Key) : Prop := p.stage ≠ .deleted ∧ k ∈ p.reads.map Prod.fst

instance (p : Pass) (k : Key) : Decidable (p.Holds k) := by unfold Pass.Holds; infer_instance

/-- Some pass has. -/
def State.Held (s : State τ) (k : Key) : Prop := ∃ t, ∃ p ∈ s.passes t, p.Holds k

instance [Fintype τ] (s : State τ) (k : Key) : Decidable (s.Held k) := by
  unfold State.Held; infer_instance

/-- **The guard.** Nothing is added to a key that a pass holds; a key that
is held is read only where nothing is pending; and an absolute write finds
the balance its pass loaded. -/
def Exclusive (s : State τ) : Action τ → Prop
  | .invoke i => ∀ c ∈ i.increments, ¬ s.Held c.key
  | .read t => ∀ p ∈ s.passes t, ∀ k ∈ p.todo.head?, s.Held k → s.redis.pending k = 0
  | .exec t => s.table.Current t
  | _ => True

instance [Fintype τ] (s : State τ) (a : Action τ) : Decidable (Exclusive s a) := by
  unfold Exclusive
  split <;> infer_instance

/-- No pass is open. -/
def Quiescent (s : State τ) : Prop := ∀ t, (s.passes t).isNone

omit [DecidableEq τ] in
instance [Fintype τ] (s : State τ) : Decidable (Quiescent s) := by
  unfold Quiescent; infer_instance

/-- **Nothing is lost and nothing counted twice.** For each user who exists
and is not skipped: the balance is the initial one less what the passes
charged, and what the invocations added to a key is what was charged for
it, as `usage_data` has it, and what is pending. -/
structure Conserved (balance : UserId → ℚ) (s : State τ) : Prop where
  balance : ∀ u, billed users u →
    (s.table.row u).committed =
      balance u - ((s.charged.filter (·.1.1 == u)).map (·.2.value .amount)).sum
  charged : ∀ k, billed users k.1 → readOf s.charged k + s.redis.pending k = s.added k
  usage : ∀ k, billed users k.1 → usageOf s.usageData k + s.redis.pending k = s.added k

/-! ## The database's side -/

/-- The statements a pass has given to its session. -/
def Pass.issued (p : Pass) : List (Stmt UserId ℚ) :=
  match p.stage with
  | .reading => []
  | _ => deductions users p.reads

/-- The sessions are the passes', each runs what its pass has issued, and
the committed ones have deducted what is charged. -/
structure Ledger (balance : UserId → ℚ) (s : State τ) : Prop where
  table : s.table.Inv balance
  session : ∀ t, (s.passes t).isSome = (s.table.sess t).isSome
  script : ∀ t p S, s.passes t = some p → s.table.sess t = some S →
    S.done ++ S.todo = p.issued users
  log : ∀ u, (s.table.log.map (net · u)).sum = -deducted users s.charged u
  usage : ∀ k, (users k.1).isSome → usageOf s.usageData k = readOf s.charged k

variable {users} {balance : UserId → ℚ}

/-! ### What a step does -/

section Steps

variable {s s' : State τ} {t : τ}

theorem of_step_scan {keys : List Key} (h : step users s (.scan t keys) = some s') :
    ∃ table, s.table.begin t [] = some table ∧ s' = { s with
      table, passes := Function.update s.passes t (some ⟨keys, [], .reading⟩) } := by
  obtain ⟨table, hbegin, rfl⟩ := Option.map_eq_some_iff.1 h
  exact ⟨table, hbegin, rfl⟩

theorem of_step_read (h : step users s (.read t) = some s') :
    ∃ k keys reads, s.passes t = some ⟨k :: keys, reads, .reading⟩ ∧ s' = { s with
      passes := Function.update s.passes t
        (some ⟨keys, reads ++ [(k, s.redis.hgetall k)], .reading⟩) } := by
  simp only [step] at h
  split at h
  · next k keys reads hp => exact ⟨k, keys, reads, hp, (Option.some.inj h).symm⟩
  · cases h

theorem of_step_total (h : step users s (.total t) = some s') :
    ∃ reads table, s.passes t = some ⟨[], reads, .reading⟩ ∧
      s.table.issue t (deductions users reads) = some table ∧ s' = { s with
        table, passes := Function.update s.passes t (some ⟨[], reads, .deducting⟩) } := by
  simp only [step] at h
  split at h
  · next reads hp =>
    obtain ⟨table, hissue, rfl⟩ := Option.map_eq_some_iff.1 h
    exact ⟨reads, table, hp, hissue, rfl⟩
  · cases h

theorem of_step_exec (h : step users s (.exec t) = some s') :
    ∃ table, s.table.exec t = some table ∧ s' = { s with table } := by
  obtain ⟨table, hexec, rfl⟩ := Option.map_eq_some_iff.1 h
  exact ⟨table, hexec, rfl⟩

theorem of_step_delete (h : step users s (.delete t) = some s') :
    ∃ todo reads, s.passes t = some ⟨todo, reads, .deducting⟩ ∧ s' = { s with
      redis := s.redis.delete (reads.map Prod.fst)
      passes := Function.update s.passes t (some ⟨todo, reads, .deleted⟩) } := by
  simp only [step] at h
  split at h
  · next todo reads S hp hS =>
    split_ifs at h
    exact ⟨todo, reads, hp, (Option.some.inj h).symm⟩
  · cases h

theorem of_step_commit (h : step users s (.commit t) = some s') :
    ∃ todo reads table, s.passes t = some ⟨todo, reads, .deleted⟩ ∧
      s.table.commit t = some table ∧ s' = { s with
        table
        usageData := reads.foldl (insertUsage users) s.usageData
        passes := Function.update s.passes t none
        charged := s.charged ++ reads } := by
  simp only [step] at h
  split at h
  · next todo reads hp =>
    obtain ⟨table, hcommit, rfl⟩ := Option.map_eq_some_iff.1 h
    exact ⟨todo, reads, table, hp, hcommit, rfl⟩
  · cases h

end Steps

theorem net_deductions (reads : Reads) (u : UserId) :
    net (deductions users reads) u = -deducted users reads u := by
  rw [deductions, Balance.net_flatMap_deduct, sum_charge_userTotals]

/-- The next stage of a pass whose session has not moved. -/
theorem Ledger.move {s : State τ} {t : τ} {p p' : Pass} {redis : Redis} {added : Key → Counts}
    (hs : Ledger users balance s) (hp : s.passes t = some p)
    (hp' : p'.issued users = p.issued users) :
    Ledger users balance
      { s with redis, added, passes := Function.update s.passes t (some p') } where
  table := hs.table
  session u := by
    have hu := hs.session u
    simp only [Function.update_apply]
    split
    · next hut =>
      rw [← hu, hut, hp]
      rfl
    · exact hu
  script u q S hq hS := by
    obtain ⟨rfl, hnew⟩ | ⟨-, hq⟩ := of_update_eq_some hq
    · rw [← Option.some.inj hnew, hp']
      exact hs.script u p S hp hS
    · exact hs.script u q S hq hS
  log := hs.log
  usage := hs.usage

theorem Ledger.step {s s' : State τ} {a : Action τ} (hs : Ledger users balance s)
    (hok : Exclusive s a) (h : step users s a = some s') : Ledger users balance s' := by
  cases a with
  | invoke i =>
    obtain rfl := Option.some.inj h
    exact ⟨hs.table, hs.session, hs.script, hs.log, hs.usage⟩
  | scan t keys =>
    obtain ⟨T, hT, rfl⟩ := of_step_scan h
    obtain ⟨-, hlog, -, hsess⟩ := Table.begin_sess hT
    refine ⟨hs.table.begin hT, fun u => ?_, fun u p S hp hS => ?_, fun u => ?_, hs.usage⟩
    · simp only [hsess]
      exact isSome_update_congr hs.session rfl u
    · simp only [hsess] at hS
      obtain ⟨rfl, hnew⟩ | ⟨hu, hp⟩ := of_update_eq_some hp
      · rw [Function.update_self, Option.some.injEq] at hS
        rw [← Option.some.inj hnew, ← hS]
        rfl
      · rw [Function.update_of_ne hu] at hS
        exact hs.script u p S hp hS
    · simp only [hlog]
      exact hs.log u
  | read t =>
    obtain ⟨k, keys, reads, hp, rfl⟩ := of_step_read h
    exact hs.move hp rfl
  | total t =>
    obtain ⟨reads, T, hp, hT, rfl⟩ := of_step_total h
    obtain ⟨-, hlog, S₀, hS₀, hsess⟩ := Table.issue_sess hT
    refine ⟨hs.table.issue hT, fun u => ?_, fun u p S hq hS => ?_, fun u => ?_, hs.usage⟩
    · simp only [hsess]
      exact isSome_update_congr hs.session rfl u
    · simp only [hsess] at hS
      obtain ⟨rfl, hnew⟩ | ⟨hu, hq⟩ := of_update_eq_some hq
      · rw [Function.update_self, Option.some.injEq] at hS
        have hnone : S₀.done ++ S₀.todo = [] := hs.script u _ S₀ hp hS₀
        rw [← Option.some.inj hnew, ← hS, ← List.append_assoc, hnone]
        rfl
      · rw [Function.update_of_ne hu] at hS
        exact hs.script u p S hq hS
    · simp only [hlog]
      exact hs.log u
  | exec t =>
    obtain ⟨T, hT, rfl⟩ := of_step_exec h
    obtain ⟨hlog, hother, S, S', hS, hS', hscript⟩ := Table.exec_sess hT
    refine ⟨hs.table.exec hok hT, fun u => ?_, fun u p S₁ hp hS₁ => ?_, fun u => ?_, hs.usage⟩
    · rcases eq_or_ne u t with rfl | hu
      · simp only [hs.session u, hS, hS', Option.isSome_some]
      · simp only [hs.session u, hother u hu]
    · rcases eq_or_ne u t with rfl | hu
      · obtain rfl := Option.some.inj (hS'.symm.trans hS₁)
        rw [hscript]
        exact hs.script u p S hp hS
      · rw [hother u hu] at hS₁
        exact hs.script u p S₁ hp hS₁
    · simp only [hlog]
      exact hs.log u
  | delete t =>
    obtain ⟨todo, reads, hp, rfl⟩ := of_step_delete h
    exact hs.move hp rfl
  | commit t =>
    obtain ⟨todo, reads, T, hp, hT, rfl⟩ := of_step_commit h
    obtain ⟨done, kept, hS, hlog, hsess⟩ := Table.commit_sess hT
    -- At the commit nothing is left to do, so all deductions are done.
    have hdone : done = deductions users reads := by
      simpa [Pass.issued] using hs.script t _ _ hp hS
    refine ⟨hs.table.commit hT, fun u => ?_, fun u p S hq hS => ?_, fun u => ?_, fun k hk => ?_⟩
    · simp only [hsess]
      exact isSome_update_congr hs.session rfl u
    · simp only [hsess] at hS
      obtain ⟨-, hnone⟩ | ⟨hu, hq⟩ := of_update_eq_some hq
      · cases hnone
      · rw [Function.update_of_ne hu] at hS
        exact hs.script u p S hq hS
    · simp only [hlog, List.map_append, List.sum_append, hs.log u, hdone, List.map_singleton,
        List.sum_singleton, net_deductions, deducted_append, neg_add]
    · simp only [usageOf_insertUsage _ _ _ hk, hs.usage k hk, readOf_append]

/-! ## The side of Redis -/

/-- What a pass has deleted and not yet committed. -/
def taken (k : Key) : Option Pass → Counts
  | some ⟨_, reads, .deleted⟩ => readOf reads k
  | _ => 0

/-- A pass that holds a key has read what is pending there; where two hold
it, nothing is. What was added is pending, taken by a pass, or charged. -/
structure Books [Fintype τ] (s : State τ) : Prop where
  held : ∀ t p k, s.passes t = some p → p.Holds k → readOf p.reads k = s.redis.pending k
  shared : ∀ t u p q k, t ≠ u → s.passes t = some p → s.passes u = some q →
    p.Holds k → q.Holds k → s.redis.pending k = 0
  law : ∀ k, s.added k =
    s.redis.pending k + readOf s.charged k + ∑ t, taken k (s.passes t)

/-- What is taken, when one tracker's pass moves on. -/
theorem sum_taken_update [Fintype τ] (passes : τ → Option Pass) (t : τ) (p : Option Pass)
    (k : Key) :
    ∑ u, taken k (Function.update passes t p u) + taken k (passes t) =
      ∑ u, taken k (passes u) + taken k p := by
  have hcomp : (fun u => taken k (Function.update passes t p u)) =
      Function.update (fun u => taken k (passes u)) t (taken k p) := by
    funext u
    exact Function.apply_update (fun _ => taken k) passes t p u
  rw [hcomp, Finset.sum_update_of_mem (Finset.mem_univ t), ← Finset.erase_eq,
    ← Finset.sum_erase_add Finset.univ (fun u => taken k (passes u)) (Finset.mem_univ t)]
  abel

/-- A move that takes nothing. -/
theorem sum_taken_same [Fintype τ] {passes : τ → Option Pass} {t : τ} {p : Option Pass} {k : Key}
    (h : taken k p = taken k (passes t)) :
    ∑ u, taken k (Function.update passes t p u) = ∑ u, taken k (passes u) := by
  have hsum := sum_taken_update passes t p k
  rw [h] at hsum
  exact add_right_cancel hsum

variable [Fintype τ]

omit [DecidableEq τ] in
/-- An invocation adds to keys that no pass holds. -/
theorem Books.invoke {s : State τ} {i : Invocation} (hs : Books s)
    (hok : ∀ c ∈ i.increments, ¬ s.Held c.key) :
    Books { s with
      redis := s.redis.pipeline i, added := fun k => s.added k + i.added k } := by
  have hsame : ∀ k, s.Held k → (s.redis.pipeline i).pending k = s.redis.pending k := by
    intro k hk
    have hkey : ∀ c ∈ i.increments, c.key ≠ k := fun c hc heq => hok c hc (heq ▸ hk)
    simp only [Redis.pending, Redis.hgetall, Redis.pipeline_of_notMem hkey]
  refine ⟨fun t p k hp hk => ?_, fun t u p q k htu hp hq hk hk' => ?_, fun k => ?_⟩
  · simp only [hsame k ⟨t, p, hp, hk⟩]
    exact hs.held t p k hp hk
  · simp only [hsame k ⟨t, p, hp, hk⟩]
    exact hs.shared t u p q k htu hp hq hk hk'
  · simp only [hs.law k, Redis.pending_pipeline]
    abel

/-- A pass that holds nothing, and has taken nothing, may begin. -/
theorem Books.scan {s : State τ} {t : τ} {keys : List Key} {table : Table τ UserId ℚ}
    (hs : Books s) (hnone : s.passes t = none) :
    Books { s with table, passes := Function.update s.passes t (some ⟨keys, [], .reading⟩) } := by
  have hold : ∀ u p k, Function.update s.passes t (some ⟨keys, [], .reading⟩) u = some p →
      p.Holds k → s.passes u = some p := by
    intro u p k hp hk
    obtain ⟨rfl, hnew⟩ | ⟨-, hp⟩ := of_update_eq_some hp
    · rw [← Option.some.inj hnew] at hk
      simp [Pass.Holds] at hk
    · exact hp
  refine ⟨fun u p k hp hk => ?_, fun u v p q k huv hp hq hk hk' => ?_, fun k => ?_⟩
  · exact hs.held u p k (hold u p k hp hk) hk
  · exact hs.shared u v p q k huv (hold u p k hp hk) (hold v q k hq hk') hk hk'
  · rw [hs.law k]
    exact congrArg _ (sum_taken_same (by rw [hnone]; rfl)).symm

/-- **A pass reads a key.** If it, or another, holds the key already,
nothing is pending there, and nothing is read twice. -/
theorem Books.read {s : State τ} {t : τ} {k₀ : Key} {keys : List Key} {reads : Reads}
    (hs : Books s) (hp₀ : s.passes t = some ⟨k₀ :: keys, reads, .reading⟩)
    (hok : s.Held k₀ → s.redis.pending k₀ = 0) :
    Books { s with
      passes := Function.update s.passes t
        (some ⟨keys, reads ++ [(k₀, s.redis.hgetall k₀)], .reading⟩) } := by
  have hold : ∀ u p k, Function.update s.passes t
      (some ⟨keys, reads ++ [(k₀, s.redis.hgetall k₀)], .reading⟩) u = some p →
      p.Holds k → (∃ q, s.passes u = some q ∧ q.Holds k) ∨ (u = t ∧ k = k₀) := by
    intro u p k hp hk
    obtain ⟨rfl, hnew⟩ | ⟨-, hp⟩ := of_update_eq_some hp
    · rw [← Option.some.inj hnew] at hk
      obtain ⟨-, hk⟩ := hk
      simp only [List.map_append, List.map_singleton, List.mem_append, List.mem_singleton] at hk
      rcases hk with hk | rfl
      · exact .inl ⟨_, hp₀, by simp, hk⟩
      · exact .inr ⟨rfl, rfl⟩
    · exact .inl ⟨p, hp, hk⟩
  refine ⟨fun u p k hp hk => ?_, fun u v p q k huv hp hq hk hk' => ?_, fun k => ?_⟩
  · obtain ⟨rfl, hnew⟩ | ⟨-, hp⟩ := of_update_eq_some hp
    · obtain rfl := Option.some.inj hnew
      rw [readOf_append, readOf_singleton]
      -- A key that was read before is empty, by the guard, and adds nothing.
      by_cases hmem : k ∈ reads.map Prod.fst
      · have hread := hs.held u _ k hp₀ ⟨by simp, hmem⟩
        rw [hread]
        split
        · next heq =>
          have hzero := hok (heq ▸ ⟨u, _, hp₀, by simp, hmem⟩)
          have hval : (s.redis.hgetall k₀).value = 0 := hzero
          rw [hval, add_zero]
        · rw [add_zero]
      · rw [readOf_of_notMem hmem, zero_add]
        have hk₀ : k = k₀ := by simpa [hmem] using hk.2
        rw [if_pos hk₀.symm, hk₀]
        rfl
    · exact hs.held u p k hp hk
  · rcases hold u p k hp hk with ⟨p', hp', hk₁⟩ | ⟨rfl, rfl⟩
    · rcases hold v q k hq hk' with ⟨q', hq', hk₂⟩ | ⟨rfl, rfl⟩
      · exact hs.shared u v p' q' k huv hp' hq' hk₁ hk₂
      · exact hok ⟨u, p', hp', hk₁⟩
    · rcases hold v q k hq hk' with ⟨q', hq', hk₂⟩ | ⟨rfl, -⟩
      · exact hok ⟨v, q', hq', hk₂⟩
      · exact absurd rfl huv
  · rw [hs.law k]
    exact congrArg _ (sum_taken_same (by rw [hp₀]; rfl)).symm

/-- A pass that has read all it listed turns to the database. -/
theorem Books.total {s : State τ} {t : τ} {reads : Reads} {table : Table τ UserId ℚ}
    (hs : Books s) (hp₀ : s.passes t = some ⟨[], reads, .reading⟩) :
    Books { s with
      table, passes := Function.update s.passes t (some ⟨[], reads, .deducting⟩) } := by
  have hold : ∀ u p k, Function.update s.passes t (some ⟨[], reads, .deducting⟩) u = some p →
      p.Holds k → ∃ q, s.passes u = some q ∧ q.Holds k ∧ q.reads = p.reads := by
    intro u p k hp hk
    obtain ⟨rfl, hnew⟩ | ⟨-, hp⟩ := of_update_eq_some hp
    · obtain rfl := Option.some.inj hnew
      exact ⟨_, hp₀, ⟨by simp, hk.2⟩, rfl⟩
    · exact ⟨p, hp, hk, rfl⟩
  refine ⟨fun u p k hp hk => ?_, fun u v p q k huv hp hq hk hk' => ?_, fun k => ?_⟩
  · obtain ⟨p', hp', hk₁, hreads⟩ := hold u p k hp hk
    rw [← hreads]
    exact hs.held u p' k hp' hk₁
  · obtain ⟨p', hp', hk₁, -⟩ := hold u p k hp hk
    obtain ⟨q', hq', hk₂, -⟩ := hold v q k hq hk'
    exact hs.shared u v p' q' k huv hp' hq' hk₁ hk₂
  · rw [hs.law k]
    exact congrArg _ (sum_taken_same (by rw [hp₀]; rfl)).symm

/-- **A pass deletes its keys.** What it has read of them is what is
deleted. -/
theorem Books.delete {s : State τ} {t : τ} {todo : List Key} {reads : Reads}
    (hs : Books s) (hp₀ : s.passes t = some ⟨todo, reads, .deducting⟩) :
    Books { s with
      redis := s.redis.delete (reads.map Prod.fst)
      passes := Function.update s.passes t (some ⟨todo, reads, .deleted⟩) } := by
  have hold : ∀ u p k, Function.update s.passes t (some ⟨todo, reads, .deleted⟩) u = some p →
      p.Holds k → u ≠ t ∧ s.passes u = some p := by
    intro u p k hp hk
    obtain ⟨rfl, hnew⟩ | ⟨hu, hp⟩ := of_update_eq_some hp
    · rw [← Option.some.inj hnew] at hk
      exact absurd rfl hk.1
    · exact ⟨hu, hp⟩
  have hmine : ∀ k ∈ reads.map Prod.fst, readOf reads k = s.redis.pending k := fun k hk =>
    hs.held t _ k hp₀ ⟨by simp, hk⟩
  refine ⟨fun u p k hp hk => ?_, fun u v p q k huv hp hq hk hk' => ?_, fun k => ?_⟩
  · obtain ⟨hu, hp'⟩ := hold u p k hp hk
    have hread := hs.held u p k hp' hk
    simp only [Redis.pending_delete]
    split
    · next hmem => rw [hread, hs.shared u t p _ k hu hp' hp₀ hk ⟨by simp, hmem⟩]
    · exact hread
  · obtain ⟨-, hp'⟩ := hold u p k hp hk
    obtain ⟨-, hq'⟩ := hold v q k hq hk'
    simp only [Redis.pending_delete]
    split
    · rfl
    · exact hs.shared u v p q k huv hp' hq' hk hk'
  -- What Redis loses is what the pass has taken now.
  · have hsum := sum_taken_update s.passes t (some ⟨todo, reads, .deleted⟩) k
    have hnow : taken k (some ⟨todo, reads, .deleted⟩) = readOf reads k := rfl
    have hbefore : taken k (s.passes t) = 0 := by rw [hp₀]; rfl
    have hpend : s.redis.pending k =
        (s.redis.delete (reads.map Prod.fst)).pending k + readOf reads k := by
      rw [Redis.pending_delete]
      split
      · next hmem => rw [hmine k hmem, zero_add]
      · next hmem => rw [readOf_of_notMem hmem, add_zero]
    rw [hbefore, add_zero, hnow] at hsum
    rw [hs.law k, hpend]
    simp only [hsum]
    abel

/-- What a pass has taken is charged when it commits. -/
theorem Books.commit {s : State τ} {t : τ} {todo : List Key} {reads : Reads}
    {table : Table τ UserId ℚ} {usageData : List UsageData}
    (hs : Books s) (hp₀ : s.passes t = some ⟨todo, reads, .deleted⟩) :
    Books { s with
      table, usageData, passes := Function.update s.passes t none,
      charged := s.charged ++ reads } := by
  have hold : ∀ u p, Function.update s.passes t none u = some p → s.passes u = some p := by
    intro u p hp
    obtain ⟨-, hnone⟩ | ⟨-, hp⟩ := of_update_eq_some hp
    · cases hnone
    · exact hp
  refine ⟨fun u p k hp => hs.held u p k (hold u p hp), fun u v p q k huv hp hq =>
    hs.shared u v p q k huv (hold u p hp) (hold v q hq), fun k => ?_⟩
  have hsum := sum_taken_update s.passes t none k
  have hbefore : taken k (s.passes t) = readOf reads k := by rw [hp₀]; rfl
  have hnow : taken k none = 0 := rfl
  rw [hbefore, hnow, add_zero] at hsum
  rw [hs.law k, ← hsum]
  simp only [readOf_append]
  abel

theorem Books.step {s s' : State τ} {a : Action τ} (hl : Ledger users balance s) (hs : Books s)
    (hok : Exclusive s a) (h : step users s a = some s') : Books s' := by
  cases a with
  | invoke i =>
    obtain rfl := Option.some.inj h
    exact hs.invoke hok
  | scan t keys =>
    obtain ⟨T, hT, rfl⟩ := of_step_scan h
    obtain ⟨-, -, hnone, -⟩ := Table.begin_sess hT
    have hidle := hl.session t
    rw [hnone, Option.isSome_none, Option.isSome_eq_false_iff, Option.isNone_iff_eq_none] at hidle
    exact hs.scan hidle
  | read t =>
    obtain ⟨k, keys, reads, hp, rfl⟩ := of_step_read h
    exact hs.read hp (hok _ hp k rfl)
  | total t =>
    obtain ⟨reads, T, hp, -, rfl⟩ := of_step_total h
    exact hs.total hp
  | exec t =>
    obtain ⟨T, -, rfl⟩ := of_step_exec h
    exact ⟨hs.held, hs.shared, hs.law⟩
  | delete t =>
    obtain ⟨todo, reads, hp, rfl⟩ := of_step_delete h
    exact hs.delete hp
  | commit t =>
    obtain ⟨todo, reads, T, hp, -, rfl⟩ := of_step_commit h
    exact hs.commit hp

/-! ## The law -/

theorem ledger_init (s : State τ) (h : (system users τ balance).init s) :
    Ledger users balance s ∧ Books s := by
  obtain rfl := h
  refine ⟨⟨Table.inv_idle, fun _ => rfl, ?_, fun u => ?_, fun _ _ => rfl⟩,
    ⟨?_, ?_, fun k => ?_⟩⟩
  · simp
  · simp [Table.idle, deducted]
  · simp
  · simp
  · simp [taken, Redis.pending, Redis.hgetall, Hash.empty]

/-- **The usage tracker loses and duplicates nothing** in a run whose steps
all meet the guard, wherever no pass is open. -/
theorem usage_conserved (as : List (Action τ)) (s : State τ)
    (h : (system users τ balance).Reach Exclusive as s) (hq : Quiescent s) :
    Conserved users balance s := by
  obtain ⟨hl, hb⟩ := h.invariant (I := fun s => Ledger users balance s ∧ Books s) ledger_init
    fun s a s' hs hok hstep => ⟨hs.1.step hok hstep, hs.2.step hs.1 hok hstep⟩
  have hlaw : ∀ k, readOf s.charged k + s.redis.pending k = s.added k := by
    intro k
    have hnone : ∑ t, taken k (s.passes t) = 0 := by
      refine Finset.sum_eq_zero fun t _ => ?_
      rw [Option.isNone_iff_eq_none.1 (hq t)]
      rfl
    rw [hb.law k, hnone, add_zero, add_comm]
  refine ⟨fun u hu => ?_, fun k _ => hlaw k, fun k hk => ?_⟩
  · rw [hl.table.law u, hl.log u, deducted, if_pos hu, sub_eq_add_neg]
  · have hsome : (users k.1).isSome := by
      unfold billed at hk
      exact Option.isSome_of_any hk
    rw [hl.usage k hsome]
    exact hlaw k

/-! ## A run on each side of the guard -/

/-- One user, who is charged. -/
private def payer (userId : UserId) : Option User := if userId = "u" then some { userId } else none

/-- A request to an LLM. -/
private def request : Invocation := ⟨"u", "c", 3, some (100, 20), 7200, none⟩

/-- Two trackers list the key, one after the other reads it, and a request
comes in between the deletion and the commit. -/
private def relay : List (Action (Fin 2)) :=
  [.invoke request, .scan 0 [("u", "c")], .scan 1 [("u", "c")], .read 0, .total 0, .exec 0,
    .exec 0, .delete 0, .invoke request, .commit 0, .read 1, .total 1, .exec 1, .exec 1,
    .delete 1, .commit 1]

theorem usage_conserved_relay : ∃ s, (system payer (Fin 2) fun _ => 10).Reach Exclusive relay s ∧
    Quiescent s ∧ Conserved payer (fun _ => 10) s ∧ (s.table.row "u").committed = 4 := by
  have hreach : (system payer (Fin 2) fun _ => 10).Reach Exclusive relay _ :=
    Lts.reach_getD_exec rfl (by decide +kernel) (by decide +kernel)
  exact ⟨_, hreach, by decide +kernel, usage_conserved relay _ hreach (by decide +kernel),
    by decide +kernel⟩

/-- `SCAN` lists every key that exists. -/
def Listed (s : State τ) : Action τ → Prop
  | .scan _ keys => ∀ k, (s.redis k).isSome → k ∈ keys
  | _ => True

/-- **An increment is lost.** One tracker, and a request that comes in
after the pass has read the hash and before it deletes it. -/
theorem not_usage_conserved : ¬ ∀ (users : UserId → Option User) (balance : UserId → ℚ)
    (as : List (Action Unit)) (s : State Unit), (system users Unit balance).Reach Listed as s →
      Quiescent s → Conserved users balance s := by
  intro h
  let as : List (Action Unit) :=
    [.invoke request, .scan () [("u", "c")], .read (), .invoke request, .total (), .exec (),
      .exec (), .delete (), .commit ()]
  -- of the two requests one is charged, and nothing is pending
  have hrun : ((system payer Unit fun _ => 10).exec
      ⟨fun _ => none, [], .idle fun _ => 10, fun _ => none, 0, []⟩ as).map (fun s =>
        ((s.passes ()).isNone, (readOf s.charged ("u", "c") + s.redis.pending ("u", "c")) .count,
          s.added ("u", "c") .count)) = some (true, 1, 2) := by
    decide +kernel
  obtain ⟨s, hs, heq⟩ := Option.map_eq_some_iff.1 hrun
  obtain ⟨hquiescent, hcharged, hadded⟩ : (s.passes ()).isNone ∧
      (readOf s.charged ("u", "c") + s.redis.pending ("u", "c")) .count = 1 ∧
        s.added ("u", "c") .count = 2 := by
    simpa using heq
  have hreach : (system payer Unit fun _ => 10).Reach Listed as s := by
    refine Lts.reach_of_exec rfl ⟨trivial, fun s₁ hs₁ => ⟨fun k hk => ?_, fun s₂ _ => ?_⟩⟩ hs
    · cases hs₁
      by_contra hne
      rw [List.mem_singleton] at hne
      have hkey : ∀ c ∈ request.increments, c.key ≠ k := by
        simpa [request, Invocation.increments] using Ne.symm hne
      have hsame : Redis.pipeline (fun _ => none) request k = none :=
        Redis.pipeline_of_notMem hkey
      simp [hsame] at hk
    · exact Lts.meets_of_forall (by simp [Listed]) s₂
  have hlost := (h payer _ as s hreach fun _ => hquiescent).charged ("u", "c") (by decide +kernel)
  rw [hlost, hadded] at hcharged
  exact absurd hcharged (by decide)

end Tracker

end ChutesApi
