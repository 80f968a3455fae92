import Mathlib.Data.List.Basic
/-!
# Labelled systems and their guarded runs

A system is a set of initial states and a partial step for each action.
`Reach ok` holds of the action lists and states that a run reaches when
each of its steps meets the guard `ok` in the state it starts from; a run
without a guard is `Reach` at the guard that always holds. The two
invariant rules package the induction over runs once, and `reach_of_exec`
turns an evaluated run into a `Reach`.
-/

namespace ChutesApi

/-- **A labelled system**: its initial states, and what each action does;
`none` where the action is not enabled. -/
structure Lts (σ α : Type*) where
  init : σ → Prop
  step : σ → α → Option σ

namespace Lts

variable {σ α : Type*} (M : Lts σ α)

/-- **The runs whose steps all meet a guard**, with the actions taken so
far and the state reached. -/
inductive Reach (ok : σ → α → Prop) : List α → σ → Prop
  | init {s : σ} : M.init s → Reach ok [] s
  | step {as : List α} {s s' : σ} {a : α} :
      Reach ok as s → ok s a → M.step s a = some s' → Reach ok (as ++ [a]) s'

/-- A run with no guard. -/
abbrev Run : List α → σ → Prop := M.Reach fun _ _ => True

variable {M} {ok ok' : σ → α → Prop} {as as' : List α} {s : σ}

/-- **The invariant rule, with the actions in view.** What holds of the
initial states and is kept by every guarded step holds of every guarded
run. -/
theorem Reach.invariant_trace {I : List α → σ → Prop} (h0 : ∀ s, M.init s → I [] s)
    (hstep : ∀ as s a s', M.Reach ok as s → I as s → ok s a → M.step s a = some s' →
      I (as ++ [a]) s')
    (h : M.Reach ok as s) : I as s := by
  induction h with
  | init hs => exact h0 _ hs
  | step hr hok hs ih => exact hstep _ _ _ _ hr ih hok hs

/-- **The invariant rule.** -/
theorem Reach.invariant {I : σ → Prop} (h0 : ∀ s, M.init s → I s)
    (hstep : ∀ s a s', I s → ok s a → M.step s a = some s' → I s')
    (h : M.Reach ok as s) : I s :=
  h.invariant_trace (I := fun _ => I) h0 fun _ s a s' _ hi => hstep s a s' hi

/-- A run under a guard is one under any weaker guard. -/
theorem Reach.mono (hok : ∀ s a, ok s a → ok' s a) (h : M.Reach ok as s) :
    M.Reach ok' as s := by
  induction h with
  | init hs => exact .init hs
  | step _ hg hs ih => exact .step ih (hok _ _ hg) hs

/-- The last step of a run. -/
theorem Reach.of_concat {a : α} {s' : σ} (h : M.Reach ok (as ++ [a]) s') :
    ∃ s, M.Reach ok as s ∧ ok s a ∧ M.step s a = some s' := by
  generalize hbs : as ++ [a] = bs at h
  cases h with
  | init _ => cases as <;> cases hbs
  | step hr hok hs =>
    obtain ⟨rfl, hab⟩ := List.append_inj' hbs rfl
    obtain rfl := (List.cons.inj hab).1
    exact ⟨_, hr, hok, hs⟩

/-! ## Evaluating a run -/

variable (M)

/-- The state a list of actions leads to, if each is enabled in turn. -/
def exec : σ → List α → Option σ
  | s, [] => some s
  | s, a :: as => (M.step s a).bind fun s' => exec s' as

/-- Every step of the list meets the guard where it is taken. -/
def Meets (ok : σ → α → Prop) : σ → List α → Prop
  | _, [] => True
  | s, a :: as => ok s a ∧ ∀ s' ∈ M.step s a, Meets ok s' as

instance Meets.decidable {ok : σ → α → Prop} [∀ s a, Decidable (ok s a)] :
    ∀ s as, Decidable (M.Meets ok s as)
  | _, [] => isTrue trivial
  | s, a :: as =>
    match h : M.step s a with
    | none => decidable_of_iff (ok s a) (by simp [Meets, h])
    | some s' =>
      have : Decidable (M.Meets ok s' as) := Meets.decidable s' as
      decidable_of_iff (ok s a ∧ M.Meets ok s' as) (by simp [Meets, h])

variable {M}

/-- Actions that the guard lets pass in every state. -/
theorem meets_of_forall (h : ∀ a ∈ as', ∀ s, ok s a) (s : σ) : M.Meets ok s as' := by
  induction as' generalizing s with
  | nil => trivial
  | cons a as' ih =>
    rw [List.forall_mem_cons] at h
    exact ⟨h.1 s, fun s' _ => ih h.2 s'⟩

theorem Reach.exec {bs : List α} {s' : σ} (hr : M.Reach ok as s) (hm : M.Meets ok s bs)
    (he : M.exec s bs = some s') : M.Reach ok (as ++ bs) s' := by
  induction bs generalizing as s with
  | nil =>
    simp only [Lts.exec, Option.some.injEq] at he
    rw [List.append_nil, ← he]
    exact hr
  | cons b bs ih =>
    simp only [Lts.exec, Option.bind_eq_some_iff] at he
    obtain ⟨t, ht, he⟩ := he
    have := ih (hr.step hm.1 ht) (hm.2 t ht) he
    rwa [List.append_assoc, List.singleton_append] at this

/-- **An evaluated run is a run.** -/
theorem reach_of_exec {s₀ : σ} (h0 : M.init s₀) (hm : M.Meets ok s₀ as)
    (he : M.exec s₀ as = some s) : M.Reach ok as s := by
  simpa using (Reach.init h0).exec hm he

/-- A list of actions that are enabled in turn, and meet the guard, is a
guarded run. -/
theorem reach_getD_exec {t : σ} (h0 : M.init t) (hm : M.Meets ok t as)
    (h : (M.exec t as).isSome) : M.Reach ok as ((M.exec t as).getD t) := by
  obtain ⟨s, hs⟩ := Option.isSome_iff_exists.1 h
  rw [hs, Option.getD_some]
  exact reach_of_exec h0 hm hs

theorem run_getD_exec {t : σ} (h0 : M.init t) (h : (M.exec t as).isSome) :
    M.Run as ((M.exec t as).getD t) :=
  reach_getD_exec h0 (meets_of_forall (fun _ _ _ => trivial) t) h

/-- The guard of the last action, where the others lead to. -/
theorem Meets.of_concat {a : α} {t : σ} (h : M.Meets ok s (as ++ [a])) (he : M.exec s as = some t) :
    ok t a := by
  induction as generalizing s with
  | nil =>
    obtain rfl := Option.some.inj he
    exact h.1
  | cons b as ih =>
    simp only [Lts.exec, Option.bind_eq_some_iff] at he
    obtain ⟨s', hs', he⟩ := he
    exact ih (h.2 s' hs') he

/-- **Two systems in step.** Where related states take each action alike, into
related states or not at all, so do they take every list of actions. -/
theorem exec_rel {τ : Type*} {N : Lts τ α} {R : σ → τ → Prop}
    (hstep : ∀ s t a, R s t → Option.Rel R (M.step s a) (N.step t a)) {t : τ} (h : R s t) :
    Option.Rel R (M.exec s as) (N.exec t as) := by
  induction as generalizing s t with
  | nil => exact .some h
  | cons a as ih =>
    simp only [Lts.exec]
    have hs := hstep s t a h
    generalize M.step s a = x at hs ⊢
    generalize N.step t a = y at hs ⊢
    cases hs with
    | none => exact .none
    | some h' => exact ih h'

/-- **Guards that agree** where an invariant holds are met by the same actions. -/
theorem meets_congr {J : σ → Prop} (hJ : ∀ s a s', J s → M.step s a = some s' → J s')
    (hok : ∀ s a, J s → (ok s a ↔ ok' s a)) (hj : J s) : M.Meets ok s as ↔ M.Meets ok' s as := by
  induction as generalizing s with
  | nil => exact Iff.rfl
  | cons a as ih =>
    refine and_congr (hok s a hj) (forall₂_congr fun s' hs' => ?_)
    exact ih (hJ s a s' hj hs')

/-- **Safe runs are guarded runs.** Where a step from a safe state leads to a
safe state exactly when it meets the guard, a run stays safe exactly when
each of its steps meets it. `J` is what else holds along a safe run. -/
theorem forall_prefix_iff_meets {J P : σ → Prop}
    (hJ : ∀ s a s', J s → P s → M.step s a = some s' → P s' → J s')
    (hP : ∀ s a s', J s → P s → M.step s a = some s' → (P s' ↔ ok s a)) {s t : σ}
    (hj : J s) (hp : P s) (he : M.exec s as = some t) :
    (∀ bs u, bs <+: as → M.exec s bs = some u → P u) ↔ M.Meets ok s as := by
  induction as generalizing s with
  | nil =>
    refine iff_of_true (fun bs u hbs hu => ?_) trivial
    obtain rfl := List.prefix_nil.1 hbs
    exact Option.some.inj hu ▸ hp
  | cons a as ih =>
    simp only [Lts.exec, Option.bind_eq_some_iff] at he
    obtain ⟨s', hs', he⟩ := he
    have hexec : ∀ bs, M.exec s (a :: bs) = M.exec s' bs := fun bs => by
      simp only [Lts.exec, hs', Option.bind_some]
    constructor
    · intro h
      have hp' : P s' := h [a] s' (by simp) (hexec [])
      refine ⟨(hP s a s' hj hp hs').1 hp', fun u hu => ?_⟩
      obtain rfl := Option.some.inj (hs'.symm.trans hu)
      refine (ih (hJ s a s' hj hp hs' hp') hp' he).1 fun bs u hbs hu => ?_
      exact h (a :: bs) u (List.cons_prefix_cons.2 ⟨rfl, hbs⟩) ((hexec bs).trans hu)
    · rintro ⟨hok, hmeets⟩ bs u hbs hu
      have hp' : P s' := (hP s a s' hj hp hs').2 hok
      rcases bs with _ | ⟨b, bs⟩
      · exact Option.some.inj hu ▸ hp
      · obtain ⟨rfl, hrest⟩ := List.cons_prefix_cons.1 hbs
        exact (ih (hJ s b s' hj hp hs' hp') hp' he).2 (hmeets s' hs') bs u hrest
          ((hexec bs).symm.trans hu)

end Lts

end ChutesApi
