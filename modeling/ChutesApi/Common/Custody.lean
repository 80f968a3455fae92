import Mathlib.Logic.Function.Basic
import Mathlib.Tactic.SplitIfs
/-!
# Things that are in one place

Each thing that has been taken out is held at one place at most. A thing is
kept if it is held at a place that is good for it. What follows are the ways
in which the holdings change: a thing is taken, dropped, moved, or its place
goes bad.
-/

namespace ChutesApi

open Function

variable {π τ : Type*} [DecidableEq π]

/-- **Custody**: no thing is at two places, and what is held was taken. -/
structure Custody (held : π → Option τ) (taken : List τ) : Prop where
  unique : ∀ p q t, held p = some t → held q = some t → p = q
  taken : ∀ p t, held p = some t → t ∈ taken

/-- **Everything is kept**: what was taken is at a good place. -/
def Kept (held : π → Option τ) (good : π → Prop) (taken : List τ) : Prop :=
  ∀ t ∈ taken, ∃ p, held p = some t ∧ good p

variable {held : π → Option τ} {good good' : π → Prop} {taken : List τ} {p q : π} {t : τ}

/-! ## A thing is taken -/

theorem Custody.take (h : Custody held taken) (ht : t ∉ taken) :
    Custody (update held p (some t)) (taken ++ [t]) := by
  refine ⟨fun a b u ha hb => ?_, fun a u ha => ?_⟩
  · rw [update_apply] at ha hb
    split_ifs at ha hb with hap hbp hbp
    · rw [hap, hbp]
    · obtain rfl := Option.some.inj ha
      exact absurd (h.taken b t hb) ht
    · obtain rfl := Option.some.inj hb
      exact absurd (h.taken a t ha) ht
    · exact h.unique a b u ha hb
  · rw [update_apply] at ha
    split_ifs at ha with hap
    · obtain rfl := Option.some.inj ha
      simp
    · exact List.mem_append_left _ (h.taken a u ha)

theorem Kept.take (h : Kept held good taken) (hp : held p = none) (hgood : good p) :
    Kept (update held p (some t)) good (taken ++ [t]) := by
  intro u hu
  obtain hu | hu := List.mem_append.1 hu
  · obtain ⟨a, ha, hga⟩ := h u hu
    refine ⟨a, ?_, hga⟩
    rw [update_apply, if_neg, ha]
    rintro rfl
    rw [hp] at ha
    cases ha
  · obtain rfl := List.mem_singleton.1 hu
    exact ⟨p, update_self .., hgood⟩

omit [DecidableEq π] in
/-- A thing that is taken and put nowhere is not kept. -/
theorem Custody.lost_of_not_mem (h : Custody held taken) (ht : t ∉ taken) :
    ¬Kept held good (taken ++ [t]) := by
  intro hk
  obtain ⟨a, ha, -⟩ := hk t (by simp)
  exact ht (h.taken a t ha)

omit [DecidableEq π] in
theorem Custody.mono (h : Custody held taken) (more : List τ) : Custody held (taken ++ more) :=
  ⟨h.unique, fun a t ha => List.mem_append_left _ (h.taken a t ha)⟩

/-! ## A thing is dropped -/

theorem Custody.drop (h : Custody held taken) : Custody (update held p none) taken := by
  have hsome : ∀ {a u}, update held p none a = some u → held a = some u := by
    intro a u ha
    rw [update_apply] at ha
    split_ifs at ha
    exact ha
  exact ⟨fun a b u ha hb => h.unique a b u (hsome ha) (hsome hb),
    fun a u ha => h.taken a u (hsome ha)⟩

/-- **Nothing is lost by emptying a place exactly when it was empty.** -/
theorem Kept.drop_iff (hc : Custody held taken) (h : Kept held good taken) :
    Kept (update held p none) good taken ↔ held p = none := by
  constructor
  · intro hk
    rcases hp : held p with _ | t
    · rfl
    obtain ⟨a, ha, -⟩ := hk t (hc.taken p t hp)
    rw [update_apply] at ha
    split_ifs at ha with hap
    exact absurd (hc.unique a p t ha hp) hap
  · intro hp
    rwa [← hp, update_eq_self]

/-! ## A thing is moved -/

theorem Custody.move (h : Custody held taken) :
    Custody (update (update held p none) q (held p)) taken := by
  rcases hp : held p with _ | t
  · exact h.drop.drop
  · refine ⟨fun a b u ha hb => ?_, fun a u ha => ?_⟩
    · simp only [update_apply] at ha hb
      split_ifs at ha hb with haq hbq hbp hbq hap hbq
      · rw [haq, hbq]
      · obtain rfl := Option.some.inj ha
        exact absurd (h.unique b p t hb hp) hbp
      · obtain rfl := Option.some.inj hb
        exact absurd (h.unique a p t ha hp) hbq
      · exact h.unique a b u ha hb
    · simp only [update_apply] at ha
      split_ifs at ha
      · obtain rfl := Option.some.inj ha
        exact h.taken p t hp
      · exact h.taken a u ha

theorem Kept.move (h : Kept held good taken) (hq : held q = none) (hgood : good q) :
    Kept (update (update held p none) q (held p)) good taken := by
  intro t ht
  obtain ⟨a, ha, hga⟩ := h t ht
  by_cases hap : a = p
  · exact ⟨q, by rw [update_self, ← hap, ha], hgood⟩
  · have haq : a ≠ q := by
      rintro rfl
      rw [hq] at ha
      cases ha
    exact ⟨a, by rw [update_of_ne haq, update_of_ne hap, ha], hga⟩

/-! ## Places change -/

omit [DecidableEq π] in
theorem Kept.mono (h : Kept held good taken)
    (hgood : ∀ p t, held p = some t → good p → good' p) : Kept held good' taken := by
  intro t ht
  obtain ⟨a, ha, hga⟩ := h t ht
  exact ⟨a, ha, hgood a t ha hga⟩

omit [DecidableEq π] in
/-- **Nothing is lost by a place that goes bad exactly when it is empty.** -/
theorem Kept.spoil_iff (hc : Custody held taken) (h : Kept held good taken)
    (hbad : ¬good' p) (hgood : ∀ a, a ≠ p → (good' a ↔ good a)) :
    Kept held good' taken ↔ held p = none := by
  constructor
  · intro hk
    rcases hp : held p with _ | t
    · rfl
    obtain ⟨a, ha, hga⟩ := hk t (hc.taken p t hp)
    obtain rfl := hc.unique a p t ha hp
    exact absurd hga hbad
  · intro hp
    refine h.mono fun a t ha hga => (hgood a ?_).2 hga
    rintro rfl
    rw [hp] at ha
    cases ha

end ChutesApi
