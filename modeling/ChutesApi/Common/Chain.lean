import Mathlib.Data.Finset.Card
import Mathlib.Logic.Relation
/-!
# Facts that come one from another

A system whose steps each take what they bring about from one fact of the
state before. Then a fact holds in a state that a run reaches exactly when
a chain of links leads to it: the step that brought it about gives the last
link, and along a chain the run takes one step for each link. Where the
links are a list, what chains lead to is computed by following one link
after another to a fact that has not been met.
-/

namespace ChutesApi

open Relation

/-- **Steps that follow links between facts.** -/
structure Linked {σ φ : Type*} (Step : σ → σ → Prop) (Holds : σ → φ → Prop)
    (Link : φ → φ → Prop) : Prop where
  /-- What holds after a step held before, or is linked to what did. -/
  back : ∀ {s s' g}, Step s s' → Holds s' g → Holds s g ∨ ∃ f, Holds s f ∧ Link f g
  /-- A link can be followed. -/
  forth : ∀ {s f g}, Holds s f → Link f g → ∃ s', Step s s' ∧ Holds s' g

namespace Linked

variable {σ φ : Type*} {Step : σ → σ → Prop} {Holds : σ → φ → Prop} {Link : φ → φ → Prop}
variable {s₀ s : σ} {f₀ f : φ}

/-- What holds along a run is at the end of a chain. -/
theorem chain_of_holds (h : Linked Step Holds Link) (h0 : ∀ f, Holds s₀ f → f = f₀)
    (hr : ReflTransGen Step s₀ s) (hf : Holds s f) : ReflTransGen Link f₀ f := by
  induction hr generalizing f with
  | refl => rw [h0 f hf]
  | tail _ hstep ih =>
    rcases h.back hstep hf with hf | ⟨g, hg, hlink⟩
    · exact ih hf
    · exact (ih hg).tail hlink

/-- A chain can be followed to its end. -/
theorem exists_of_chain (h : Linked Step Holds Link) (h0 : Holds s₀ f₀)
    (hc : ReflTransGen Link f₀ f) : ∃ s, ReflTransGen Step s₀ s ∧ Holds s f := by
  induction hc with
  | refl => exact ⟨s₀, .refl, h0⟩
  | tail _ hlink ih =>
    obtain ⟨s, hr, hs⟩ := ih
    obtain ⟨s', hstep, hs'⟩ := h.forth hs hlink
    exact ⟨s', hr.tail hstep, hs'⟩

/-- **A fact can come to hold exactly when a chain leads to it.** -/
theorem exists_holds_iff (h : Linked Step Holds Link) (h0 : ∀ f, Holds s₀ f ↔ f = f₀) :
    (∃ s, ReflTransGen Step s₀ s ∧ Holds s f) ↔ ReflTransGen Link f₀ f := by
  constructor
  · rintro ⟨s, hr, hf⟩
    exact h.chain_of_holds (fun g => (h0 g).1) hr hf
  · intro hc
    exact h.exists_of_chain ((h0 f₀).2 rfl) hc

end Linked

/-! ## Following a list of links -/

namespace Chain

variable {φ : Type*} [DecidableEq φ] {links : List (φ × φ)} {n : ℕ} {l : List φ} {f₀ f : φ}

/-- The facts met after at most so many links. -/
def follow (links : List (φ × φ)) : ℕ → List φ → List φ
  | 0, l => l
  | n + 1, l => match links.find? fun k => k.1 ∈ l && k.2 ∉ l with
    | none => l
    | some k => follow links n (k.2 :: l)

/-- What is met is met along a chain. -/
theorem exists_of_mem_follow (h : f ∈ follow links n l) :
    ∃ g ∈ l, ReflTransGen (fun f g => (f, g) ∈ links) g f := by
  induction n generalizing l with
  | zero => exact ⟨f, h, .refl⟩
  | succ n ih =>
    rw [follow] at h
    split at h
    · exact ⟨f, h, .refl⟩
    · rename_i k hk
      have hfrom := List.find?_some hk
      simp only [Bool.and_eq_true, decide_eq_true_eq] at hfrom
      obtain ⟨g, hg, hchain⟩ := ih h
      rcases List.mem_cons.1 hg with rfl | hg
      · exact ⟨k.1, hfrom.1, hchain.head (List.mem_of_find?_eq_some hk)⟩
      · exact ⟨g, hg, hchain⟩

theorem mem_follow_of_mem (h : f ∈ l) : f ∈ follow links n l := by
  induction n generalizing l with
  | zero => exact h
  | succ n ih =>
    rw [follow]
    split
    · exact h
    · exact ih (List.mem_cons_of_mem _ h)

/-- **With a step for each target that is left, no link leads out of what is
met.** -/
theorem closed_follow (hn : ((links.map Prod.snd).toFinset \ l.toFinset).card ≤ n) {k : φ × φ}
    (hk : k ∈ links) (h : k.1 ∈ follow links n l) : k.2 ∈ follow links n l := by
  induction n generalizing l with
  | zero =>
    have hempty := Finset.card_eq_zero.1 (Nat.le_zero.1 hn)
    have hsub := Finset.sdiff_eq_empty_iff_subset.1 hempty
    exact List.mem_toFinset.1 (hsub (List.mem_toFinset.2 (List.mem_map.2 ⟨k, hk, rfl⟩)))
  | succ n ih =>
    rw [follow] at h ⊢
    split at h
    · rename_i hnone
      have hno := List.find?_eq_none.1 hnone k hk
      by_contra hout
      simp [h, hout] at hno
    · rename_i j hj
      have hnew := List.find?_some hj
      simp only [Bool.and_eq_true, decide_eq_true_eq] at hnew
      refine ih ?_ h
      -- The target of the link that is followed is no longer left.
      have hlt : ((links.map Prod.snd).toFinset \ (j.2 :: l).toFinset).card <
          ((links.map Prod.snd).toFinset \ l.toFinset).card := by
        refine Finset.card_lt_card (Finset.ssubset_iff_of_subset ?_ |>.2 ⟨j.2, ?_, ?_⟩)
        · refine Finset.sdiff_subset_sdiff subset_rfl ?_
          simp
        · simp only [Finset.mem_sdiff, List.mem_toFinset, List.mem_map]
          exact ⟨⟨j, List.mem_of_find?_eq_some hj, rfl⟩, hnew.2⟩
        · simp
      omega

/-- **The chains of a list of links, computed.** -/
theorem mem_follow_iff : f ∈ follow links links.length [f₀] ↔
    ReflTransGen (fun f g => (f, g) ∈ links) f₀ f := by
  constructor
  · intro h
    obtain ⟨g, hg, hchain⟩ := exists_of_mem_follow h
    rwa [List.mem_singleton.1 hg] at hchain
  · intro h
    have hcard : ((links.map Prod.snd).toFinset \ [f₀].toFinset).card ≤ links.length := by
      refine (Finset.card_le_card Finset.sdiff_subset).trans ?_
      exact (List.toFinset_card_le _).trans (List.length_map _).le
    induction h with
    | refl => exact mem_follow_of_mem (List.mem_singleton_self f₀)
    | tail _ hlink ih => exact closed_follow hcard hlink ih

end Chain

end ChutesApi
