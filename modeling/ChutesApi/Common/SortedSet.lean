import ChutesApi.Common.Dict
import Mathlib.Data.List.Perm.Subperm
import Mathlib.Data.Rat.Defs
import Mathlib.Tactic.Linarith
import Mathlib.Tactic.SplitIfs
/-!
# Sorted sets that run out

A store of sorted sets, as Redis keeps them: each member has a score, a key
may have a time after which it lapses as a whole, and a set without members
is no key. Where scores are times, a set is used to count what happened
lately, and old members are taken out at leisure. `Covers` relates such a
store to the sets from which nothing old was ever taken out; every operation
keeps it, and a count over the last `life` is the same in both up to the
members at the very edge (`Covers.count_le`, `Covers.le_count`).
-/

namespace ChutesApi

/-- **Sorted sets under keys**, with the times after which keys lapse. -/
structure SortedSets (κ μ : Type*) where
  sets : κ → Dict μ ℤ
  expireAt : κ → Option ℚ

/-- `ZCOUNT` over the scores from `lo` to `hi`. -/
def Dict.countBetween {μ : Type*} (d : Dict μ ℤ) (lo hi : ℚ) : ℕ :=
  (d.items.filter fun e => lo ≤ e.2 ∧ e.2 ≤ hi).length

/-- The members with a score over `lo`, up to `hi`. -/
def Dict.countAbove {μ : Type*} (d : Dict μ ℤ) (lo hi : ℚ) : ℕ :=
  (d.items.filter fun e => lo < e.2 ∧ e.2 ≤ hi).length

namespace SortedSets

variable {κ μ : Type*} [DecidableEq κ] [DecidableEq μ]

def empty : SortedSets κ μ := ⟨fun _ => .empty, fun _ => none⟩

/-- `ZADD` and `EXPIRE`. -/
def add (z : SortedSets κ μ) (k : κ) (m : μ) (score : ℤ) (expireAt : ℚ) : SortedSets κ μ :=
  ⟨Function.update z.sets k ((z.sets k).set m score),
    Function.update z.expireAt k (some expireAt)⟩

/-- `ZREM` of some members. -/
def remove (z : SortedSets κ μ) (k : κ) (ms : List μ) : SortedSets κ μ :=
  let rest := (z.sets k).filter fun e => e.1 ∉ ms
  ⟨Function.update z.sets k rest,
    if rest.items = [] then Function.update z.expireAt k none else z.expireAt⟩

/-- The members with scores from 0 to `cutoff`. -/
def old (z : SortedSets κ μ) (k : κ) (cutoff : ℚ) : List μ :=
  ((z.sets k).items.filter fun e => 0 ≤ e.2 ∧ (e.2 : ℚ) ≤ cutoff).map Prod.fst

/-- The key is gone. -/
def lapse (z : SortedSets κ μ) (k : κ) : SortedSets κ μ :=
  ⟨Function.update z.sets k .empty, Function.update z.expireAt k none⟩

/-! ## The sets nothing old is taken out of -/

/-- **A store covers** the sets `r` at a time: what it has they have, with
scores that are no later than the time; what it lacks is `life` old; and a
key does not lapse before its members are. -/
structure Covers (life now : ℚ) (z : SortedSets κ μ) (r : κ → Dict μ ℤ) : Prop where
  sub : ∀ k m s, (z.sets k).get? m = some s → (r k).get? m = some s
  young : ∀ k m s, (r k).get? m = some s → now - life < s → (z.sets k).get? m = some s
  past : ∀ k m s, (r k).get? m = some s → (s : ℚ) ≤ now
  lasting : ∀ k e, z.expireAt k = some e → ∀ m s, (z.sets k).get? m = some s → s + life ≤ e

variable {life now later : ℚ} {z : SortedSets κ μ} {r : κ → Dict μ ℤ} {k : κ} {m : μ} {score : ℤ}

omit [DecidableEq κ] in
theorem covers_empty : Covers life now (empty : SortedSets κ μ) fun _ => .empty where
  sub _ _ _ h := by cases h
  young _ _ _ h := by cases h
  past _ _ _ h := by cases h
  lasting _ _ h := by cases h

omit [DecidableEq κ] in
theorem Covers.tick (h : Covers life now z r) (hle : now ≤ later) : Covers life later z r where
  sub := h.sub
  young k m s hs hyoung := h.young k m s hs (by linarith)
  past k m s hs := (h.past k m s hs).trans hle
  lasting := h.lasting

/-- **A member is added** to both, with a score that is not of the future. -/
theorem Covers.add (h : Covers life now z r) (hscore : (score : ℚ) ≤ now) :
    Covers life now (z.add k m score (now + life))
      (Function.update r k ((r k).set m score)) := by
  -- one case for the member that is added, one for the others of its key
  have hcases : ∀ (f : κ → Dict μ ℤ) (k' : κ) (m' : μ) (s : ℤ),
      (Function.update f k ((f k).set m score) k').get? m' = some s ↔
        k' = k ∧ m' = m ∧ s = score ∨ ¬(k' = k ∧ m' = m) ∧ (f k').get? m' = some s := by
    intro f k' m' s
    rcases eq_or_ne k' k with rfl | hk
    · rw [Function.update_self, Dict.get?_set]
      split_ifs with hm
      · simp [hm, eq_comm]
      · simp [hm]
    · rw [Function.update_of_ne hk]
      simp [hk]
  refine ⟨fun k' m' s => ?_, fun k' m' s => ?_, fun k' m' s => ?_, fun k' e he m' s => ?_⟩
  · simp only [SortedSets.add, hcases]
    exact Or.imp_right (And.imp_right (h.sub k' m' s))
  · simp only [SortedSets.add, hcases]
    intro hs hyoung
    exact hs.imp_right (And.imp_right fun hs => h.young k' m' s hs hyoung)
  · rw [hcases]
    rintro (⟨-, -, rfl⟩ | ⟨-, hs⟩)
    · exact hscore
    · exact h.past k' m' s hs
  · simp only [SortedSets.add, hcases] at he ⊢
    rcases eq_or_ne k' k with rfl | hk
    · -- the key's new deadline is past those of all its members
      rw [Function.update_self, Option.some.injEq] at he
      rw [← he]
      rintro (⟨-, -, rfl⟩ | ⟨-, hs⟩)
      · linarith
      · have := h.past k' m' s (h.sub k' m' s hs)
        linarith
    · rw [Function.update_of_ne hk] at he
      rintro (⟨hk', -⟩ | ⟨-, hs⟩)
      · exact absurd hk' hk
      · exact h.lasting k' e he m' s hs

omit [DecidableEq κ] in
theorem get?_without {d : Dict μ ℤ} {ms : List μ} {s : ℤ} :
    (d.filter fun e => e.1 ∉ ms).get? m = some s ↔ m ∉ ms ∧ d.get? m = some s := by
  rw [Dict.get?_filter, Option.filter_eq_some_iff, and_comm]
  simp

theorem get?_remove {ms : List μ} {k' : κ} {s : ℤ} :
    ((z.remove k ms).sets k').get? m = some s ↔
      ¬(k' = k ∧ m ∈ ms) ∧ (z.sets k').get? m = some s := by
  simp only [remove]
  rcases eq_or_ne k' k with rfl | hk
  · rw [Function.update_self, get?_without]
    simp
  · rw [Function.update_of_ne hk]
    simp [hk]

/-- What is not changed but emptied keeps its deadline. -/
theorem expireAt_remove {ms : List μ} {k' : κ} {e : ℚ}
    (h : (z.remove k ms).expireAt k' = some e) : z.expireAt k' = some e := by
  simp only [remove] at h
  split_ifs at h with hempty
  · rw [Function.update_apply] at h
    split_ifs at h
    exact h
  · exact h

/-- **Members are taken out** of the store only, if they are old. -/
theorem Covers.purge {ms : List μ} (h : Covers life now z r)
    (hold : ∀ m ∈ ms, ∀ s, (z.sets k).get? m = some s → s ≤ now - life) :
    Covers life now (z.remove k ms) r := by
  refine ⟨fun k' m s hs => h.sub k' m s (get?_remove.1 hs).2, fun k' m s hs hyoung => ?_, h.past,
    fun k' e he m s hs => h.lasting k' e (expireAt_remove he) m s (get?_remove.1 hs).2⟩
  have hz := h.young k' m s hs hyoung
  refine get?_remove.2 ⟨?_, hz⟩
  rintro ⟨rfl, hm⟩
  have := hold m hm s hz
  linarith

/-- **A member is removed** from both. -/
theorem Covers.remove (h : Covers life now z r) :
    Covers life now (z.remove k [m])
      (Function.update r k ((r k).filter fun e => e.1 ∉ [m])) := by
  have hr : ∀ k' m' s, (Function.update r k ((r k).filter fun e => e.1 ∉ [m]) k').get? m' =
      some s ↔ ¬(k' = k ∧ m' ∈ [m]) ∧ (r k').get? m' = some s := by
    intro k' m' s
    rcases eq_or_ne k' k with rfl | hk
    · rw [Function.update_self, get?_without]
      simp
    · rw [Function.update_of_ne hk]
      simp [hk]
  refine ⟨fun k' m' s hs => ?_, fun k' m' s hs hyoung => ?_, fun k' m' s hs => ?_,
    fun k' e he m' s hs => h.lasting k' e (expireAt_remove he) m' s (get?_remove.1 hs).2⟩
  · obtain ⟨hne, hs⟩ := get?_remove.1 hs
    exact (hr k' m' s).2 ⟨hne, h.sub k' m' s hs⟩
  · obtain ⟨hne, hs⟩ := (hr k' m' s).1 hs
    exact get?_remove.2 ⟨hne, h.young k' m' s hs hyoung⟩
  · exact h.past k' m' s ((hr k' m' s).1 hs).2

/-- **A key lapses** when its time is over. -/
theorem Covers.lapse {e : ℚ} (h : Covers life now z r) (he : z.expireAt k = some e)
    (hlt : e < now) : Covers life now (z.lapse k) r := by
  refine ⟨fun k' m s hs => ?_, fun k' m s hs hyoung => ?_, h.past, fun k' e' he' m s hs => ?_⟩
  · rcases eq_or_ne k' k with rfl | hk
    · simp [SortedSets.lapse] at hs
    · simp only [SortedSets.lapse, Function.update_of_ne hk] at hs
      exact h.sub k' m s hs
  · have hz := h.young k' m s hs hyoung
    rcases eq_or_ne k' k with rfl | hk
    · have := h.lasting k' e he m s hz
      linarith
    · simpa only [SortedSets.lapse, Function.update_of_ne hk] using hz
  · rcases eq_or_ne k' k with rfl | hk
    · simp [SortedSets.lapse] at hs
    · simp only [SortedSets.lapse, Function.update_of_ne hk] at he' hs
      exact h.lasting k' e' he' m s hs

/-! ## Counts -/

omit [DecidableEq κ] in
/-- A dictionary with the entries of another has at least as many of a kind. -/
theorem length_filter_le {d d' : Dict μ ℤ} {p q : μ × ℤ → Bool}
    (h : ∀ m s, d.get? m = some s → p (m, s) → d'.get? m = some s ∧ q (m, s)) :
    (d.items.filter p).length ≤ (d'.items.filter q).length := by
  have hnd : (d.items.filter p).Nodup := (d.nodup.of_map _).filter _
  refine (List.Nodup.subperm hnd fun e he => ?_).length_le
  obtain ⟨he, hp⟩ := List.mem_filter.1 he
  obtain ⟨hd, hq⟩ := h e.1 e.2 (Dict.get?_eq_some.2 he) hp
  exact List.mem_filter.2 ⟨Dict.get?_eq_some.1 hd, hq⟩

omit [DecidableEq κ] in
/-- **No count is too high.** -/
theorem Covers.count_le (h : Covers life now z r) (k : κ) (lo hi : ℚ) :
    (z.sets k).countBetween lo hi ≤ (r k).countBetween lo hi :=
  length_filter_le fun m s hs hp => ⟨h.sub k m s hs, hp⟩

omit [DecidableEq κ] in
/-- **And none is too low**, up to the members that are just `life` old. -/
theorem Covers.le_count (h : Covers life now z r) (k : κ) {lo hi : ℚ} (hlo : lo ≤ now - life) :
    (r k).countAbove (now - life) hi ≤ (z.sets k).countBetween lo hi := by
  refine length_filter_le fun m s hs hp => ?_
  simp only [decide_eq_true_eq] at hp ⊢
  exact ⟨h.young k m s hs hp.1, (hlo.trans_lt hp.1).le, hp.2⟩

end SortedSets

end ChutesApi
