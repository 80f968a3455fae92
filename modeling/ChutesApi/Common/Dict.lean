import Mathlib.Data.List.Induction
import Mathlib.Data.List.Nodup
/-!
# Finite maps that keep their order

A `Dict` lists its entries in the order in which their keys were first
set, each key once. It is Python's `dict`, and a table under its primary
key where the order of the rows does not matter. `get?_eq_some` ties
lookups to entries; every operation then has its `get?` lemma.
-/

namespace ChutesApi

/-- **A finite map** with its entries in insertion order. -/
@[ext] structure Dict (κ ν : Type*) where
  items : List (κ × ν)
  nodup : (items.map Prod.fst).Nodup
  deriving DecidableEq

namespace Dict

variable {κ ν μ : Type*} {d : Dict κ ν} {k k' : κ} {v v' : ν}

/-- `{}`. -/
def empty : Dict κ ν := ⟨[], List.nodup_nil⟩

/-- `d.keys()`. -/
def keys (d : Dict κ ν) : List κ := d.items.map Prod.fst

/-- `d.values()`. -/
def values (d : Dict κ ν) : List ν := d.items.map Prod.snd

/-- `{k: v for k, v in d.items() if p(k, v)}`. -/
def filter (d : Dict κ ν) (p : κ × ν → Bool) : Dict κ ν :=
  ⟨d.items.filter p, d.nodup.sublist (List.filter_sublist.map _)⟩

/-- `{k: f(k, v) for k, v in d.items()}`. -/
def map (d : Dict κ ν) (f : κ → ν → μ) : Dict κ μ :=
  ⟨d.items.map fun e => (e.1, f e.1 e.2), by simpa [List.map_map, Function.comp_def] using d.nodup⟩

variable [DecidableEq κ]

/-- `d.get(k)`. -/
def get? (d : Dict κ ν) (k : κ) : Option ν := (d.items.find? fun e => e.1 = k).map Prod.snd

/-- The entries after `d[k] = v`: a key that is there keeps its place. -/
def setItems (l : List (κ × ν)) (k : κ) (v : ν) : List (κ × ν) :=
  if k ∈ l.map Prod.fst then l.map fun e => if e.1 = k then (k, v) else e else l ++ [(k, v)]

theorem map_fst_setItems (l : List (κ × ν)) (k : κ) (v : ν) :
    (setItems l k v).map Prod.fst =
      if k ∈ l.map Prod.fst then l.map Prod.fst else l.map Prod.fst ++ [k] := by
  unfold setItems
  split
  · rw [List.map_map]
    refine List.map_congr_left fun e _ => ?_
    simp only [Function.comp_apply]
    split
    · next h => exact h.symm
    · rfl
  · simp

/-- `d[k] = v`. -/
def set (d : Dict κ ν) (k : κ) (v : ν) : Dict κ ν where
  items := setItems d.items k v
  nodup := by
    rw [map_fst_setItems]
    split
    · exact d.nodup
    · next h => exact List.nodup_append.2 ⟨d.nodup, List.nodup_singleton k, fun a ha b hb => by
        rw [List.mem_singleton.1 hb]
        exact fun hab => h (hab ▸ ha)⟩

/-- `d.pop(k, None)`, without the value it returns. -/
def pop (d : Dict κ ν) (k : κ) : Dict κ ν := d.filter fun e => e.1 ≠ k

/-- `{k: v for k, v in l}`: of two entries under one key the later one
stays. -/
def ofList (l : List (κ × ν)) : Dict κ ν := l.foldl (fun d e => d.set e.1 e.2) empty

/-! ## Lookups and entries -/

omit [DecidableEq κ] in
/-- Two entries under one key are one entry. -/
theorem eq_of_mem {e e' : κ × ν} (h : e ∈ d.items) (h' : e' ∈ d.items) (hk : e.1 = e'.1) :
    e = e' :=
  List.inj_on_of_nodup_map d.nodup h h' hk

/-- **A lookup finds the entry**, the only one under its key. -/
theorem get?_eq_some : d.get? k = some v ↔ (k, v) ∈ d.items := by
  unfold get?
  constructor
  · intro h
    obtain ⟨e, he, rfl⟩ := Option.map_eq_some_iff.1 h
    have hk : e.1 = k := by simpa using List.find?_some he
    rw [← hk]
    exact List.mem_of_find?_eq_some he
  · intro h
    rcases hf : d.items.find? fun e => e.1 = k with _ | e
    · exact absurd (decide_eq_true rfl) (List.find?_eq_none.1 hf _ h)
    · have hk : e.1 = k := by simpa using List.find?_some hf
      rw [hf, Option.map_some, eq_of_mem (List.mem_of_find?_eq_some hf) h hk]

theorem mem_keys : k ∈ d.keys ↔ ∃ v, d.get? k = some v := by
  simp [keys, get?_eq_some]

theorem get?_eq_none : d.get? k = none ↔ k ∉ d.keys := by
  rw [mem_keys, Option.eq_none_iff_forall_ne_some, not_exists]

theorem isSome_get? : (d.get? k).isSome ↔ k ∈ d.keys := by
  rw [mem_keys, Option.isSome_iff_exists]

theorem mem_values : v ∈ d.values ↔ ∃ k, d.get? k = some v := by
  simp [values, get?_eq_some]

omit [DecidableEq κ] in
theorem nodup_keys (d : Dict κ ν) : d.keys.Nodup := d.nodup

/-! ## What each operation leaves -/

@[simp] theorem get?_empty : (empty : Dict κ ν).get? k = none := rfl

omit [DecidableEq κ] in
@[simp] theorem keys_empty : (empty : Dict κ ν).keys = [] := rfl

theorem mem_items_set {e : κ × ν} :
    e ∈ (d.set k v).items ↔ e = (k, v) ∨ e ∈ d.items ∧ e.1 ≠ k := by
  simp only [set, setItems]
  split
  · next hk =>
    rw [List.mem_map]
    constructor
    · rintro ⟨e', he', rfl⟩
      split
      · exact .inl rfl
      · next hne => exact .inr ⟨he', hne⟩
    · rintro (rfl | ⟨he, hne⟩)
      · obtain ⟨e', he', rfl⟩ := List.mem_map.1 hk
        exact ⟨e', he', if_pos rfl⟩
      · exact ⟨e, he, if_neg hne⟩
  · next hk =>
    rw [List.mem_append, List.mem_singleton, or_comm]
    refine or_congr_right (iff_self_and.2 fun he hek => hk ?_)
    exact List.mem_map.2 ⟨e, he, hek⟩

/-- **`d[k] = v`** changes the entry at `k` and no other. -/
theorem get?_set : (d.set k v).get? k' = if k' = k then some v else d.get? k' := by
  refine Option.ext fun w => ?_
  rw [get?_eq_some, mem_items_set]
  split
  · next h => simp [h, eq_comm]
  · next h => simp [h, get?_eq_some]

theorem mem_keys_set : k' ∈ (d.set k v).keys ↔ k' = k ∨ k' ∈ d.keys := by
  rw [← isSome_get?, get?_set, ← isSome_get?]
  split <;> simp_all

theorem get?_filter {p : κ × ν → Bool} :
    (d.filter p).get? k = (d.get? k).filter fun v => p (k, v) := by
  refine Option.ext fun w => ?_
  rw [get?_eq_some, filter, List.mem_filter, ← get?_eq_some, Option.filter_eq_some_iff]

/-- **`d.pop(k, None)`** removes the entry at `k` and no other. -/
theorem get?_pop : (d.pop k).get? k' = if k' = k then none else d.get? k' := by
  rw [pop, get?_filter]
  split
  · next h => simp [h]
  · next h => rcases d.get? k' with _ | v <;> simp [h]

theorem get?_map {f : κ → ν → μ} : (d.map f).get? k = (d.get? k).map (f k) := by
  refine Option.ext fun w => ?_
  rw [get?_eq_some, map, List.mem_map, Option.map_eq_some_iff]
  constructor
  · rintro ⟨⟨k', v⟩, he, h⟩
    obtain ⟨rfl, rfl⟩ := Prod.mk.inj h
    exact ⟨v, get?_eq_some.2 he, rfl⟩
  · rintro ⟨v, hv, rfl⟩
    exact ⟨(k, v), get?_eq_some.1 hv, rfl⟩

omit [DecidableEq κ] in
@[simp] theorem keys_map {f : κ → ν → μ} : (d.map f).keys = d.keys := by
  simp [keys, map, Function.comp_def]

/-! ## Loops that set entries -/

/-- **A loop of assignments** to distinct keys. -/
theorem get?_foldl_set {α : Type*} {key : α → κ} {value : α → ν} {l : List α}
    (hl : (l.map key).Nodup) (d : Dict κ ν) (k : κ) :
    (l.foldl (fun d a => d.set (key a) (value a)) d).get? k =
      ((l.find? fun a => key a = k).map value).or (d.get? k) := by
  induction l generalizing d with
  | nil => simp
  | cons a l ih =>
    rw [List.map_cons, List.nodup_cons] at hl
    rw [List.foldl_cons, ih hl.2, get?_set, List.find?_cons]
    by_cases hk : key a = k
    · -- the assignment is the only one to its key
      have hnone : l.find? (fun b => key b = k) = none := by
        rw [List.find?_eq_none]
        intro b hb hbk
        exact hl.1 (List.mem_map.2 ⟨b, hb, by rw [hk]; simpa using hbk⟩)
      simp [hnone, hk]
    · simp [hk, Ne.symm hk]

/-! ## Comprehensions over lists -/

theorem ofList_concat (l : List (κ × ν)) (e : κ × ν) :
    ofList (l ++ [e]) = (ofList l).set e.1 e.2 := by
  simp [ofList]

/-- The keys of a comprehension are those of the list. -/
theorem mem_keys_ofList {l : List (κ × ν)} : k ∈ (ofList l).keys ↔ k ∈ l.map Prod.fst := by
  induction l using List.reverseRecOn with
  | nil => simp [ofList]
  | append_singleton l e ih =>
    rw [ofList_concat, mem_keys_set, ih, List.map_append, List.mem_append, or_comm]
    simp

/-- A comprehension over distinct keys keeps the list. -/
theorem items_ofList {l : List (κ × ν)} (h : (l.map Prod.fst).Nodup) : (ofList l).items = l := by
  induction l using List.reverseRecOn with
  | nil => rfl
  | append_singleton l e ih =>
    rw [List.map_append, List.nodup_append] at h
    have hnew : e.1 ∉ (ofList l).items.map Prod.fst := by
      rw [ih h.1]
      exact fun hmem => h.2.2 e.1 hmem e.1 (by simp) rfl
    simp only [ofList_concat, set, setItems]
    rw [if_neg hnew, ih h.1]

/-- **A comprehension over distinct keys** has the entries of the list. -/
theorem get?_ofList {l : List (κ × ν)} (h : (l.map Prod.fst).Nodup) :
    (ofList l).get? k = some v ↔ (k, v) ∈ l := by
  induction l using List.reverseRecOn with
  | nil => simp [ofList]
  | append_singleton l e ih =>
    rw [List.map_append, List.nodup_append] at h
    rw [ofList_concat, get?_set, List.mem_append, List.mem_singleton]
    have hnew : ∀ v, (e.1, v) ∉ l := fun v he =>
      h.2.2 e.1 (List.mem_map.2 ⟨_, he, rfl⟩) e.1 (by simp) rfl
    split
    · next hk =>
      subst hk
      simp only [Option.some.injEq, hnew, false_or]
      exact ⟨fun hv => by rw [← hv], fun hv => by rw [← hv]⟩
    · next hk =>
      rw [ih h.1, or_iff_left]
      exact fun he => hk (by rw [← he])

end Dict

end ChutesApi
