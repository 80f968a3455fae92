import ChutesApi.Instance.Model.Routing
/-!
# What the targets of a request are

Without prefixes the targets are the instances that are not avoided and are
below the limit, each once. The instances that are put first for a prefix are
cut to three and not held against the limit: `routes_iff` says when the
targets are still the same.
-/

namespace ChutesApi

namespace LeastConnManager

variable (m : LeastConnManager) (draws : Draws) (caches : Caches) (avoid : List String)

/-- The candidates. -/
def available : List String := m.instances.filter (· ∉ avoid)

/-- The connections of an instance, as they are read. -/
def connections (caches : Caches) (iid : String) : ℕ := (caches.zcount.getD fun _ => 0) iid

/-- **The list of targets is right**: it has the candidates below the limit,
each once, and there is none only where every candidate is at the limit. -/
def Routes (targets : Except String (List String)) : Prop :=
  match targets with
  | .error _ => ∀ iid ∈ m.available avoid, m.concurrency ≤ connections caches iid
  | .ok targets => targets.Nodup ∧ ∀ iid, iid ∈ targets ↔
      iid ∈ m.available avoid ∧ connections caches iid < m.concurrency

variable {m draws caches avoid}

/-! ## The counts -/

theorem nodup_available : (m.available avoid).Nodup := m.nodup.filter _

theorem items_counts {ids : List String} (h : ids.Nodup) :
    (getConnectionCounts caches ids).items = ids.map fun iid => (iid, connections caches iid) :=
  Dict.items_ofList (by simpa [List.map_map, Function.comp_def] using h)

theorem get?_counts {ids : List String} (h : ids.Nodup) {iid : String} (hmem : iid ∈ ids) :
    (getConnectionCounts caches ids).get? iid = some (connections caches iid) := by
  rw [Dict.get?_eq_some, items_counts h]
  exact List.mem_map_of_mem hmem

theorem keys_counts {ids : List String} (h : ids.Nodup) :
    (getConnectionCounts caches ids).keys = ids := by
  rw [Dict.keys, items_counts h, List.map_map]
  exact List.map_id ids

/-! ## The groups -/

/-- What a group has after some of the entries. -/
theorem group_foldl {l : List (String × ℕ)} (hmem : ∀ e ∈ l, e.1 ∈ m.instances)
    (groups : Dict ℕ (List String)) (count : ℕ) :
    ((l.foldl m.groupInstance groups).get? count).getD [] =
        (groups.get? count).getD [] ++
          (l.filter fun e => e.2 = count ∧ e.2 < m.concurrency).map Prod.fst ∧
      (count ∈ (l.foldl m.groupInstance groups).keys ↔
        count ∈ groups.keys ∨ ∃ e ∈ l, e.2 = count ∧ e.2 < m.concurrency) := by
  induction l generalizing groups with
  | nil => simp
  | cons e l ih =>
    obtain ⟨hget, hkeys⟩ := ih (fun e' he' => hmem e' (List.mem_cons_of_mem e he'))
      (m.groupInstance groups e)
    have he := hmem e List.mem_cons_self
    rw [List.foldl_cons, hget, hkeys, List.exists_mem_cons_iff]
    unfold groupInstance
    by_cases hfull : m.concurrency ≤ e.2
    · have hnot : ¬(e.2 = count ∧ e.2 < m.concurrency) := by omega
      rw [if_pos hfull, List.filter_cons_of_neg (by simpa using hnot)]
      simp only [hnot, false_or, and_self]
    · rw [if_neg hfull, if_pos he, Dict.get?_set, Dict.mem_keys_set]
      by_cases hc : count = e.2
      · subst hc
        have hlt : e.2 < m.concurrency := by omega
        rw [if_pos rfl, List.filter_cons_of_pos (by simpa using hlt), Option.getD_some,
          List.map_cons, List.append_assoc, List.singleton_append]
        simp only [hlt, true_or, or_true, and_self]
      · have hnot : ¬(e.2 = count ∧ e.2 < m.concurrency) := by omega
        rw [if_neg hc, List.filter_cons_of_neg (by simpa using hnot)]
        simp only [hc, hnot, false_or, and_self]

/-- **The groups of the candidates**, in whatever order each is. -/
structure Grouped (m : LeastConnManager) (caches : Caches) (ids : List String)
    (grouped : Dict ℕ (List String)) : Prop where
  mem : ∀ count iid, iid ∈ (grouped.get? count).getD [] ↔
    iid ∈ ids ∧ connections caches iid = count ∧ count < m.concurrency
  nodup : ∀ count, ((grouped.get? count).getD []).Nodup
  keys : ∀ iid ∈ ids, connections caches iid < m.concurrency →
    connections caches iid ∈ grouped.keys

theorem grouped_counts {ids : List String} (hnd : ids.Nodup)
    (hids : ∀ iid ∈ ids, iid ∈ m.instances) :
    Grouped m caches ids (m.groupedByCount draws (getConnectionCounts caches ids)) := by
  have hfold := fun count => group_foldl (m := m)
    (l := ids.map fun iid => (iid, connections caches iid))
    (fun e he => by
      obtain ⟨iid, hiid, rfl⟩ := List.mem_map.1 he
      exact hids iid hiid) .empty count
  -- A group before its shuffle.
  have hgroup : ∀ count, (((ids.map fun iid => (iid, connections caches iid)).foldl
      m.groupInstance .empty).get? count).getD [] =
        ids.filter fun iid => connections caches iid = count ∧
          connections caches iid < m.concurrency := by
    intro count
    rw [(hfold count).1, Dict.get?_empty, Option.getD_none, List.nil_append, List.filter_map,
      List.map_map]
    exact List.map_id _
  have hperm : ∀ count, (((m.groupedByCount draws (getConnectionCounts caches ids)).get?
      count).getD []).Perm (ids.filter fun iid => connections caches iid = count ∧
        connections caches iid < m.concurrency) := by
    intro count
    rw [← hgroup, groupedByCount, Dict.get?_map, items_counts hnd]
    rcases ((ids.map fun iid => (iid, connections caches iid)).foldl m.groupInstance
      .empty).get? count with _ | l
    · exact List.Perm.refl _
    · exact draws.shuffle_perm count l
  refine ⟨fun count iid => ?_, fun count => ?_, fun iid hiid hlt => ?_⟩
  · rw [(hperm count).mem_iff, List.mem_filter, decide_eq_true_eq]
    refine and_congr_right fun _ => and_congr_right fun hc => ?_
    rw [hc]
  · exact (hperm count).nodup_iff.2 (hnd.filter _)
  · rw [groupedByCount, Dict.keys_map, items_counts hnd, (hfold _).2]
    exact .inr ⟨_, List.mem_map_of_mem hiid, rfl, hlt⟩

/-- **The groups, one after the other**, without some of the instances: every
candidate below the limit that is not left out, once. -/
theorem Grouped.flatMap_filter {ids : List String} {grouped : Dict ℕ (List String)}
    (hg : Grouped m caches ids grouped) (keep : String → Bool) :
    ((grouped.keys.insertionSort (· ≤ ·)).flatMap fun count =>
        ((grouped.get? count).getD []).filter keep).Nodup ∧
      ∀ iid, iid ∈ ((grouped.keys.insertionSort (· ≤ ·)).flatMap fun count =>
          ((grouped.get? count).getD []).filter keep) ↔
        (iid ∈ ids ∧ connections caches iid < m.concurrency) ∧ keep iid := by
  constructor
  · rw [List.nodup_flatMap]
    refine ⟨fun count _ => (hg.nodup count).filter _, ?_⟩
    have hkeys : (grouped.keys.insertionSort (· ≤ ·)).Nodup :=
      (List.perm_insertionSort _ _).nodup_iff.2 grouped.nodup_keys
    refine hkeys.imp fun {a b} hab iid ha hb => hab ?_
    -- An instance is in the group of its count only.
    have hca := ((hg.mem a iid).1 (List.mem_filter.1 ha).1).2.1
    have hcb := ((hg.mem b iid).1 (List.mem_filter.1 hb).1).2.1
    exact hca.symm.trans hcb
  · intro iid
    rw [List.mem_flatMap]
    constructor
    · rintro ⟨count, -, hin⟩
      obtain ⟨hin, hkeep⟩ := List.mem_filter.1 hin
      obtain ⟨hiid, rfl, hlt⟩ := (hg.mem count iid).1 hin
      exact ⟨⟨hiid, hlt⟩, hkeep⟩
    · rintro ⟨⟨hiid, hlt⟩, hkeep⟩
      refine ⟨connections caches iid, (List.mem_insertionSort _).2 (hg.keys iid hiid hlt), ?_⟩
      exact List.mem_filter.2 ⟨(hg.mem _ iid).2 ⟨hiid, rfl, hlt⟩, hkeep⟩

/-- **Without a prefix the targets are right.** -/
theorem Grouped.byCount {ids : List String} {grouped : Dict ℕ (List String)}
    (hg : Grouped m caches ids grouped) : (byCount grouped).Nodup ∧
      ∀ iid, iid ∈ LeastConnManager.byCount grouped ↔
        iid ∈ ids ∧ connections caches iid < m.concurrency := by
  obtain ⟨hnd, hmem⟩ := hg.flatMap_filter fun _ => true
  simp only [List.filter_true] at hnd hmem
  simp only [and_true] at hmem
  exact ⟨hnd, hmem⟩

/-! ## The first three of a sorted list -/

section

variable {count : String → ℕ} {limit : ℕ}

/-- In a list sorted by counts, those below the limit come first. -/
theorem filter_append_of_sorted {l : List String}
    (h : l.Pairwise fun a b => count a ≤ count b) :
    l = (l.filter fun a => count a < limit) ++ l.filter fun a => limit ≤ count a := by
  induction l with
  | nil => rfl
  | cons a l ih =>
    rw [List.pairwise_cons] at h
    have hl := ih h.2
    by_cases ha : count a < limit
    · have hnot : ¬ limit ≤ count a := by omega
      rw [List.filter_cons_of_pos (by simpa using ha),
        List.filter_cons_of_neg (by simpa using hnot), List.cons_append, ← hl]
    · have hge : limit ≤ count a := by omega
      have hnone : l.filter (fun a => count a < limit) = [] := by
        refine List.filter_eq_nil_iff.2 fun b hb => ?_
        have := h.1 b hb
        simp only [decide_eq_true_eq]
        omega
      have hall : l.filter (fun a => limit ≤ count a) = l := by
        refine List.filter_eq_self.2 fun b hb => ?_
        have := h.1 b hb
        simp only [decide_eq_true_eq]
        omega
      rw [List.filter_cons_of_neg (by simpa using ha), List.filter_cons_of_pos (by simpa using hge),
        hnone, hall, List.nil_append]

/-- **The first three are those below the limit exactly when there are as
many of these.** -/
theorem mem_take_three_iff {l : List String} (hnd : l.Nodup)
    (h : l.Pairwise fun a b => count a ≤ count b) :
    (∀ a ∈ l, a ∈ l.take 3 ↔ count a < limit) ↔
      min 3 l.length = (l.filter fun a => count a < limit).length := by
  have hsplit : l = (l.filter fun a => count a < limit) ++ l.filter fun a => limit ≤ count a :=
    filter_append_of_sorted h
  have htake : l.take (l.filter fun a => count a < limit).length =
      l.filter fun a => count a < limit := by
    conv_lhs => rw [hsplit]
    rw [List.take_left']
    rw [← hsplit]
  constructor
  · intro hiff
    have hperm : (l.take 3).Perm (l.filter fun a => count a < limit) := by
      refine (List.perm_ext_iff_of_nodup (hnd.sublist (List.take_sublist 3 l)) (hnd.filter _)).2
        fun a => ?_
      rw [List.mem_filter, decide_eq_true_eq]
      constructor
      · intro ha
        exact ⟨List.mem_of_mem_take ha, (hiff a (List.mem_of_mem_take ha)).1 ha⟩
      · rintro ⟨hl, hlt⟩
        exact (hiff a hl).2 hlt
    rw [← hperm.length_eq, List.length_take]
  · intro hlen a ha
    have heq : l.take 3 = l.filter fun a => count a < limit := by
      rw [← htake, ← hlen, ← List.take_eq_take_min]
    rw [heq, List.mem_filter, decide_eq_true_eq]
    exact and_iff_right ha

/-- **The first three in front of the rest** are what is wanted, of the
candidates those below the limit, exactly when the three are. -/
theorem take_three_append_iff {l rest ids : List String} (hnd : l.Nodup)
    (hsorted : l.Pairwise fun a b => count a ≤ count b) (hl : ∀ a ∈ l, a ∈ ids)
    (hrestnd : rest.Nodup) (hrest : ∀ a, a ∈ rest ↔ (a ∈ ids ∧ count a < limit) ∧ a ∉ l) :
    ((l.take 3 ++ rest).Nodup ∧ ∀ a, a ∈ l.take 3 ++ rest ↔ a ∈ ids ∧ count a < limit) ↔
      min 3 l.length = (l.filter fun a => count a < limit).length := by
  have hnodup : (l.take 3 ++ rest).Nodup := by
    refine List.nodup_append'.2 ⟨hnd.sublist (List.take_sublist 3 l), hrestnd, fun a h3 hr => ?_⟩
    exact ((hrest a).1 hr).2 (List.mem_of_mem_take h3)
  rw [and_iff_right hnodup, ← mem_take_three_iff hnd hsorted]
  constructor
  · intro h a ha
    have hids := hl a ha
    have := h a
    rw [List.mem_append, hrest] at this
    tauto
  · intro h a
    rw [List.mem_append, hrest]
    by_cases ha : a ∈ l
    · have hids := hl a ha
      have := h a ha
      tauto
    · have hnot : a ∉ l.take 3 := fun h3 => ha (List.mem_of_mem_take h3)
      tauto

end

/-! ## The instances that are put first -/

variable (m draws caches avoid)

/-- The counts of the candidates. -/
abbrev counts : Dict String ℕ := getConnectionCounts caches (m.available avoid)

/-- The candidates in groups. -/
abbrev grouped : Dict ℕ (List String) := m.groupedByCount draws (m.counts caches avoid)

/-- **The instances that are put first** when prefixes are looked at: of the
candidates that have the first prefix some candidate has, those with at most
two connections more than the fewest. -/
def favoured (prefixes : Option (List (ℕ × String))) : List String :=
  if draws.prefixAware then
    match likelyCached caches (m.counts caches avoid) (prefixes.getD []) with
    | none => []
    | some cached =>
      routable (m.counts caches avoid) ((m.counts caches avoid).values.min?.getD 0) cached
  else []

variable {m draws caches avoid}

/-- **The candidates in groups** are what grouping them gives. -/
theorem grouped_available :
    Grouped m caches (m.available avoid) (m.grouped draws caches avoid) :=
  grouped_counts nodup_available fun _ hiid => List.mem_of_mem_filter hiid

theorem likelyCached_sublist {counts : Dict String ℕ} {prefixes : List (ℕ × String)}
    {cached : List String} (h : likelyCached caches counts prefixes = some cached) :
    cached.Sublist counts.keys := by
  induction prefixes with
  | nil => cases h
  | cons p prefixes ih =>
    obtain ⟨size, prefixHash⟩ := p
    simp only [likelyCached, Option.bind_eq_bind, Option.bind_eq_some_iff] at h
    obtain ⟨hasPrefix, -, h⟩ := h
    split at h
    · exact ih h
    · obtain rfl := Option.some.inj h
      exact List.filter_sublist

theorem pairwise_byCounts {ids l : List String} (hnd : ids.Nodup) (hl : ∀ iid ∈ l, iid ∈ ids) :
    (l.insertionSort fun a b => ((getConnectionCounts caches ids).get? a).getD 0 ≤
      ((getConnectionCounts caches ids).get? b).getD 0).Pairwise
        fun a b => connections caches a ≤ connections caches b := by
  let count := fun iid => ((getConnectionCounts caches ids).get? iid).getD 0
  have htotal : Std.Total fun a b => count a ≤ count b := ⟨fun a b => le_total _ _⟩
  have htrans : IsTrans String fun a b => count a ≤ count b := ⟨fun a b c => le_trans⟩
  refine (List.pairwise_insertionSort (fun a b => count a ≤ count b) l).imp_of_mem
    fun {a b} ha hb hab => ?_
  have hcount : ∀ iid ∈ l, count iid = connections caches iid := by
    intro iid hiid
    change ((getConnectionCounts caches ids).get? iid).getD 0 = _
    rw [get?_counts hnd (hl iid hiid), Option.getD_some]
  rw [List.mem_insertionSort] at ha hb
  rwa [hcount a ha, hcount b hb] at hab

/-- **What `_handle_prefix_routing` returns**, when it does: the first three of
the instances put first, sorted, and every other candidate below the limit. -/
theorem handlePrefixRouting_eq_some {minCount : ℕ} {prefixes : List (ℕ × String)}
    {cached targets : List String}
    (hcached : likelyCached caches (m.counts caches avoid) prefixes = some cached)
    (h : m.handlePrefixRouting draws caches (m.counts caches avoid) (m.grouped draws caches avoid)
      minCount prefixes = some targets) :
    ∃ sorted rest : List String, targets = sorted.take 3 ++ rest ∧ sorted ≠ [] ∧
      sorted.Perm (routable (m.counts caches avoid) minCount cached) ∧
      sorted.Pairwise (fun a b => connections caches a ≤ connections caches b) ∧
      (∀ iid ∈ sorted, iid ∈ m.available avoid) ∧ rest.Nodup ∧
      ∀ iid, iid ∈ rest ↔
        (iid ∈ m.available avoid ∧ connections caches iid < m.concurrency) ∧ iid ∉ sorted := by
  have hnd : (m.available avoid).Nodup := nodup_available
  have hgrouped : Grouped m caches (m.available avoid) (m.grouped draws caches avoid) :=
    grouped_available
  have hsub := likelyCached_sublist hcached
  rw [keys_counts hnd] at hsub
  simp only [handlePrefixRouting, hcached, Option.bind_eq_bind, Option.bind_some] at h
  -- In the order the set is gone through.
  have hperm : (routable (m.counts caches avoid) minCount (draws.setOrder cached)).Perm
      (routable (m.counts caches avoid) minCount cached) :=
    (draws.setOrder_perm cached).filter _
  revert h hperm
  generalize routable (m.counts caches avoid) minCount (draws.setOrder cached) = ordered
  intro h hperm
  have hfirst : ∀ iid ∈ ordered, iid ∈ m.available avoid := fun iid hiid =>
    hsub.subset (List.mem_of_mem_filter (hperm.subset hiid))
  have hall : ordered.filter (· ∈ m.instances) = ordered := by
    refine List.filter_eq_self.2 fun iid hiid => ?_
    exact decide_eq_true (List.mem_of_mem_filter (hfirst iid hiid))
  rw [hall] at h
  split at h
  · cases h
  rename_i hne
  have hsperm := List.perm_insertionSort (fun a b =>
    ((m.counts caches avoid).get? a).getD 0 ≤ ((m.counts caches avoid).get? b).getD 0) ordered
  obtain ⟨hrestnd, hrest⟩ := hgrouped.flatMap_filter fun iid => iid ∉ ordered
  refine ⟨_, _, (Option.some.inj h).symm, fun hnil => hne ?_, hsperm.trans hperm,
    pairwise_byCounts hnd hfirst, fun iid hiid => hfirst iid (hsperm.subset hiid), hrestnd,
    fun iid => ?_⟩
  · rw [hnil] at hsperm
    exact hsperm.nil_eq.symm
  · rw [hrest iid, decide_eq_true_eq, hsperm.mem_iff]

/-- The targets with instances put first are right exactly when as many of
these are below the limit as are kept. -/
theorem handlePrefixRouting_right_iff {minCount : ℕ} {prefixes : List (ℕ × String)}
    {cached targets : List String}
    (hcached : likelyCached caches (m.counts caches avoid) prefixes = some cached)
    (h : m.handlePrefixRouting draws caches (m.counts caches avoid) (m.grouped draws caches avoid)
      minCount prefixes = some targets) :
    m.Routes caches avoid (.ok targets) ↔
      min 3 (routable (m.counts caches avoid) minCount cached).length =
        ((routable (m.counts caches avoid) minCount cached).filter fun iid =>
          connections caches iid < m.concurrency).length := by
  obtain ⟨sorted, rest, rfl, -, hperm, hsorted, hmem, hrestnd, hrest⟩ :=
    handlePrefixRouting_eq_some hcached h
  have hsub := likelyCached_sublist hcached
  rw [keys_counts nodup_available] at hsub
  have hnd : sorted.Nodup :=
    hperm.nodup_iff.2 ((nodup_available.sublist hsub).filter _)
  have hbelow := (hperm.filter fun iid =>
    decide (connections caches iid < m.concurrency)).length_eq
  rw [← hperm.length_eq, ← hbelow]
  exact take_three_append_iff hnd hsorted hmem hrestnd hrest

/-- `_handle_prefix_routing` gives up exactly where no instance is put first. -/
theorem handlePrefixRouting_eq_none_iff {counts : Dict String ℕ}
    {grouped : Dict ℕ (List String)} {minCount : ℕ} {prefixes : List (ℕ × String)} :
    m.handlePrefixRouting draws caches counts grouped minCount prefixes = none ↔
      ∀ cached, likelyCached caches counts prefixes = some cached →
        routable counts minCount cached = [] := by
  rcases h : likelyCached caches counts prefixes with _ | cached
  · simp [handlePrefixRouting, h]
  have hperm : (routable counts minCount (draws.setOrder cached)).Perm
      (routable counts minCount cached) := (draws.setOrder_perm cached).filter _
  have hnil : routable counts minCount (draws.setOrder cached) = [] ↔
      routable counts minCount cached = [] := by
    rw [← List.length_eq_zero_iff, hperm.length_eq, List.length_eq_zero_iff]
  simp only [handlePrefixRouting, h, Option.bind_eq_bind, Option.bind_some, Option.some.injEq,
    forall_eq', ← hnil]
  split <;> simp_all

/-- What the prefixes come to: no instance is put first, or some are and
`_handle_prefix_routing` has a result. -/
theorem favoured_cases {minCount : ℕ} ( prefixes : Option (List (ℕ × String)))
    (hmin : (m.counts caches avoid).values.min? = some minCount)
    (grouped : Dict ℕ (List String)) :
    (m.favoured draws caches avoid prefixes = [] ∧ ∀ l, prefixes = some l → draws.prefixAware →
      m.handlePrefixRouting draws caches (m.counts caches avoid) grouped minCount l = none) ∨
    ∃ l cached targets, prefixes = some l ∧ l ≠ [] ∧ draws.prefixAware ∧
      likelyCached caches (m.counts caches avoid) l = some cached ∧
      m.favoured draws caches avoid prefixes =
        routable (m.counts caches avoid) minCount cached ∧
      m.handlePrefixRouting draws caches (m.counts caches avoid) grouped minCount l =
        some targets := by
  unfold favoured
  rw [hmin, Option.getD_some]
  rcases prefixes with _ | l
  · refine .inl ⟨?_, fun l hl => by cases hl⟩
    simp [likelyCached]
  rw [Option.getD_some]
  cases haware : draws.prefixAware with
  | false => exact .inl ⟨rfl, fun l _ h => by cases h⟩
  | true =>
    rw [if_pos rfl]
    rcases hr : m.handlePrefixRouting draws caches (m.counts caches avoid) grouped minCount l with
      _ | targets
    · have hnone := handlePrefixRouting_eq_none_iff.1 hr
      refine .inl ⟨?_, fun l' hl' _ => by obtain rfl := Option.some.inj hl'; exact hr⟩
      rcases hc : likelyCached caches (m.counts caches avoid) l with _ | cached
      · rfl
      · exact hnone cached hc
    · refine .inr ?_
      rcases hc : likelyCached caches (m.counts caches avoid) l with _ | cached
      · simp [handlePrefixRouting, hc] at hr
      · refine ⟨l, cached, targets, rfl, ?_, rfl, hc, rfl, hr⟩
        rintro rfl
        cases hc

/-! ## The targets -/

/-- **What `get_targets` returns.** -/
theorem getTargets_cases (m : LeastConnManager) (draws : Draws) (caches : Caches)
    (avoid : List String) (prefixes : Option (List (ℕ × String))) :
    (m.available avoid = [] ∧ m.getTargets draws caches avoid prefixes = .ok []) ∨
    ∃ minCount, (m.counts caches avoid).values.min? = some minCount ∧
      ((m.concurrency ≤ minCount ∧
          ∃ detail, m.getTargets draws caches avoid prefixes = .error detail) ∨
        (minCount < m.concurrency ∧ m.favoured draws caches avoid prefixes = [] ∧
          m.getTargets draws caches avoid prefixes =
            .ok (byCount (m.grouped draws caches avoid))) ∨
        (minCount < m.concurrency ∧ ∃ l cached targets,
          likelyCached caches (m.counts caches avoid) l = some cached ∧
          m.favoured draws caches avoid prefixes =
            routable (m.counts caches avoid) minCount cached ∧
          m.handlePrefixRouting draws caches (m.counts caches avoid) (m.grouped draws caches avoid)
            minCount l = some targets ∧
          m.getTargets draws caches avoid prefixes = .ok targets)) := by
  unfold getTargets
  rw [← available]
  by_cases hnil : m.available avoid = []
  · exact .inl ⟨hnil, if_pos hnil⟩
  refine .inr ?_
  simp only [if_neg hnil]
  rcases hmin : (m.counts caches avoid).values.min? with _ | minCount
  · refine absurd ?_ hnil
    rw [List.min?_eq_none_iff, Dict.values, items_counts nodup_available, List.map_map,
      List.map_eq_nil_iff] at hmin
    exact hmin
  refine ⟨minCount, rfl, ?_⟩
  by_cases hfull : m.concurrency ≤ minCount
  · exact .inl ⟨hfull, _, if_pos hfull⟩
  have hlt : minCount < m.concurrency := Nat.lt_of_not_le hfull
  simp only [if_neg hfull]
  obtain ⟨hfirst, hnone⟩ | ⟨l, cached, targets, rfl, hne, haware, hc, hfirst, hr⟩ :=
    favoured_cases prefixes hmin (m.grouped draws caches avoid)
  · refine .inr (.inl ⟨hlt, hfirst, ?_⟩)
    rcases prefixes with _ | l
    · rfl
    · by_cases hcond : l ≠ [] ∧ draws.prefixAware
      · simp only [if_pos hcond, hnone l rfl hcond.2, Option.getD_none]
        rfl
      · simp only [if_neg hcond]
        rfl
  · refine .inr (.inr ⟨hlt, l, cached, targets, hc, hfirst, hr, ?_⟩)
    have hcond : l ≠ [] ∧ draws.prefixAware := ⟨hne, haware⟩
    obtain ⟨sorted, rest, rfl, hsne, -⟩ := handlePrefixRouting_eq_some hc hr
    have hne : sorted.take 3 ++ rest ≠ [] := by simp [hsne]
    simp only [if_pos hcond, hr, Option.getD_some, if_pos hne]

/-- The fewest connections a candidate has. -/
theorem min?_counts {minCount : ℕ} (h : (m.counts caches avoid).values.min? = some minCount) :
    (∃ iid ∈ m.available avoid, connections caches iid = minCount) ∧
      ∀ iid ∈ m.available avoid, minCount ≤ connections caches iid := by
  have hvalues : (m.counts caches avoid).values =
      (m.available avoid).map (connections caches) := by
    rw [Dict.values, items_counts nodup_available, List.map_map]
    rfl
  rw [hvalues, List.min?_eq_some_iff] at h
  obtain ⟨hmem, hle⟩ := h
  exact ⟨List.mem_map.1 hmem, fun iid hiid => hle _ (List.mem_map_of_mem hiid)⟩

/-- **When the targets are right**: every candidate is at the limit, or of the
instances put first as many are below the limit as are kept. -/
theorem routes_iff (m : LeastConnManager) (draws : Draws) (caches : Caches) (avoid : List String)
    (prefixes : Option (List (ℕ × String))) :
    m.Routes caches avoid (m.getTargets draws caches avoid prefixes) ↔
      (∀ iid ∈ m.available avoid, m.concurrency ≤ connections caches iid) ∨
        min 3 (m.favoured draws caches avoid prefixes).length =
          ((m.favoured draws caches avoid prefixes).filter fun iid =>
            connections caches iid < m.concurrency).length := by
  obtain ⟨hnil, heq⟩ | ⟨minCount, hmin, ⟨hfull, detail, heq⟩ | ⟨hlt, hfirst, heq⟩ |
    ⟨hlt, l, cached, targets, hc, hfirst, hr, heq⟩⟩ :=
      m.getTargets_cases draws caches avoid prefixes
  · rw [heq, hnil]
    simp [Routes, hnil]
  · have hall := (min?_counts hmin).2
    have hover : ∀ iid ∈ m.available avoid, m.concurrency ≤ connections caches iid :=
      fun iid hiid => hfull.trans (hall iid hiid)
    rw [heq]
    exact iff_of_true hover (.inl hover)
  · rw [heq, hfirst]
    exact iff_of_true grouped_available.byCount (.inr rfl)
  · have hbelow : ¬∀ iid ∈ m.available avoid, m.concurrency ≤ connections caches iid := by
      intro hover
      obtain ⟨iid, hiid, hcount⟩ := (min?_counts hmin).1
      have := hover iid hiid
      omega
    rw [heq, or_iff_right hbelow, hfirst]
    exact handlePrefixRouting_right_iff hc hr

/-- Draws that shuffle nothing and look at the prefixes. -/
def plainDraws : Draws where
  shuffle _ l := l
  prefixAware := true
  setOrder l := l
  shuffle_perm _ l := .refl l
  setOrder_perm l := .refl l

/-- Four instances with a limit of two connections. -/
def fourInstances : LeastConnManager where
  chuteId := "chute"
  instances := ["a", "b", "c", "d"]
  concurrency := 2
  nodup := by decide

/-- Every instance has the prefix, and the first of them has some connections. -/
def warmCaches (ofFirst : ℕ) : Caches where
  zcount := some fun iid => if iid = "a" then ofFirst else 0
  hasPrefix _ := some fun iid => iid = "a" ∨ ofFirst = 0

/-- Of four free instances that have the prefix one is no target, and the only
instance that has the prefix is a target at the limit. -/
theorem not_routes :
    (¬fourInstances.Routes (warmCaches 0) []
      (fourInstances.getTargets plainDraws (warmCaches 0) [] (some [(64, "prefix")]))) ∧
    ¬fourInstances.Routes (warmCaches 2) []
      (fourInstances.getTargets plainDraws (warmCaches 2) [] (some [(64, "prefix")])) := by
  have hfree : fourInstances.getTargets plainDraws (warmCaches 0) [] (some [(64, "prefix")]) =
      .ok ["a", "b", "c"] := by decide +kernel
  have hfull : fourInstances.getTargets plainDraws (warmCaches 2) [] (some [(64, "prefix")]) =
      .ok ["a", "b", "c", "d"] := by decide +kernel
  rw [hfree, hfull]
  constructor
  · rintro ⟨-, hmem⟩
    exact absurd ((hmem "d").2 (by decide)) (by decide)
  · rintro ⟨-, hmem⟩
    exact absurd ((hmem "a").1 (by decide)) (by decide)

end LeastConnManager

end ChutesApi
