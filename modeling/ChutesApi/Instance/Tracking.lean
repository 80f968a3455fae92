import ChutesApi.Instance.Model.Tracking
import ChutesApi.Instance.Routing
import ChutesApi.Common.Session
/-!
# Connections are counted, and admitted by their count

The sorted sets are purged, and lapse as keys, behind the requests' backs.
`counts` says that this is not seen: at every time, what Redis counts for an
instance is what is registered and not removed within the last ten minutes,
up to the connections that are just ten minutes old. Requests read the
counts, and register later. `admitted` says what that costs: an instance has
at most as many connections as a request was told it might have, and those
that were registered since the request looked.
-/

namespace ChutesApi

namespace LeastConnManager

variable {m : LeastConnManager} {draws : Draws} {caches : Caches} {avoid targets : List String}
variable {prefixes : Option (List (ℕ × String))} {iid : String}

/-- **No target has many more connections than the limit**, and none reaches
it where no prefix is looked for. -/
theorem connections_of_mem_targets
    (h : m.getTargets draws caches avoid prefixes = .ok targets) (hmem : iid ∈ targets) :
    connections caches iid ≤ Tracking.State.bound m prefixes := by
  have hbelow : connections caches iid < m.concurrency →
      connections caches iid ≤ Tracking.State.bound m prefixes := by
    intro hlt
    unfold Tracking.State.bound
    split <;> omega
  obtain ⟨-, heq⟩ | ⟨minCount, hmin, ⟨-, detail, heq⟩ | ⟨-, -, heq⟩ |
    ⟨hlt, l, cached, targets', hcached, hfirst, hrouted, heq⟩⟩ :=
    getTargets_cases m draws caches avoid prefixes
  · obtain rfl := Except.ok.inj (heq.symm.trans h)
    cases hmem
  · rw [heq] at h
    cases h
  · obtain rfl := Except.ok.inj (heq.symm.trans h)
    exact hbelow ((grouped_available.byCount.2 iid).1 hmem).2
  · obtain rfl := Except.ok.inj (heq.symm.trans h)
    obtain ⟨sorted, rest, rfl, -, hperm, -, havailable, -, hrest⟩ :=
      handlePrefixRouting_eq_some hcached hrouted
    obtain hmem | hmem := List.mem_append.1 hmem
    · -- an instance that was put first has at most two more than the fewest
      have hsorted := List.mem_of_mem_take hmem
      have hsome : prefixes.isSome := by
        rcases prefixes with _ | l'
        · -- without prefixes none is put first
          have hnone : m.favoured draws caches avoid none = [] := by
            unfold favoured
            split <;> rfl
          rw [hnone] at hfirst
          rw [← hfirst] at hperm
          rw [hperm.eq_nil] at hsorted
          cases hsorted
        · rfl
      have hclose := (List.mem_filter.1 (hperm.mem_iff.1 hsorted)).2
      rw [get?_counts nodup_available (havailable iid hsorted), Option.getD_some,
        decide_eq_true_eq] at hclose
      rw [Tracking.State.bound, if_pos hsome]
      omega
    · exact hbelow ((hrest iid).1 hmem).1.2

end LeastConnManager

namespace Tracking

open State

/-! ## Counting entries -/

section Count

variable {d : Dict String ℤ} {lo lo' hi : ℚ} {k : String} {v : ℤ}

/-- The members with a score over `lo`. -/
def countOver (d : Dict String ℤ) (lo : ℚ) : ℕ := (d.items.filter fun e => lo < e.2).length

theorem countOver_mono (h : lo' ≤ lo) : countOver d lo ≤ countOver d lo' := by
  refine List.Sublist.length_le (List.monotone_filter_right _ fun e he => ?_)
  simp only [decide_eq_true_eq] at he ⊢
  exact h.trans_lt he

theorem countOver_filter (p : String × ℤ → Bool) : countOver (d.filter p) lo ≤ countOver d lo :=
  ((List.filter_sublist).filter _).length_le

theorem countOver_set : countOver (d.set k v) lo ≤ countOver d lo + 1 := by
  have hnd : ((d.set k v).items.filter fun e => lo < e.2).Nodup :=
    ((d.set k v).nodup.of_map _).filter _
  have hsub : ((d.set k v).items.filter fun e => lo < e.2) ⊆
      (k, v) :: d.items.filter fun e => lo < e.2 := by
    intro e he
    obtain ⟨hmem, hp⟩ := List.mem_filter.1 he
    obtain rfl | ⟨hmem, -⟩ := Dict.mem_items_set.1 hmem
    · exact List.mem_cons_self
    · exact List.mem_cons_of_mem _ (List.mem_filter.2 ⟨hmem, hp⟩)
  exact (List.Nodup.subperm hnd hsub).length_le

/-- What is young is counted up to `hi`, or over it. -/
theorem countOver_le : countOver d lo ≤ d.countAbove lo hi + countOver d hi := by
  unfold countOver Dict.countAbove
  induction d.items with
  | nil => exact Nat.zero_le _
  | cons e l ih =>
    simp only [List.filter_cons, decide_eq_true_eq]
    by_cases hlo : lo < e.2
    · by_cases hhi : (e.2 : ℚ) ≤ hi
      · simp only [if_pos hlo, if_pos (And.intro hlo hhi), if_neg (not_lt.2 hhi), List.length_cons]
        omega
      · simp only [if_pos hlo, if_neg fun h : lo < (e.2 : ℚ) ∧ (e.2 : ℚ) ≤ hi => hhi h.2,
          if_pos (not_le.1 hhi), List.length_cons]
        omega
    · simp only [if_neg hlo, if_neg fun h : lo < (e.2 : ℚ) ∧ (e.2 : ℚ) ≤ hi => hlo h.1]
      split_ifs
      · rw [List.length_cons]
        omega
      · exact ih

end Count

/-! ## The invariant -/

/-- **The invariant.** Redis covers what is registered; what is registered is
what the requests hold; and since a request looked, an instance got no more
connections than were registered. -/
structure Inv (s : State) : Prop where
  covers : s.redis.Covers connectionExpiry s.now s.registered
  held : ∀ iid c st, (s.registered iid).get? c = some st ↔
    ∃ q l, s.request c = some q ∧ q.routed = some (iid, l) ∧ q.held = some st
  unrouted : ∀ c q, s.request c = some q → q.routed = none → q.held = none
  started : ∀ c q, s.request c = some q → q.started ≤ s.now
  looked : ∀ c q, s.request c = some q → ∀ iid,
    countOver (s.registered iid) q.started + q.mark iid ≤ s.total iid
  admitted : ∀ c q iid b, s.request c = some q → q.routed = some (iid, some b) →
    countOver (s.registered iid) (s.now - connectionExpiry) + q.mark iid ≤ b + s.total iid

variable {s s' : State} {as : List Action}

theorem inv_init (h : system.init s) : Inv s := by
  obtain ⟨hredis, hregistered, htotal, hrequest⟩ := h
  refine ⟨?_, fun iid c st => ?_, fun c q hq => ?_, fun c q hq => ?_, fun c q hq => ?_,
    fun c q iid b hq => ?_⟩
  · rw [hredis, hregistered]
    exact SortedSets.covers_empty
  · simp [hregistered, hrequest]
  all_goals
    rw [hrequest] at hq
    cases hq

theorem Inv.tick {d : ℚ} (h : Inv s) (hd : 0 ≤ d) : Inv { s with now := s.now + d } := by
  have hle : s.now ≤ s.now + d := by linarith
  refine ⟨h.covers.tick hle, h.held, h.unrouted, fun c q hq => (h.started c q hq).trans hle,
    h.looked, fun c q iid b hq hrouted => ?_⟩
  have hmono : countOver (s.registered iid) (s.now + d - connectionExpiry) ≤
      countOver (s.registered iid) (s.now - connectionExpiry) := countOver_mono (by linarith)
  have := h.admitted c q iid b hq hrouted
  simp only
  omega

/-- A request looks at the counts: nothing has been registered since. -/
theorem Inv.look {c : String} (h : Inv s) (hc : s.request c = none) :
    Inv (s.putRequest c ⟨s.now, s.total, none, false, false, none⟩) := by
  refine ⟨h.covers, fun iid c' st => ?_, fun c' q hq hrouted => ?_, fun c' q hq => ?_,
    fun c' q hq iid => ?_, fun c' q iid b hq hrouted => ?_⟩
  · rw [show (s.putRequest c _).registered iid = s.registered iid from rfl, h.held]
    simp only [putRequest]
    rcases eq_or_ne c' c with rfl | hne
    · simp [hc]
    · rw [Function.update_of_ne hne]
  all_goals
    simp only [putRequest] at hq ⊢
    obtain ⟨rfl, hnew⟩ | ⟨-, hq⟩ := of_update_eq_some hq
  · rw [← Option.some.inj hnew]
  · exact h.unrouted c' q hq hrouted
  · rw [← Option.some.inj hnew]
  · exact h.started c' q hq
  · rw [← Option.some.inj hnew]
    have hnone : countOver (s.registered iid) s.now = 0 := by
      rw [countOver, List.length_eq_zero_iff, List.filter_eq_nil_iff]
      intro e he
      simpa using h.covers.past iid e.1 e.2 (Dict.get?_eq_some.2 he)
    simp only
    omega
  · exact h.looked c' q hq iid
  · rw [← Option.some.inj hnew] at hrouted
    cases hrouted
  · exact h.admitted c' q iid b hq hrouted

/-- **What selecting a target did.** -/
theorem route_eq_some {c : String} {answered : Bool} {m : LeastConnManager} {draws : Draws}
    {hasPrefix : String → Option (String → Bool)} {avoid : List String}
    {prefixes : Option (List (ℕ × String))} {q : Request}
    (h : s.route c answered m draws hasPrefix avoid prefixes q = some s') :
    ∃ iid rest,
      m.getTargets draws ⟨if answered then some (s.zcount q.started) else none, hasPrefix⟩ avoid
        prefixes = .ok (iid :: rest) ∧
      s' = s.putRequest c
        { q with routed := some (iid, if answered then some (bound m prefixes) else none) } := by
  simp only [State.route] at h
  rcases htargets : m.getTargets draws
    ⟨if answered then some (s.zcount q.started) else none, hasPrefix⟩ avoid prefixes with
    e | _ | ⟨iid, rest⟩
  · simp [htargets] at h
  · simp [htargets] at h
  · simp only [htargets, Option.some.injEq] at h
    exact ⟨iid, rest, rfl, h.symm⟩

/-- A target is selected. What is young there was counted when the request
looked, or has been registered since. -/
theorem Inv.route {c : String} {answered : Bool} {m : LeastConnManager} {draws : Draws}
    {hasPrefix : String → Option (String → Bool)} {avoid : List String}
    {prefixes : Option (List (ℕ × String))} {q : Request} (h : Inv s) (hc : s.request c = some q)
    (hunrouted : q.routed = none)
    (hs : s.route c answered m draws hasPrefix avoid prefixes q = some s') : Inv s' := by
  obtain ⟨iid, rest, htargets, rfl⟩ := route_eq_some hs
  refine ⟨h.covers, fun iid' c' st => ?_, fun c' q' hq hrouted => ?_, fun c' q' hq => ?_,
    fun c' q' hq iid' => ?_, fun c' q' iid' b hq hrouted => ?_⟩
  · rw [show (s.putRequest c _).registered iid' = s.registered iid' from rfl, h.held]
    simp only [putRequest]
    rcases eq_or_ne c' c with rfl | hne
    · simp [hc, hunrouted, h.unrouted c' q hc hunrouted]
    · rw [Function.update_of_ne hne]
  all_goals
    simp only [putRequest] at hq ⊢
    obtain ⟨rfl, hnew⟩ | ⟨-, hq⟩ := of_update_eq_some hq
  · rw [← Option.some.inj hnew] at hrouted
    cases hrouted
  · exact h.unrouted c' q' hq hrouted
  · rw [← Option.some.inj hnew]
    exact h.started c' q hc
  · exact h.started c' q' hq
  · rw [← Option.some.inj hnew]
    exact h.looked c' q hc iid'
  · exact h.looked c' q' hq iid'
  · rw [← Option.some.inj hnew] at hrouted ⊢
    obtain ⟨rfl, hb⟩ := Prod.mk.inj (Option.some.inj hrouted)
    rcases answered with _ | _
    · cases hb
    · obtain rfl := Option.some.inj hb
      have hcount : s.zcount q.started iid ≤ bound m prefixes :=
        LeastConnManager.connections_of_mem_targets htargets List.mem_cons_self
      have hstarted := h.started c' q hc
      have hyoung : (s.registered iid).countAbove (s.now - connectionExpiry) q.started ≤
          s.zcount q.started iid := h.covers.le_count iid (by linarith)
      have hsplit : countOver (s.registered iid) (s.now - connectionExpiry) ≤
          (s.registered iid).countAbove (s.now - connectionExpiry) q.started +
            countOver (s.registered iid) q.started := countOver_le
      have hlooked := h.looked c' q hc iid
      simp only
      omega
  · exact h.admitted c' q' iid' b hq hrouted

/-- **A request moves on at its target.** Its own entry becomes what it
holds, the other entries stay, and there are no more new connections than
new registrations. -/
theorem Inv.move {c iid : String} {l : Option ℕ} {q q' : Request}
    {redis : SortedSets String String} {registered : String → Dict String ℤ} {total : String → ℕ}
    (h : Inv s) (hc : s.request c = some q) (hrouted : q.routed = some (iid, l))
    (hq' : q'.started = q.started ∧ q'.mark = q.mark ∧ q'.routed = q.routed)
    (hcovers : redis.Covers connectionExpiry s.now registered)
    (hheld : ∀ iid' c' st, (registered iid').get? c' = some st ↔
      if iid' = iid ∧ c' = c then q'.held = some st else (s.registered iid').get? c' = some st)
    (hgrow : ∀ iid' lo, countOver (registered iid') lo + s.total iid' ≤
      countOver (s.registered iid') lo + total iid') :
    Inv { s with
      redis := redis
      registered := registered
      total := total
      request := Function.update s.request c (some q') } := by
  obtain ⟨hstarted, hmark, hsame⟩ := hq'
  refine ⟨hcovers, fun iid' c' st => ?_, fun c' p hp hnone => ?_, fun c' p hp => ?_,
    fun c' p hp iid' => ?_, fun c' p iid' b hp hp' => ?_⟩
  · simp only [hheld]
    rcases eq_or_ne c' c with rfl | hne
    · have hself : (∃ p l', Function.update s.request c' (some q') c' = some p ∧
          p.routed = some (iid', l') ∧ p.held = some st) ↔ iid' = iid ∧ q'.held = some st := by
        simp [hsame, hrouted, eq_comm]
      rw [hself, h.held]
      split_ifs with hiid
      · simp [hiid.1]
      · simp only [and_true] at hiid
        simp [hc, hrouted, hiid, Ne.symm hiid]
    · simp only [hne, and_false, if_false, Function.update_of_ne hne, h.held]
  all_goals
    simp only at hp ⊢
    obtain ⟨rfl, hnew⟩ | ⟨-, hp⟩ := of_update_eq_some hp
  · rw [← Option.some.inj hnew, hsame, hrouted] at hnone
    cases hnone
  · exact h.unrouted c' p hp hnone
  · rw [← Option.some.inj hnew, hstarted]
    exact h.started c' q hc
  · exact h.started c' p hp
  · rw [← Option.some.inj hnew, hstarted, hmark]
    have := h.looked c' q hc iid'
    have := hgrow iid' q.started
    omega
  · have := h.looked c' p hp iid'
    have := hgrow iid' p.started
    omega
  · rw [← Option.some.inj hnew] at hp' ⊢
    rw [hsame] at hp'
    rw [hmark]
    have := h.admitted c' q iid' b hc hp'
    have := hgrow iid' (s.now - connectionExpiry)
    omega
  · have := h.admitted c' p iid' b hp hp'
    have := hgrow iid' (s.now - connectionExpiry)
    omega

theorem Inv.add {c iid : String} {l : Option ℕ} {t : ℚ} {q : Request} (h : Inv s)
    (hc : s.request c = some q) (hrouted : q.routed = some (iid, l)) (ht : t ≤ s.now) :
    Inv (s.addConnection c iid ⌊t⌋ q) := by
  have hscore : ((⌊t⌋ : ℤ) : ℚ) ≤ s.now := (Int.floor_le t).trans ht
  refine h.move hc hrouted ⟨rfl, rfl, rfl⟩ (h.covers.add hscore) (fun iid' c' st => ?_)
    fun iid' lo => ?_
  · rcases eq_or_ne iid' iid with rfl | hne
    · rw [Function.update_self, Dict.get?_set]
      simp only [true_and]
      split_ifs <;> rfl
    · rw [Function.update_of_ne hne, if_neg fun hand => hne hand.1]
  · rcases eq_or_ne iid' iid with rfl | hne
    · rw [Function.update_self, Function.update_self]
      have hset : countOver ((s.registered iid').set c ⌊t⌋) lo ≤
          countOver (s.registered iid') lo + 1 := countOver_set
      omega
    · rw [Function.update_of_ne hne, Function.update_of_ne hne]

/-- The members that are purged are old. -/
theorem le_of_mem_old {redis : SortedSets String String} {iid c : String} {cutoff : ℚ} {st : ℤ}
    (h : c ∈ redis.old iid cutoff) (hst : (redis.sets iid).get? c = some st) :
    (st : ℚ) ≤ cutoff := by
  obtain ⟨⟨c', st'⟩, he, rfl⟩ := List.mem_map.1 h
  obtain ⟨hmem, hp⟩ := List.mem_filter.1 he
  rw [Dict.get?_eq_some.2 hmem] at hst
  obtain rfl := Option.some.inj hst
  exact (of_decide_eq_true hp).2

theorem mem_old_of_mem_oldest {redis : SortedSets String String} {iid c : String} {cutoff : ℚ}
    (h : c ∈ oldest redis iid cutoff) : c ∈ redis.old iid cutoff := by
  obtain ⟨e, he, rfl⟩ := List.mem_map.1 h
  exact List.mem_map_of_mem ((List.perm_insertionSort _ _).mem_iff.1 he)

theorem Inv.remove {c iid : String} {l : Option ℕ} {t : ℚ} {q : Request} (h : Inv s)
    (hc : s.request c = some q) (hrouted : q.routed = some (iid, l)) (ht : t ≤ s.now) :
    Inv (s.removeConnection c iid ⌊t⌋ q) := by
  have hfloor : ((⌊t⌋ : ℤ) : ℚ) ≤ s.now := (Int.floor_le t).trans ht
  have hold : ∀ m ∈ (oldest (s.redis.remove iid [c]) iid (⌊t⌋ - connectionExpiry)).take 10,
      ∀ st, ((s.redis.remove iid [c]).sets iid).get? m = some st →
        (st : ℚ) ≤ s.now - connectionExpiry := by
    intro m hm st hst
    have := le_of_mem_old (mem_old_of_mem_oldest (List.mem_of_mem_take hm)) hst
    linarith
  refine h.move hc hrouted ⟨rfl, rfl, rfl⟩ (h.covers.remove.purge hold) (fun iid' c' st => ?_)
    fun iid' lo => ?_
  · rcases eq_or_ne iid' iid with rfl | hne
    · rw [Function.update_self, SortedSets.get?_without]
      split_ifs with hsame
      · simp [hsame.2]
      · have hne : c' ≠ c := fun heq => hsame ⟨rfl, heq⟩
        simp [hne]
    · rw [Function.update_of_ne hne, if_neg fun hand => hne hand.1]
  · rcases eq_or_ne iid' iid with rfl | hne
    · rw [Function.update_self]
      exact Nat.add_le_add_right (countOver_filter _) _
    · rw [Function.update_of_ne hne]

/-- **The step lemma.** -/
theorem Inv.step {a : Action} (h : Inv s) (hs : step s a = some s') : Inv s' := by
  cases a with
  | tick d =>
    simp only [Tracking.step, Option.ite_none_right_eq_some, Option.some.injEq] at hs
    obtain ⟨hd, rfl⟩ := hs
    exact h.tick hd
  | look c =>
    simp only [Tracking.step] at hs
    split at hs
    · next hc =>
      obtain rfl := Option.some.inj hs
      exact h.look hc
    · cases hs
  | route c answered m draws hasPrefix avoid prefixes =>
    simp only [Tracking.step] at hs
    split at hs
    · next q hc =>
      split_ifs at hs with hrouted
      exact h.route hc hrouted hs
    · cases hs
  | add c t =>
    simp only [Tracking.step] at hs
    split at hs
    · next q hc =>
      split at hs
      · next iid l hrouted =>
        split_ifs at hs with hguard
        obtain rfl := Option.some.inj hs
        exact h.add hc hrouted hguard.2.2
      · cases hs
    · cases hs
  | remove c t =>
    simp only [Tracking.step] at hs
    split at hs
    · next q hc =>
      split at hs
      · next iid l hrouted =>
        split_ifs at hs with hguard
        obtain rfl := Option.some.inj hs
        exact h.remove hc hrouted hguard.2.2
      · cases hs
    · cases hs
  | cleanup iid t =>
    simp only [Tracking.step, Option.ite_none_right_eq_some, Option.some.injEq] at hs
    obtain ⟨ht, rfl⟩ := hs
    refine ⟨h.covers.purge fun m hm st hst => ?_, h.held, h.unrouted, h.started, h.looked,
      h.admitted⟩
    have := le_of_mem_old hm hst
    linarith
  | lapse iid =>
    simp only [Tracking.step] at hs
    split at hs
    · next e he =>
      split_ifs at hs with hlt
      obtain rfl := Option.some.inj hs
      exact ⟨h.covers.lapse he hlt, h.held, h.unrouted, h.started, h.looked, h.admitted⟩
    · cases hs

theorem inv_of_run (h : system.Run as s) : Inv s :=
  h.invariant (fun _ => inv_init) fun _ _ _ hi _ hs => hi.step hs

/-! ## What is counted -/

/-- **Connections are counted.** In every run, what is registered for an
instance is what the requests hold there; and what Redis counts over the ten
minutes before a time read earlier is between what is registered within the
last ten minutes and what is registered within those. -/
theorem counts (h : system.Run as s) (iid : String) :
    (∀ c st, (s.registered iid).get? c = some st ↔
      ∃ q l, s.request c = some q ∧ q.routed = some (iid, l) ∧ q.held = some st) ∧
    ∀ t, t ≤ s.now →
      (s.registered iid).countAbove (s.now - connectionExpiry) t ≤ s.zcount t iid ∧
        s.zcount t iid ≤ (s.registered iid).countBetween (t - connectionExpiry) t := by
  have hinv := inv_of_run h
  refine ⟨hinv.held iid, fun t ht => ⟨hinv.covers.le_count iid (by linarith), ?_⟩⟩
  exact hinv.covers.count_le iid _ _

/-! ### A request on its way -/

/-- One instance that takes one connection. -/
def oneInstance : LeastConnManager := ⟨"chute", ["a"], 1, by decide⟩

def noDraws : Draws where
  shuffle _ l := l
  prefixAware := false
  setOrder l := l
  shuffle_perm _ l := .refl l
  setOrder_perm l := .refl l

def start : State := ⟨1000, .empty, fun _ => .empty, fun _ => 0, fun _ => none⟩

/-- A request looks, is sent to the instance and registers. -/
def oneRequest : List Action :=
  [.look "c", .route "c" true oneInstance noDraws (fun _ => none) [] none, .tick 2, .add "c" 1002]

def afterOne : State := (system.exec start oneRequest).getD start

theorem run_oneRequest : system.Run oneRequest afterOne :=
  Lts.run_getD_exec (t := start) ⟨rfl, rfl, rfl, rfl⟩ (by decide +kernel)

theorem counts_oneRequest :
    (∀ c st, (afterOne.registered "a").get? c = some st ↔
      ∃ q l, afterOne.request c = some q ∧ q.routed = some ("a", l) ∧ q.held = some st) ∧
    ∀ t, t ≤ afterOne.now →
      (afterOne.registered "a").countAbove (afterOne.now - connectionExpiry) t ≤
          afterOne.zcount t "a" ∧
        afterOne.zcount t "a" ≤ (afterOne.registered "a").countBetween (t - connectionExpiry) t :=
  counts run_oneRequest "a"

/-- **Instances are not overrun.** In every run, where a request has been
sent to an instance by the counts, the connections registered there within
the last ten minutes are at most those it was told there might be, and the
ones registered since it looked. -/
theorem admitted (h : system.Run as s) {c iid : String} {q : Request} {b : ℕ}
    (hc : s.request c = some q) (hrouted : q.routed = some (iid, some b)) :
    (s.registered iid).countAbove (s.now - connectionExpiry) s.now ≤
      b + (s.total iid - q.mark iid) := by
  have hinv := inv_of_run h
  have hle := hinv.admitted c q iid b hc hrouted
  have hmark := hinv.looked c q hc iid
  have habove : (s.registered iid).countAbove (s.now - connectionExpiry) s.now ≤
      countOver (s.registered iid) (s.now - connectionExpiry) := by
    refine List.Sublist.length_le (List.monotone_filter_right _ fun e he => ?_)
    simp only [decide_eq_true_eq] at he ⊢
    exact he.1
  omega

theorem admitted_oneRequest :
    ∃ q, afterOne.request "c" = some q ∧
      (afterOne.registered "a").countAbove (afterOne.now - connectionExpiry) afterOne.now ≤
        0 + (afterOne.total "a" - q.mark "a") := by
  have hrouted : (afterOne.request "c").map Request.routed = some (some ("a", some 0)) := by
    decide +kernel
  obtain ⟨q, hq, hroute⟩ := Option.map_eq_some_iff.1 hrouted
  exact ⟨q, hq, admitted run_oneRequest hq hroute⟩

end Tracking

end ChutesApi
