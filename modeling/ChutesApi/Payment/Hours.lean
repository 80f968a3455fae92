import ChutesApi.Payment.Model.Hours
/-!
# Whether usage is in real hours

The timestamp of a hash is that of the last event that sets it, and zero
where none does: the credit of an owner does not. `real_iff_meets` says which
runs have every row in the hour of an event that is in it: those whose
passes commit only hashes that are stamped, but for the first hour there is.
-/

namespace ChutesApi

namespace Hours

open Usage

variable {τ : Type*}

/-! ## The rows and their events -/

/-- What is written for a key in a bucket. -/
def Write.At (w : Write) (k : Key) (bucket : ℕ) : Prop :=
  (w.row.userId, w.row.chuteId) = k ∧ w.row.bucket = bucket

instance (w : Write) (k : Key) (bucket : ℕ) : Decidable (w.At k bucket) := by
  unfold Write.At; infer_instance

/-- **The events that contribute to a row.** -/
def contributors (writes : List Write) (k : Key) (bucket : ℕ) : List Event :=
  (writes.filter fun w => w.At k bucket).flatMap Write.events

/-- **Every row is in the hour of an event that contributes to it.** -/
def Real (s : State τ) : Prop :=
  ∀ r ∈ s.usageData, ∃ e ∈ contributors s.writes (r.userId, r.chuteId) r.bucket,
    hourBucket e.time = r.bucket

/-- One of its events set the timestamp. -/
def Read.Stamped (r : Read) : Prop := ∃ e ∈ r.events, e.Stamps r.key

instance (r : Read) : Decidable r.Stamped := by unfold Read.Stamped; infer_instance

variable (users : UserId → Option User)

/-- **The guard.** A pass commits only hashes, of users who exist, that an
event has stamped, or where an event of the first hour there is contributes
to the same row. -/
def Timely (s : State τ) : Action τ → Prop
  | .commit t => ∀ p ∈ s.passes t, ∀ r ∈ p.reads, (users r.key.1).isSome → r.Stamped ∨
      ∃ e ∈ contributors (s.writes ++ p.reads.filterMap (Read.write users)) r.key 0, e.time < 3600
  | _ => True

/-! ## The timestamp of a hash -/

/-- The time of the last event that stamps a key, or zero. -/
def stampTime (k : Key) (events : List Event) : ℕ :=
  (((events.filter fun e => e.Stamps k).getLast?).map Event.time).getD 0

variable {users} {k : Key} {e : Event} {events : List Event} {redis : Redis}

theorem stampTime_append_singleton : stampTime k (events ++ [e]) =
    if e.Stamps k then e.time else stampTime k events := by
  unfold stampTime
  by_cases h : e.Stamps k
  · simp [h]
  · simp [h]

/-- Where some event stamps it, it is the time of one that does. -/
theorem exists_of_stamped (h : ∃ e ∈ events, e.Stamps k) :
    ∃ e ∈ events, e.time = stampTime k events := by
  obtain ⟨e, he, hstamps⟩ := h
  have hmem : e ∈ events.filter fun e => e.Stamps k :=
    List.mem_filter.2 ⟨he, decide_eq_true hstamps⟩
  have hne := List.ne_nil_of_mem hmem
  have hlast := List.getLast?_eq_some_getLast hne
  refine ⟨_, List.mem_of_mem_filter (List.getLast_mem hne), ?_⟩
  rw [stampTime, hlast]
  rfl

theorem stampTime_of_not (h : ¬ ∃ e ∈ events, e.Stamps k) : stampTime k events = 0 := by
  have hnil : (events.filter fun e => e.Stamps k) = [] := by
    rw [List.filter_eq_nil_iff]
    intro e he hstamps
    exact h ⟨e, he, of_decide_eq_true hstamps⟩
  rw [stampTime, hnil]
  rfl

/-- What an event sets a timestamp to is its time. -/
theorem timestamp_eq_time {c : Increment} (hc : c ∈ e.increments) {t : ℕ}
    (ht : c.timestamp = some t) : t = e.time := by
  cases e with
  | invocation i =>
    change c ∈ i.increments at hc
    unfold Invocation.increments at hc
    rcases List.mem_cons.1 hc with rfl | hc
    · exact (Option.some.inj ht).symm
    · split at hc
      · split_ifs at hc
        · rw [List.mem_singleton] at hc
          rw [hc] at ht
          cases ht
        · cases hc
      · cases hc
  | deployment f =>
    change c ∈ f.increments at hc
    unfold DeploymentFee.increments at hc
    split_ifs at hc
    · rw [List.mem_singleton] at hc
      rw [hc] at ht
      exact (Option.some.inj ht).symm
    · cases hc

theorem timestamp_increment (redis : Redis) (c : Increment) (k : Key) :
    ((redis.increment c).hgetall k).timestamp =
      if c.key = k then c.timestamp.getD (redis.hgetall k).timestamp
      else (redis.hgetall k).timestamp := by
  unfold Redis.increment
  split_ifs with hk
  · subst hk
    simp [Redis.hgetall]
  · simp [Redis.hgetall, Function.update_of_ne (Ne.symm hk)]

/-- Commands that set no other timestamp than this. -/
theorem timestamp_foldl {t : ℕ} {cs : List Increment}
    (h : ∀ c ∈ cs, ∀ t', c.timestamp = some t' → t' = t) (redis : Redis) (k : Key) :
    ((cs.foldl Redis.increment redis).hgetall k).timestamp =
      if ∃ c ∈ cs, c.key = k ∧ c.timestamp.isSome then t else (redis.hgetall k).timestamp := by
  induction cs generalizing redis with
  | nil => simp
  | cons c cs ih =>
    rw [List.foldl_cons, ih fun c hc => h c (List.mem_cons_of_mem _ hc), timestamp_increment]
    by_cases hrest : ∃ c ∈ cs, c.key = k ∧ c.timestamp.isSome
    -- a later command sets it
    · have hall : ∃ c' ∈ c :: cs, c'.key = k ∧ c'.timestamp.isSome :=
        List.exists_mem_cons_of_exists hrest
      rw [if_pos hrest, if_pos hall]
    -- otherwise this one decides
    · rw [if_neg hrest]
      by_cases hk : c.key = k
      · cases htime : c.timestamp with
        | none =>
          have hnone : ¬ ∃ c' ∈ c :: cs, c'.key = k ∧ c'.timestamp.isSome := by
            rw [List.exists_mem_cons_iff, htime]
            rintro (⟨-, h⟩ | h)
            · cases h
            · exact hrest h
          rw [if_pos hk, if_neg hnone]
          rfl
        | some t' =>
          have hall : ∃ c' ∈ c :: cs, c'.key = k ∧ c'.timestamp.isSome :=
            ⟨c, List.mem_cons_self, hk, by simp [htime]⟩
          rw [if_pos hk, if_pos hall]
          exact h c List.mem_cons_self t' htime
      · have hnone : ¬ ∃ c' ∈ c :: cs, c'.key = k ∧ c'.timestamp.isSome := by
          rw [List.exists_mem_cons_iff]
          rintro (⟨h, -⟩ | h)
          · exact hk h
          · exact hrest h
        rw [if_neg hk, if_neg hnone]

/-- **The pipeline of an event** sets the timestamps to its time. -/
theorem timestamp_event (e : Event) (redis : Redis) (k : Key) :
    ((e.increments.foldl Redis.increment redis).hgetall k).timestamp =
      if e.Stamps k then e.time else (redis.hgetall k).timestamp :=
  timestamp_foldl (fun _ hc _ => timestamp_eq_time hc) redis k

/-! ## What a step does -/

variable [DecidableEq τ]

/-- What a pass comes to have read: what it had, and a hash with its events. -/
def Follows (s : State τ) (t : τ) (p' : Option Pass) : Prop :=
  ∀ p ∈ p', ∀ r ∈ p.reads, (∃ q, s.passes t = some q ∧ r ∈ q.reads) ∨
    ∃ k, r = ⟨k, s.redis.hgetall k, s.pending k⟩

/-- **What a step can do**: an event goes to Redis, a pass moves on, it
deletes the keys it has read, or writes their rows. -/
inductive Stepped (users : UserId → Option User) (s : State τ) : Action τ → State τ → Prop
  | event (e : Event) : Stepped users s (.event e) { s with
      redis := e.increments.foldl Redis.increment s.redis
      pending := fun k => s.pending k ++ if e.Adds k then [e] else [] }
  | pass {a : Action τ} {t : τ} {p' : Option Pass} (ha : ∀ u, a ≠ .commit u)
      (hp' : Follows s t p') :
      Stepped users s a { s with passes := Function.update s.passes t p' }
  | delete {t : τ} {p : Pass} (hp : s.passes t = some p) : Stepped users s (.delete t) { s with
      redis := s.redis.delete (p.reads.map Read.key)
      pending := fun k => if k ∈ p.reads.map Read.key then [] else s.pending k
      passes := Function.update s.passes t (some ⟨[], p.reads, .deleted⟩) }
  | commit {t : τ} {p : Pass} (hp : s.passes t = some p) : Stepped users s (.commit t) { s with
      usageData := (p.reads.map fun r => (r.key, r.hash)).foldl (insertUsage users) s.usageData
      passes := Function.update s.passes t none
      writes := s.writes ++ p.reads.filterMap (Read.write users) }

omit [DecidableEq τ] in
theorem follows_of_reads {s : State τ} {t : τ} {q : Pass} (hq : s.passes t = some q)
    {todo : List Key} {stage : Stage} : Follows s t (some ⟨todo, q.reads, stage⟩) := by
  intro p hp r hr
  obtain rfl := Option.some.inj hp
  exact Or.inl ⟨q, hq, hr⟩

theorem stepped {s s' : State τ} {a : Action τ} (h : (system users τ).step s a = some s') :
    Stepped users s a s' := by
  cases a with
  | event e =>
    obtain rfl := Option.some.inj h
    exact .event e
  | begin t =>
    simp only [system, Hours.step] at h
    split_ifs at h
    obtain rfl := Option.some.inj h
    refine .pass (fun _ => nofun) fun p hp r hr => ?_
    obtain rfl := Option.some.inj hp
    cases hr
  | scan t keys =>
    simp only [system, Hours.step] at h
    split at h
    · next hpass =>
      split_ifs at h
      obtain rfl := Option.some.inj h
      exact .pass (fun _ => nofun) (follows_of_reads hpass)
    · cases h
  | listed t =>
    simp only [system, Hours.step] at h
    split at h
    · next hpass =>
      obtain rfl := Option.some.inj h
      exact .pass (fun _ => nofun) (follows_of_reads hpass)
    · cases h
  | read t =>
    simp only [system, Hours.step] at h
    split at h
    · next k todo reads hpass =>
      obtain rfl := Option.some.inj h
      refine .pass (fun _ => nofun) fun p hp r hr => ?_
      obtain rfl := Option.some.inj hp
      rcases List.mem_append.1 hr with hr | hr
      · exact Or.inl ⟨_, hpass, hr⟩
      · exact Or.inr ⟨k, List.mem_singleton.1 hr⟩
    · cases h
  | delete t =>
    simp only [system, Hours.step] at h
    split at h
    · next hpass =>
      obtain rfl := Option.some.inj h
      exact .delete hpass
    · cases h
  | commit t =>
    simp only [system, Hours.step] at h
    split at h
    · next hpass =>
      obtain rfl := Option.some.inj h
      exact .commit hpass
    · cases h
  | abandon t =>
    obtain rfl := Option.some.inj h
    exact .pass (fun _ => nofun) fun p hp => nomatch hp

/-! ## What holds along a run -/

/-- The timestamps are those of the events, in Redis and in what is read. -/
structure Stamps (s : State τ) : Prop where
  redis : ∀ k, (s.redis.hgetall k).timestamp = stampTime k (s.pending k)
  reads : ∀ t p, s.passes t = some p → ∀ r ∈ p.reads,
    r.hash.timestamp = stampTime r.key r.events
  rows : ∀ k bucket, (∃ r ∈ s.usageData, (r.userId, r.chuteId) = k ∧ r.bucket = bucket) ↔
    ∃ w ∈ s.writes, w.At k bucket

/-- The rows of a table after an upsert. -/
theorem mem_upsert (row : UsageData) (rows : List UsageData) (k : Key) (bucket : ℕ) :
    (∃ r ∈ upsert row rows, (r.userId, r.chuteId) = k ∧ r.bucket = bucket) ↔
      (∃ r ∈ rows, (r.userId, r.chuteId) = k ∧ r.bucket = bucket) ∨
        ((row.userId, row.chuteId) = k ∧ row.bucket = bucket) := by
  induction rows with
  | nil => simp [upsert]
  | cons r rows ih =>
    unfold upsert
    split_ifs with h
    · obtain ⟨huser, hchute, hbucket⟩ := h
      rw [List.exists_mem_cons_iff, List.exists_mem_cons_iff]
      dsimp only
      rw [← huser, ← hchute, ← hbucket]
      exact (or_iff_left_of_imp Or.inl).symm
    · rw [List.exists_mem_cons_iff, List.exists_mem_cons_iff, ih, or_assoc]

/-- A commit writes the rows of what it has read. -/
theorem mem_insertUsage (reads : List Read) (rows : List UsageData) (k : Key) (bucket : ℕ) :
    (∃ r ∈ (reads.map fun r => (r.key, r.hash)).foldl (insertUsage users) rows,
        (r.userId, r.chuteId) = k ∧ r.bucket = bucket) ↔
      (∃ r ∈ rows, (r.userId, r.chuteId) = k ∧ r.bucket = bucket) ∨
        ∃ w ∈ reads.filterMap (Read.write users), w.At k bucket := by
  induction reads generalizing rows with
  | nil => simp
  | cons read reads ih =>
    rw [List.map_cons, List.foldl_cons, ih]
    unfold insertUsage
    by_cases hsome : (users read.key.1).isSome = true
    · have hwrite : read.write users = some ⟨⟨read.key.1, hourBucket read.hash.timestamp,
          read.key.2, read.hash.value⟩, read.events⟩ := if_pos hsome
      rw [if_pos hsome, mem_upsert, List.filterMap_cons_some hwrite, List.exists_mem_cons_iff,
        or_assoc]
      rfl
    · have hwrite : read.write users = none := if_neg hsome
      rw [if_neg hsome, List.filterMap_cons_none hwrite]

theorem stamps_init {s : State τ} (h : (system users τ).init s) : Stamps s ∧ Real s := by
  obtain rfl := h
  refine ⟨⟨fun k => rfl, fun t p hp => ?_, fun k bucket => ?_⟩, fun r hr => ?_⟩
  · cases hp
  · simp
  · cases hr

/-- A pass whose reads follow what the stores have. -/
theorem Stamps.reads_update {s : State τ} (hs : Stamps s) {t : τ} {p' : Option Pass}
    (hp' : Follows s t p') : ∀ u p, Function.update s.passes t p' u = some p → ∀ r ∈ p.reads,
      r.hash.timestamp = stampTime r.key r.events := by
  intro u p hp r hr
  by_cases hu : u = t
  · subst hu
    rw [Function.update_self] at hp
    rcases hp' p hp r hr with ⟨q, hq, hr⟩ | ⟨k, rfl⟩
    · exact hs.reads u q hq r hr
    · exact hs.redis k
  · rw [Function.update_of_ne hu] at hp
    exact hs.reads u p hp r hr

/-- **Every step keeps the timestamps.** -/
theorem Stamps.step {s s' : State τ} {a : Action τ} (hs : Stamps s)
    (h : (system users τ).step s a = some s') : Stamps s' := by
  cases stepped h with
  | event e =>
    refine ⟨fun k => ?_, hs.reads, hs.rows⟩
    rw [timestamp_event, hs.redis k]
    dsimp only
    by_cases hadds : e.Adds k
    · rw [if_pos hadds, stampTime_append_singleton]
    · have hnot : ¬ e.Stamps k := by
        rintro ⟨c, hc, hk, -⟩
        exact hadds ⟨c, hc, hk⟩
      rw [if_neg hadds, if_neg hnot, List.append_nil]
  | pass _ hp' => exact ⟨hs.redis, hs.reads_update hp', hs.rows⟩
  | delete hp =>
    refine ⟨fun k => ?_, hs.reads_update (follows_of_reads hp), hs.rows⟩
    dsimp only
    split_ifs with hk
    · simp [Redis.hgetall, Redis.delete, hk, Hash.empty, stampTime]
    · rw [← hs.redis k]
      simp [Redis.hgetall, Redis.delete, hk]
  | commit hp =>
    refine ⟨hs.redis, hs.reads_update (fun p hp => by cases hp), fun k bucket => ?_⟩
    rw [mem_insertUsage, hs.rows k bucket]
    simp only [List.mem_append, or_and_right, exists_or]

/-! ## Which runs are in real hours -/

omit [DecidableEq τ] in
/-- By what was written. -/
theorem real_iff_writes {s : State τ} (hs : Stamps s) : Real s ↔ ∀ w ∈ s.writes,
    ∃ e ∈ contributors s.writes (w.row.userId, w.row.chuteId) w.row.bucket,
      hourBucket e.time = w.row.bucket := by
  constructor
  · intro h w hw
    obtain ⟨r, hr, hk, hbucket⟩ := (hs.rows _ _).2 ⟨w, hw, rfl, rfl⟩
    obtain ⟨e, he, hhour⟩ := h r hr
    rw [hk, hbucket] at he
    exact ⟨e, he, hhour.trans hbucket⟩
  · intro h r hr
    obtain ⟨w, hw, hk, hbucket⟩ := (hs.rows _ _).1 ⟨r, hr, rfl, rfl⟩
    obtain ⟨e, he, hhour⟩ := h w hw
    rw [hk, hbucket] at he
    exact ⟨e, he, hhour.trans hbucket⟩

theorem mem_contributors {writes : List Write} {k : Key} {bucket : ℕ} {e : Event} :
    e ∈ contributors writes k bucket ↔ ∃ w ∈ writes, w.At k bucket ∧ e ∈ w.events := by
  simp [contributors, and_assoc]

theorem hourBucket_eq_zero {t : ℕ} : hourBucket t = 0 ↔ t < 3600 := by
  unfold hourBucket
  omega

/-- What a read of a user who exists is written as. -/
theorem write_eq {r : Read} (h : (users r.key.1).isSome) : r.write users =
    some ⟨⟨r.key.1, hourBucket r.hash.timestamp, r.key.2, r.hash.value⟩, r.events⟩ :=
  if_pos h

/-- **A commit** keeps every row in a real hour exactly where it meets the
guard. -/
theorem real_commit_iff {s s' : State τ} {t : τ} (hs : Stamps s) (hreal : Real s)
    (h : (system users τ).step s (.commit t) = some s') :
    Real s' ↔ Timely users s (.commit t) := by
  have hs' := hs.step h
  cases stepped h with
  | pass ha => exact absurd rfl (ha t)
  | commit hpass =>
    have hreads := hs.reads t _ hpass
    rw [real_iff_writes hs']
    dsimp only
    constructor
    · intro hall p hp r hr hsome
      rw [hpass] at hp
      obtain rfl := Option.some.inj hp
      by_cases hstamped : r.Stamped
      · exact Or.inl hstamped
      · -- an hour of a hash that is not stamped is the first
        have hzero : hourBucket r.hash.timestamp = 0 := by
          rw [hreads r hr, stampTime_of_not hstamped]
          rfl
        obtain ⟨e, he, hhour⟩ := hall _ (List.mem_append_right _
          (List.mem_filterMap.2 ⟨r, hr, write_eq hsome⟩))
        dsimp only at he hhour
        rw [hzero] at he hhour
        exact Or.inr ⟨e, he, hourBucket_eq_zero.1 hhour⟩
    · intro hok w hw
      rcases List.mem_append.1 hw with hw | hw
      · obtain ⟨e, he, hhour⟩ := (real_iff_writes hs).1 hreal w hw
        obtain ⟨w', hw', hat, hmem⟩ := mem_contributors.1 he
        exact ⟨e, mem_contributors.2 ⟨w', List.mem_append_left _ hw', hat, hmem⟩, hhour⟩
      · obtain ⟨r, hr, hwrite⟩ := List.mem_filterMap.1 hw
        have hsome : (users r.key.1).isSome := by
          by_contra hnone
          rw [Read.write, if_neg hnone] at hwrite
          cases hwrite
        rw [write_eq hsome] at hwrite
        obtain rfl := Option.some.inj hwrite
        by_cases hstamped : r.Stamped
        · obtain ⟨e, he, htime⟩ := exists_of_stamped hstamped
          refine ⟨e, mem_contributors.2 ⟨_, List.mem_append_right _ hw, ⟨rfl, rfl⟩, he⟩, ?_⟩
          dsimp only
          rw [hreads r hr, htime]
        · have hzero : hourBucket r.hash.timestamp = 0 := by
            rw [hreads r hr, stampTime_of_not hstamped]
            rfl
          obtain ⟨e, he, hfirst⟩ := (hok _ hpass r hr hsome).resolve_left hstamped
          dsimp only
          rw [hzero]
          exact ⟨e, he, hourBucket_eq_zero.2 hfirst⟩

/-- No other step writes a row. -/
theorem step_of_ne_commit {s s' : State τ} {a : Action τ} (ha : ∀ t, a ≠ .commit t)
    (h : (system users τ).step s a = some s') :
    s'.usageData = s.usageData ∧ s'.writes = s.writes := by
  cases stepped h with
  | event e => exact ⟨rfl, rfl⟩
  | pass => exact ⟨rfl, rfl⟩
  | delete => exact ⟨rfl, rfl⟩
  | commit => exact absurd rfl (ha _)

theorem real_step_iff {s s' : State τ} {a : Action τ} (hs : Stamps s) (hreal : Real s)
    (h : (system users τ).step s a = some s') : Real s' ↔ Timely users s a := by
  by_cases ha : ∃ t, a = .commit t
  · obtain ⟨t, rfl⟩ := ha
    exact real_commit_iff hs hreal h
  · have hne : ∀ t, a ≠ .commit t := fun t heq => ha ⟨t, heq⟩
    obtain ⟨hrows, hwrites⟩ := step_of_ne_commit hne h
    have htimely : Timely users s a := by
      unfold Timely
      split
      · next t => exact absurd rfl (hne t)
      · trivial
    refine iff_of_true (fun r hr => ?_) htimely
    rw [hrows] at hr
    rw [hwrites]
    exact hreal r hr

/-- **Usage is in real hours** all along a run exactly where each of its
steps meets the guard. -/
theorem real_iff_meets (users : UserId → Option User) (τ : Type*) [DecidableEq τ]
    (as : List (Action τ)) (s₀ s : State τ) (h0 : (system users τ).init s₀)
    (he : (system users τ).exec s₀ as = some s) :
    (∀ bs u, bs <+: as → (system users τ).exec s₀ bs = some u → Real u) ↔
      (system users τ).Meets (Timely users) s₀ as := by
  obtain ⟨hstamps, hreal⟩ := stamps_init h0
  exact Lts.forall_prefix_iff_meets (J := Stamps) (fun _ _ _ hs _ hstep _ => hs.step hstep)
    (fun _ _ _ hs hp hstep => real_step_iff hs hp hstep) hstamps hreal he

/-! ## A run on each side of the guard -/

instance (s : State τ) : Decidable (Real s) := by unfold Real; infer_instance

instance (users : UserId → Option User) (s : State τ) (a : Action τ) :
    Decidable (Timely users s a) := by
  unfold Timely
  split <;> infer_instance

/-- Everyone exists. -/
private def everyone (userId : UserId) : Option User := some { userId }

/-- A pass of one tracker over these keys. -/
private def passOver (keys : List Key) : List (Action Unit) :=
  [.begin (), .scan () keys, .listed ()] ++ keys.map (fun _ => .read ()) ++ [.delete (), .commit ()]

/-- Stores that are empty. -/
private def emptied : State Unit := ⟨fun _ => none, [], fun _ => none, fun _ => [], []⟩

/-- A deployment, whose fee a pass writes. -/
private def deployed : List (Action Unit) :=
  .event (.deployment ⟨"u", "c", 5, false, 7300⟩) :: passOver [("u", "c")]

theorem real_deployed : ∃ s, (system everyone Unit).exec emptied deployed = some s ∧
    s.usageData.length = 1 ∧
      ∀ bs u, bs <+: deployed → (system everyone Unit).exec emptied bs = some u → Real u :=
  ⟨_, rfl, rfl, (real_iff_meets everyone Unit deployed emptied _ rfl rfl).2 (by decide +kernel)⟩

/-- An invocation of a shared private chute, and a pass over both keys. -/
private def shared : List (Action Unit) :=
  .event (.invocation ⟨"u", "c", 3, none, 7200, some "owner"⟩) ::
    passOver [("u", "c"), ("owner", "c")]

/-- **The owner's row is in the first hour there is.** -/
theorem not_real : ¬ ∀ (users : UserId → Option User) (as : List (Action Unit)) (s : State Unit),
    (system users Unit).Run as s → Real s := by
  intro h
  have hrun : (system everyone Unit).Run shared _ :=
    Lts.reach_of_exec rfl (Lts.meets_of_forall (fun _ _ _ => trivial) _) rfl
  exact absurd (h everyone shared _ hrun) (by decide +kernel)

end Hours

end ChutesApi
