import ChutesApi.Common.Dict
import ChutesApi.Common.Lts
/-!
# Socket sessions and the hotkeys they belong to

The socket server keeps a map from sessions to hotkeys and one back, and
sends a broadcast with recipients to the sessions the second map names.
`inStep_iff` says which runs of connections, authentications and
disconnections keep the two maps in step with the sessions that are there.
-/

namespace ChutesApi

namespace Socket

/-- The two maps of `sio`. -/
structure Server where
  sessionMap : Dict String String
  reverseMap : Dict String String
  deriving DecidableEq

namespace Server

variable (sio : Server) (sessionId : String)

/-- **`disconnect`.** -/
def disconnect : Server :=
  match sio.sessionMap.get? sessionId with
  | none => sio
  | some hotkey =>
    { sessionMap := sio.sessionMap.pop sessionId, reverseMap := sio.reverseMap.pop hotkey }

/-- **`authenticate`**, given the hotkey that was verified, if any, and
whether the session is still connected: a refused session is disconnected,
which runs its handler if it is there. -/
def authenticate (connected : Bool) : Option String → Server × Bool
  | some hotkey =>
    ({ sessionMap := sio.sessionMap.set sessionId hotkey
       reverseMap := sio.reverseMap.set hotkey sessionId }, true)
  | none => (if connected then sio.disconnect sessionId else sio, false)

/-- **`RedisListener._listen`**, for one message: the sessions it is sent to,
in turn, or none where it goes to everybody. -/
def listen (filterRecipients : Option (List String)) : Option (List String) :=
  filterRecipients.map fun sendTo => sendTo.filterMap sio.reverseMap.get?

end Server

/-! ## Runs -/

/-- What happens to a session. An authentication happens when its handler
has its answer, which may be after the session is gone. -/
inductive Event
  | connect (sessionId : String)
  | authenticate (sessionId : String) (verified : Option String)
  | disconnect (sessionId : String)
  deriving DecidableEq

/-- The server with its sessions: those that are connected, those that ever
were, and the hotkey each one last proved to hold. -/
structure World where
  sio : Server
  live : List String
  known : List String
  proved : Dict String String
  deriving DecidableEq

namespace World

/-- The server has just started. -/
def start : World := ⟨⟨.empty, .empty⟩, [], [], .empty⟩

/-- The end of a session, with its handler. -/
def leave (w : World) (sessionId : String) : World :=
  { w with sio := w.sio.disconnect sessionId, live := w.live.filter (· ≠ sessionId) }

def step (w : World) : Event → Option World
  | .connect sessionId =>
    if sessionId ∈ w.known then none
    else some { w with live := sessionId :: w.live, known := sessionId :: w.known }
  | .authenticate sessionId (some hotkey) =>
    if sessionId ∈ w.known then
      some { w with
        sio := (w.sio.authenticate sessionId (sessionId ∈ w.live) (some hotkey)).1
        proved := w.proved.set sessionId hotkey }
    else none
  | .authenticate sessionId none =>
    if sessionId ∈ w.known then
      some { w with
        sio := (w.sio.authenticate sessionId (sessionId ∈ w.live) none).1
        live := w.live.filter (· ≠ sessionId) }
    else none
  | .disconnect sessionId => if sessionId ∈ w.live then some (w.leave sessionId) else none

/-- A session is connected and authenticated as a hotkey. -/
def Authenticated (w : World) (sessionId hotkey : String) : Prop :=
  sessionId ∈ w.live ∧ w.proved.get? sessionId = some hotkey

instance (w : World) (sessionId hotkey : String) : Decidable (w.Authenticated sessionId hotkey) :=
  inferInstanceAs (Decidable (_ ∧ _))

/-- **The maps agree with the sessions and with each other.** -/
structure Agree (w : World) : Prop where
  /-- A hotkey with a session is mapped to one of its sessions. -/
  mapped : ∀ sessionId hotkey, w.Authenticated sessionId hotkey →
    ∃ other, w.sio.reverseMap.get? hotkey = some other ∧ w.Authenticated other hotkey
  /-- A hotkey is mapped to nothing else. -/
  owned : ∀ hotkey sessionId, w.sio.reverseMap.get? hotkey = some sessionId →
    w.Authenticated sessionId hotkey
  /-- The session a hotkey is mapped to is mapped to the hotkey. -/
  inverse : ∀ hotkey sessionId, w.sio.reverseMap.get? hotkey = some sessionId →
    w.sio.sessionMap.get? sessionId = some hotkey
  /-- A hotkey some session is mapped to is mapped. -/
  listed : ∀ sessionId hotkey, w.sio.sessionMap.get? sessionId = some hotkey →
    ∃ other, w.sio.reverseMap.get? hotkey = some other

/-- A message for some hotkeys reaches each of them that is connected. -/
def Reaches (w : World) : Prop :=
  ∀ sendTo rooms, w.sio.listen (some sendTo) = some rooms → ∀ hotkey ∈ sendTo, ∀ sessionId,
    w.Authenticated sessionId hotkey → ∃ other ∈ rooms, w.Authenticated other hotkey

/-- The maps agree, and broadcasts arrive. -/
def InStep (w : World) : Prop := w.Agree ∧ w.Reaches

/-- No other session is authenticated as what this one is. -/
def Sole (w : World) (sessionId : String) : Prop :=
  ∀ hotkey, w.proved.get? sessionId = some hotkey →
    ∀ other, w.Authenticated other hotkey → other = sessionId

/-- **The condition on an event.** A session leaves, or is refused and so
leaves, while no other session of its hotkey is there; and a session that
is authenticated is still there, and no other hotkey is mapped to it. -/
def Clean (w : World) : Event → Prop
  | .connect _ => True
  | .authenticate sessionId (some hotkey) =>
    sessionId ∈ w.live ∧
      ∀ former, w.sio.reverseMap.get? former = some sessionId → former = hotkey
  | .authenticate sessionId none => sessionId ∈ w.live → w.Sole sessionId
  | .disconnect sessionId => w.Sole sessionId

/-- What else holds along a run whose maps agree: the session map lists
sessions that are there, with the hotkeys they proved. -/
structure Tracked (w : World) : Prop where
  known : ∀ sessionId ∈ w.live, sessionId ∈ w.known
  proved : ∀ sessionId hotkey, w.proved.get? sessionId = some hotkey → sessionId ∈ w.known
  live : ∀ sessionId hotkey, w.sio.sessionMap.get? sessionId = some hotkey → sessionId ∈ w.live
  same : ∀ sessionId ∈ w.live, w.sio.sessionMap.get? sessionId = w.proved.get? sessionId

variable {w w' : World} {sessionId other hotkey : String}

/-! ## Broadcasts -/

/-- **Where the maps agree, a broadcast reaches every recipient that is
connected.** -/
theorem Agree.reaches (h : w.Agree) : w.Reaches := by
  intro sendTo rooms hrooms hotkey hmem sessionId hauth
  obtain rfl := Option.some.inj hrooms
  obtain ⟨other, hother, hauth'⟩ := h.mapped sessionId hotkey hauth
  exact ⟨other, List.mem_filterMap.2 ⟨hotkey, hmem, hother⟩, hauth'⟩

theorem inStep_iff_agree : w.InStep ↔ w.Agree :=
  ⟨fun h => h.1, fun h => ⟨h, h.reaches⟩⟩

/-! ## A session connects -/

theorem authenticated_connect (ht : w.Tracked) (hnew : sessionId ∉ w.known) :
    Authenticated { w with live := sessionId :: w.live, known := sessionId :: w.known } other
      hotkey ↔ w.Authenticated other hotkey := by
  simp only [Authenticated, List.mem_cons]
  refine and_congr_left fun hp => ⟨fun h => h.resolve_left ?_, .inr⟩
  rintro rfl
  exact hnew (ht.proved _ _ hp)

theorem agree_connect (ht : w.Tracked) (hnew : sessionId ∉ w.known) :
    Agree { w with live := sessionId :: w.live, known := sessionId :: w.known } ↔ w.Agree := by
  have hiff := @authenticated_connect w
  constructor
  · intro h
    exact ⟨by simpa only [hiff ht hnew] using h.mapped, by simpa only [hiff ht hnew] using h.owned,
      h.inverse, h.listed⟩
  · intro h
    exact ⟨by simpa only [hiff ht hnew] using h.mapped, by simpa only [hiff ht hnew] using h.owned,
      h.inverse, h.listed⟩

/-! ## A session leaves -/

theorem authenticated_leave : (w.leave sessionId).Authenticated other hotkey ↔
    w.Authenticated other hotkey ∧ other ≠ sessionId := by
  simp only [Authenticated, leave, List.mem_filter, decide_eq_true_eq]
  tauto

/-- A session that proved nothing leaves the maps as they are. -/
theorem disconnect_of_none (h : w.sio.sessionMap.get? sessionId = none) :
    w.sio.disconnect sessionId = w.sio := by
  simp [Server.disconnect, h]

theorem disconnect_of_some (h : w.sio.sessionMap.get? sessionId = some hotkey) :
    w.sio.disconnect sessionId =
      ⟨w.sio.sessionMap.pop sessionId, w.sio.reverseMap.pop hotkey⟩ := by
  simp [Server.disconnect, h]

/-- **A session may leave exactly when it is the only one of its hotkey**:
the handler drops the hotkey whichever session it is mapped to. -/
theorem agree_leave (ht : w.Tracked) (ha : w.Agree) (hlive : sessionId ∈ w.live) :
    (w.leave sessionId).Agree ↔ w.Sole sessionId := by
  rcases hs : w.sio.sessionMap.get? sessionId with _ | hotkey
  · have hproved : w.proved.get? sessionId = none := by rw [← ht.same sessionId hlive, hs]
    have hne : ∀ {other hotkey}, w.Authenticated other hotkey → other ≠ sessionId := by
      rintro other hotkey h rfl
      rw [h.2] at hproved
      cases hproved
    have hsio : (w.leave sessionId).sio = w.sio := disconnect_of_none hs
    refine iff_of_true ⟨fun s h hauth => ?_, fun h s hget => ?_, ?_, ?_⟩ fun h hp => ?_
    · obtain ⟨s', hget, hauth'⟩ := ha.mapped s h (authenticated_leave.1 hauth).1
      exact ⟨s', by rwa [hsio], authenticated_leave.2 ⟨hauth', hne hauth'⟩⟩
    · rw [hsio] at hget
      exact authenticated_leave.2 ⟨ha.owned h s hget, hne (ha.owned h s hget)⟩
    · rw [hsio]
      exact ha.inverse
    · rw [hsio]
      exact ha.listed
    · rw [hproved] at hp
      cases hp
  · have hproved : w.proved.get? sessionId = some hotkey := by rw [← ht.same sessionId hlive, hs]
    have hsio : (w.leave sessionId).sio = ⟨_, _⟩ := disconnect_of_some hs
    constructor
    · -- Another session of the hotkey would be left without an entry.
      intro h hotkey' hp other hother
      obtain rfl := Option.some.inj (hproved.symm.trans hp)
      by_contra hne
      obtain ⟨s', hget, -⟩ := h.mapped other hotkey (authenticated_leave.2 ⟨hother, hne⟩)
      rw [hsio, Dict.get?_pop, if_pos rfl] at hget
      cases hget
    · intro hsole
      -- What belongs to another hotkey belongs to another session.
      have hne : ∀ {other h}, w.Authenticated other h → h ≠ hotkey → other ≠ sessionId := by
        rintro other h hauth hh rfl
        exact hh (Option.some.inj (hauth.2.symm.trans hproved))
      have hother : ∀ {other h}, w.Authenticated other h → other ≠ sessionId → h ≠ hotkey := by
        rintro other h hauth hleft rfl
        exact hleft (hsole h hproved other hauth)
      refine ⟨fun s h hauth => ?_, fun h s hget => ?_, fun h s hget => ?_, fun s h hget => ?_⟩
      · obtain ⟨hauth, hs⟩ := authenticated_leave.1 hauth
        have hh := hother hauth hs
        obtain ⟨s', hget, hauth'⟩ := ha.mapped s h hauth
        exact ⟨s', by rw [hsio, Dict.get?_pop, if_neg hh, hget],
          authenticated_leave.2 ⟨hauth', hne hauth' hh⟩⟩
      · rw [hsio, Dict.get?_pop] at hget
        split at hget
        · cases hget
        · next hh => exact authenticated_leave.2 ⟨ha.owned h s hget, hne (ha.owned h s hget) hh⟩
      · rw [hsio, Dict.get?_pop] at hget
        split at hget
        · cases hget
        · next hh =>
          rw [hsio, Dict.get?_pop, if_neg (hne (ha.owned h s hget) hh)]
          exact ha.inverse h s hget
      · rw [hsio, Dict.get?_pop] at hget
        split at hget
        · cases hget
        · next hs' =>
          have hauth : w.Authenticated s h :=
            ⟨ht.live s h hget, by rw [← ht.same s (ht.live s h hget), hget]⟩
          obtain ⟨s', hget'⟩ := ha.listed s h hget
          exact ⟨s', by rw [hsio, Dict.get?_pop, if_neg (hother hauth hs'), hget']⟩

/-! ## A session is authenticated -/

/-- The world after a session proved a hotkey. -/
def prove (w : World) (sessionId hotkey : String) : World :=
  { w with
    sio := ⟨w.sio.sessionMap.set sessionId hotkey, w.sio.reverseMap.set hotkey sessionId⟩
    proved := w.proved.set sessionId hotkey }

theorem authenticated_prove_self {former : String} :
    (w.prove sessionId hotkey).Authenticated sessionId former ↔
      sessionId ∈ w.live ∧ former = hotkey := by
  simp [Authenticated, prove, Dict.get?_set, eq_comm]

theorem authenticated_prove_of_ne {former : String} (h : other ≠ sessionId) :
    (w.prove sessionId hotkey).Authenticated other former ↔ w.Authenticated other former := by
  simp [Authenticated, prove, Dict.get?_set, h]

theorem reverseMap_prove {former : String} :
    (w.prove sessionId hotkey).sio.reverseMap.get? former =
      if former = hotkey then some sessionId else w.sio.reverseMap.get? former :=
  Dict.get?_set

theorem sessionMap_prove :
    (w.prove sessionId hotkey).sio.sessionMap.get? other =
      if other = sessionId then some hotkey else w.sio.sessionMap.get? other :=
  Dict.get?_set

/-- **A session may prove a hotkey exactly when it is still there and no other
hotkey is mapped to it**: the handler leaves a former hotkey's entry. -/
theorem agree_prove (ha : w.Agree) : (w.prove sessionId hotkey).Agree ↔
    w.Clean (.authenticate sessionId (some hotkey)) := by
  constructor
  · intro h
    have hself := h.owned hotkey sessionId (by rw [reverseMap_prove, if_pos rfl])
    refine ⟨hself.1, fun former hget => ?_⟩
    by_contra hne
    have hstale := h.owned former sessionId (by rw [reverseMap_prove, if_neg hne, hget])
    exact hne (authenticated_prove_self.1 hstale).2
  · rintro ⟨hlive, hclean⟩
    -- The sessions of the other hotkeys are other sessions.
    have hne : ∀ {former s}, former ≠ hotkey → w.sio.reverseMap.get? former = some s →
        s ≠ sessionId := by
      rintro former s hh hget rfl
      exact hh (hclean former hget)
    refine ⟨fun s h hauth => ?_, fun h s hget => ?_, fun h s hget => ?_, fun s h hget => ?_⟩
    · by_cases hh : h = hotkey
      · exact ⟨sessionId, by rw [reverseMap_prove, if_pos hh],
          authenticated_prove_self.2 ⟨hlive, hh⟩⟩
      · have hs : s ≠ sessionId := by
          rintro rfl
          exact hh (authenticated_prove_self.1 hauth).2
        obtain ⟨s', hget, hauth'⟩ := ha.mapped s h ((authenticated_prove_of_ne hs).1 hauth)
        exact ⟨s', by rw [reverseMap_prove, if_neg hh, hget],
          (authenticated_prove_of_ne (hne hh hget)).2 hauth'⟩
    · rw [reverseMap_prove] at hget
      split at hget
      · next hh =>
        obtain rfl := Option.some.inj hget
        exact authenticated_prove_self.2 ⟨hlive, hh⟩
      · next hh => exact (authenticated_prove_of_ne (hne hh hget)).2 (ha.owned h s hget)
    · rw [reverseMap_prove] at hget
      rw [sessionMap_prove]
      split at hget
      · next hh =>
        obtain rfl := Option.some.inj hget
        rw [if_pos rfl, hh]
      · next hh => rw [if_neg (hne hh hget), ha.inverse h s hget]
    · rw [sessionMap_prove] at hget
      rw [reverseMap_prove]
      split
      · exact ⟨sessionId, rfl⟩
      · next hh =>
        split at hget
        · exact absurd (Option.some.inj hget).symm hh
        · exact ha.listed s h hget

end World

/-- The server and its sessions as a system. -/
def system : Lts World Event := ⟨(· = .start), World.step⟩

open World

variable {w w' : World} {e : Event}

/-- **What an event did**: a session came, proved a hotkey or left, or a
session that was already gone was refused. -/
theorem step_cases (h : system.step w e = some w') :
    (∃ sessionId, e = .connect sessionId ∧ sessionId ∉ w.known ∧
      w' = { w with live := sessionId :: w.live, known := sessionId :: w.known }) ∨
    (∃ sessionId hotkey, e = .authenticate sessionId (some hotkey) ∧ sessionId ∈ w.known ∧
      w' = w.prove sessionId hotkey) ∨
    (∃ sessionId, (e = .authenticate sessionId none ∨ e = .disconnect sessionId) ∧
      sessionId ∈ w.live ∧ w' = w.leave sessionId) ∨
    ∃ sessionId, e = .authenticate sessionId none ∧ sessionId ∉ w.live ∧ w' = w := by
  change World.step w e = some w' at h
  cases e with
  | connect sessionId =>
    simp only [World.step] at h
    split at h
    · cases h
    · next hnew => exact .inl ⟨sessionId, rfl, hnew, (Option.some.inj h).symm⟩
  | authenticate sessionId verified =>
    cases verified with
    | some hotkey =>
      simp only [World.step] at h
      split at h
      · next hknown =>
        exact .inr (.inl ⟨sessionId, hotkey, rfl, hknown, (Option.some.inj h).symm⟩)
      · cases h
    | none =>
      simp only [World.step] at h
      split at h
      · obtain rfl := Option.some.inj h
        by_cases hlive : sessionId ∈ w.live
        · refine .inr (.inr (.inl ⟨sessionId, .inl rfl, hlive, ?_⟩))
          simp [Server.authenticate, leave, hlive]
        · refine .inr (.inr (.inr ⟨sessionId, rfl, hlive, ?_⟩))
          have hlive' : w.live.filter (· ≠ sessionId) = w.live :=
            List.filter_eq_self.2 fun s hs => by
              simp only [ne_eq, decide_not, Bool.not_eq_true', decide_eq_false_iff_not]
              rintro rfl
              exact hlive hs
          simp only [Server.authenticate, hlive, hlive', decide_false, Bool.false_eq_true,
            if_false]
      · cases h
  | disconnect sessionId =>
    simp only [World.step] at h
    split at h
    · next hlive =>
      exact .inr (.inr (.inl ⟨sessionId, .inr rfl, hlive, (Option.some.inj h).symm⟩))
    · cases h

/-- **An event leaves the maps in step exactly when it is clean.** -/
theorem inStep_step (ht : w.Tracked) (hs : w.InStep) (h : system.step w e = some w') :
    w'.InStep ↔ w.Clean e := by
  rw [inStep_iff_agree]
  rcases step_cases h with ⟨s, rfl, hnew, rfl⟩ | ⟨s, hotkey, rfl, -, rfl⟩ |
    ⟨s, rfl | rfl, hlive, rfl⟩ | ⟨s, rfl, hgone, rfl⟩
  · exact iff_of_true ((agree_connect ht hnew).2 hs.1) trivial
  · exact agree_prove hs.1
  · exact (agree_leave ht hs.1 hlive).trans ⟨fun h _ => h, fun h => h hlive⟩
  · exact agree_leave ht hs.1 hlive
  · exact iff_of_true hs.1 fun hlive => absurd hlive hgone

/-- The session map stays a list of the sessions that are there. -/
theorem tracked_step (ht : w.Tracked) (h : system.step w e = some w') (hs : w'.InStep) :
    w'.Tracked := by
  rcases step_cases h with ⟨s, rfl, hnew, rfl⟩ | ⟨s, hotkey, rfl, hknown, rfl⟩ |
    ⟨s, -, -, rfl⟩ | ⟨s, rfl, -, rfl⟩
  · have hmap : w.sio.sessionMap.get? s = none :=
      Option.eq_none_iff_forall_ne_some.2 fun h hget => hnew (ht.known s (ht.live s h hget))
    have hproved : w.proved.get? s = none :=
      Option.eq_none_iff_forall_ne_some.2 fun h hget => hnew (ht.proved s h hget)
    refine ⟨fun t hin => ?_, fun t h hp => List.mem_cons_of_mem _ (ht.proved t h hp),
      fun t h hget => List.mem_cons_of_mem _ (ht.live t h hget), fun t hin => ?_⟩
    · rcases List.mem_cons.1 hin with rfl | hin
      · exact List.mem_cons_self
      · exact List.mem_cons_of_mem _ (ht.known t hin)
    · rcases List.mem_cons.1 hin with rfl | hin
      · rw [hmap, hproved]
      · exact ht.same t hin
  · -- The maps agree again, so the session is still there.
    have hlive : s ∈ w.live := (hs.1.owned hotkey s (by rw [reverseMap_prove, if_pos rfl])).1
    refine ⟨ht.known, fun t h hp => ?_, fun t h hget => ?_, fun t hin => ?_⟩
    · rw [prove, Dict.get?_set] at hp
      split at hp
      · next hts => exact hts ▸ hknown
      · exact ht.proved t h hp
    · rw [sessionMap_prove] at hget
      split at hget
      · next hts => exact hts ▸ hlive
      · exact ht.live t h hget
    · rw [sessionMap_prove, prove, Dict.get?_set]
      split
      · rfl
      · exact ht.same t hin
  · have hleft : ∀ t, t ∈ (w.leave s).live ↔ t ∈ w.live ∧ t ≠ s := by simp [leave]
    have hget : ∀ t ≠ s, (w.leave s).sio.sessionMap.get? t = w.sio.sessionMap.get? t := by
      intro t hts
      simp only [leave, Server.disconnect]
      split
      · rfl
      · rw [Dict.get?_pop, if_neg hts]
    have hgone : (w.leave s).sio.sessionMap.get? s = none := by
      simp only [leave, Server.disconnect]
      split
      · assumption
      · rw [Dict.get?_pop, if_pos rfl]
    refine ⟨fun t hin => ht.known t ((hleft t).1 hin).1, ht.proved, fun t h hmap => ?_,
      fun t hin => ?_⟩
    · have hts : t ≠ s := by
        rintro rfl
        rw [hgone] at hmap
        cases hmap
      exact (hleft t).2 ⟨ht.live t h (by rw [← hget t hts, hmap]), hts⟩
    · rw [hget t ((hleft t).1 hin).2]
      exact ht.same t ((hleft t).1 hin).1
  · exact ht

theorem tracked_start : World.start.Tracked :=
  ⟨by simp [start], by simp [start], by simp [start], by simp [start]⟩

theorem inStep_start : World.start.InStep :=
  inStep_iff_agree.2 ⟨by simp [start, Authenticated], by simp [start], by simp [start],
    by simp [start]⟩

/-- **In a run, the maps agree and broadcasts arrive after every event exactly
when every event is clean.** -/
theorem inStep_iff {events : List Event} (h : system.exec .start events = some w) :
    (∀ before u, before <+: events → system.exec .start before = some u → u.InStep) ↔
      system.Meets Clean .start events :=
  Lts.forall_prefix_iff_meets (fun _ _ _ ht _ hs hstep => tracked_step ht hs hstep)
    (fun _ _ _ ht hstep hs => inStep_step ht hstep hs) tracked_start inStep_start h

/-- Two sessions of different hotkeys, one of which leaves. -/
theorem inStep_iff_two :
    let events : List Event := [.connect "s1", .connect "s2", .authenticate "s1" (some "5A"),
      .authenticate "s2" (some "5B"), .disconnect "s1"]
    (∀ before u, before <+: events → system.exec .start before = some u → u.InStep) ↔
      system.Meets Clean .start events :=
  inStep_iff (w := ⟨⟨.ofList [("s2", "5B")], .ofList [("5B", "s2")]⟩, ["s2"], ["s2", "s1"],
    .ofList [("s1", "5A"), ("s2", "5B")]⟩) (by decide)

/-- **The maps do not always agree**: a miner whose new session authenticates
before its old one is closed is reached by no broadcast. -/
theorem not_inStep : ¬ ∀ events w, system.exec .start events = some w → w.InStep := by
  intro h
  have hstep := h [.connect "s1", .authenticate "s1" (some "5A"), .connect "s2",
    .authenticate "s2" (some "5A"), .disconnect "s1"] _ rfl
  obtain ⟨other, hother, -⟩ := hstep.1.mapped "s2" "5A" (by decide)
  revert hother
  rw [show Dict.get? _ "5A" = none from rfl]
  exact fun hother => by cases hother

end Socket

end ChutesApi
