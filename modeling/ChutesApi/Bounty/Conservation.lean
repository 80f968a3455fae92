import ChutesApi.Bounty.Model
import ChutesApi.Common.Custody
/-!
# When bounties are conserved

A bounty is popped from Redis before the row it is for is committed. Popped
once, it is never on two rows; but it is on a row at all only if nothing fails
in between: `conserved_iff` says which runs conserve every bounty.
-/

namespace ChutesApi

namespace Bounty

open Function

/-- The row is inserted and not yet committed as completed or failed. -/
def Phase.Open : Phase → Prop
  | .invoking => True
  | .claimed _ => True
  | .updated _ => True
  | _ => False

/-- Where a claimed bounty may be: with a call, or on a row. -/
inductive Place
  | call (c : ℕ)
  | row (id : ℕ × ℕ)
  deriving DecidableEq

namespace State

variable (s : State)

/-- The bounty at a place. -/
def held : Place → Option ℕ
  | .call c => (s.calls c).hand.map Claimed.number
  | .row id => ((s.rows id).bind Row.claimed).map Claimed.number

/-- A row should be committed as completed. -/
def Good : Place → Prop
  | .call _ => True
  | .row id => ∃ row, s.rows id = some row ∧ row.Complete

/-- **Bounties are conserved**: none is on two rows, and each one that was
removed is still with the call that claimed it, or on a row that is committed
as completed. -/
structure Conserved : Prop where
  once : ∀ id id' row row' b b', s.rows id = some row → s.rows id' = some row' →
    row.claimed = some b → row'.claimed = some b' → b.number = b'.number → id = id'
  recorded : ∀ n ∈ s.removed, (∃ c b, (s.calls c).hand = some b ∧ b.number = n) ∨
    ∃ id row b, s.rows id = some row ∧ row.Complete ∧ row.claimed = some b ∧ b.number = n

/-- **The condition on an event.** No answer of a claim is lost that removed a
bounty, no call that holds one fails or ends before its commit, and no error
is recorded on a row that has one. -/
def Clean : Event → Prop
  | .claim _ _ .lost => s.key = none
  | .raise c _ => (s.calls c).hand = none
  | .leave c => (s.calls c).hand = none
  | .recordError c => (s.rows (s.rowOf c)).bind Row.claimed = none
  | _ => True

instance : DecidablePred s.Clean := fun e => by
  unfold Clean
  split <;> infer_instance

/-- **The rows are those of the attempts.** -/
structure Attempts : Prop where
  /-- There is no row of an attempt to come. -/
  unborn : ∀ c k, (s.calls c).attempt < k ∨
    (s.calls c).attempt = k ∧ (s.calls c).phase = .routing → s.rows (c, k) = none
  /-- The row of an open attempt is as it was inserted. -/
  fresh : ∀ c, (s.calls c).phase.Open → s.rows (s.rowOf c) = some {}

/-- What holds along every run. -/
structure Tracked : Prop where
  custody : Custody s.held s.removed
  created : ∀ n ∈ s.removed, n < s.created
  key : ∀ data, s.key = some data → data.number < s.created ∧ data.number ∉ s.removed
  attempts : s.Attempts

variable {s : State} {c : ℕ} {phase : Phase} {row : Row}

/-! ## Where the bounties are -/

/-- **Bounties are conserved where each one that was removed is kept.** -/
theorem conserved_iff_kept (h : Custody s.held s.removed) :
    s.Conserved ↔ Kept s.held s.Good s.removed := by
  constructor
  · intro hs n hn
    obtain ⟨c, b, hb, rfl⟩ | ⟨id, row, b, hrow, hcomplete, hb, rfl⟩ := hs.recorded n hn
    · exact ⟨.call c, by simp [held, hb], trivial⟩
    · exact ⟨.row id, by simp [held, hrow, hb], row, hrow, hcomplete⟩
  · intro hk
    refine ⟨fun id id' row row' b b' hrow hrow' hb hb' hn => ?_, fun n hn => ?_⟩
    · have hid : s.held (.row id) = some b.number := by simp [held, hrow, hb]
      have hid' : s.held (.row id') = some b.number := by simp [held, hrow', hb', hn]
      exact Place.row.inj (h.unique _ _ _ hid hid')
    · obtain ⟨p, hp, hgood⟩ := hk n hn
      cases p with
      | call c =>
        obtain ⟨b, hb, hbn⟩ := Option.map_eq_some_iff.1 hp
        exact .inl ⟨c, b, hb, hbn⟩
      | row id =>
        obtain ⟨row, hrow, hcomplete⟩ := hgood
        obtain ⟨b, hb, hbn⟩ := Option.map_eq_some_iff.1 hp
        rw [hrow, Option.bind_some] at hb
        exact .inr ⟨id, row, b, hrow, hcomplete, hb, hbn⟩

/-! ## What a step changes -/

theorem held_setPhase : (s.setPhase c phase).held =
    update s.held (.call c) ((Call.hand { s.calls c with phase }).map Claimed.number) := by
  funext p
  cases p with
  | call c' =>
    by_cases h : c' = c
    · subst h
      simp [held, setPhase]
    · simp [held, setPhase, h]
  | row id => simp [held, setPhase]

theorem held_setRow : (s.setRow c row).held =
    update s.held (.row (s.rowOf c)) (row.claimed.map Claimed.number) := by
  funext p
  cases p with
  | call c' => simp [held, setRow]
  | row id =>
    by_cases h : id = s.rowOf c
    · subst h
      simp [held, setRow]
    · simp [held, setRow, h]

theorem good_congr {s' : State} (h : s'.rows = s.rows) : s'.Good = s.Good := by
  funext p
  cases p with
  | call c => rfl
  | row id => simp only [Good, h]

theorem good_setPhase : (s.setPhase c phase).Good = s.Good := good_congr rfl

theorem good_setRow_self : (s.setRow c row).Good (.row (s.rowOf c)) ↔ row.Complete := by
  simp [Good, setRow]

theorem good_setRow_of_ne {p : Place} (h : p ≠ .row (s.rowOf c)) :
    (s.setRow c row).Good p ↔ s.Good p := by
  cases p with
  | call c' => rfl
  | row id =>
    have hid : id ≠ s.rowOf c := fun hid => h (hid ▸ rfl)
    simp [Good, setRow, hid]

/-- A phase that holds what the one before did changes nothing. -/
theorem held_setPhase_of_hand (h : Call.hand { s.calls c with phase } = (s.calls c).hand) :
    (s.setPhase c phase).held = s.held := by
  rw [held_setPhase, h]
  exact update_eq_self _ _

end State

/-! ## The steps -/

/-- **What a step can do**: each event with what it asks of the state, and the
state it leads to. -/
inductive Leads (s : State) : Event → State → Prop
  | create (now : ℚ) : Leads s (.create now) { s with
      key := (createBountyIfNotExists s.key ⟨now, s.created⟩).1
      created := s.created + (createBountyIfNotExists s.key ⟨now, s.created⟩).2.toNat }
  | delete : Leads s .delete { s with key := none }
  | expire : Leads s .expire { s with key := none }
  | track {c : ℕ} (phase : (s.calls c).phase = .routing) :
      Leads s (.track c) ((s.setRow c {}).setPhase c .invoking)
  | claim {c : ℕ} (now : ℚ) (reply : Reply) (phase : (s.calls c).phase = .invoking) :
      Leads s (.claim c now reply) (s.claim c now reply)
  | update {c : ℕ} {b : Option Claimed} (phase : (s.calls c).phase = .claimed b) :
      Leads s (.update c) (s.setPhase c (.updated b))
  | commit {c : ℕ} {b : Option Claimed} (phase : (s.calls c).phase = .updated b) :
      Leads s (.commit c) ((s.complete c b).setPhase c .committed)
  | commitLost {c : ℕ} {b : Option Claimed} (errorMessage : String)
      (phase : (s.calls c).phase = .updated b) :
      Leads s (.commitLost c errorMessage) ((s.complete c b).setPhase c (.failed errorMessage))
  | raise (c : ℕ) (errorMessage : String) :
      Leads s (.raise c errorMessage) (s.setPhase c (.failed errorMessage))
  | recordError {c : ℕ} {errorMessage : String}
      (phase : (s.calls c).phase = .failed errorMessage) :
      Leads s (.recordError c) (s.recordError c errorMessage)
  | leave (c : ℕ) : Leads s (.leave c) (s.setPhase c .ended)

theorem leads_of_step {s s' : State} {e : Event} (h : system.step s e = some s') :
    Leads s e s' := by
  change State.step s e = some s' at h
  cases e <;> simp only [State.step] at h
  case create now | delete | expire =>
    obtain rfl := Option.some.inj h
    constructor
  case track c | claim c now reply =>
    obtain ⟨hphase, h⟩ := Option.ite_none_right_eq_some.1 h
    obtain rfl := Option.some.inj h
    constructor
    exact hphase
  case raise c errorMessage | leave c =>
    obtain ⟨-, h⟩ := Option.ite_none_right_eq_some.1 h
    obtain rfl := Option.some.inj h
    constructor
  all_goals
    split at h
    · next hphase =>
      obtain rfl := Option.some.inj h
      constructor
      exact hphase
    · cases h

/-! ## What an event does to the bounties -/

/-- **What an event comes to**: nothing, a bounty is taken or lost on the way,
a call's is dropped or moved to its row, or a row goes bad. -/
inductive Effect (s : State) (e : Event) (s' : State) : Prop
  | same (held : s'.held = s.held) (removed : s'.removed = s.removed)
      (good : ∀ p t, s.held p = some t → (s'.Good p ↔ s.Good p)) (clean : s.Clean e)
  | taken (c n : ℕ) (held : s'.held = update s.held (.call c) (some n))
      (removed : s'.removed = s.removed ++ [n]) (good : s'.Good = s.Good)
      (empty : s.held (.call c) = none) (new : n ∉ s.removed) (clean : s.Clean e)
  | lost (n : ℕ) (held : s'.held = s.held) (removed : s'.removed = s.removed ++ [n])
      (new : n ∉ s.removed) (clean : ¬s.Clean e)
  | dropped (c : ℕ) (held : s'.held = update s.held (.call c) none)
      (removed : s'.removed = s.removed) (good : s'.Good = s.Good)
      (clean : s.Clean e ↔ s.held (.call c) = none)
  | moved (c : ℕ) (id : ℕ × ℕ)
      (held : s'.held = update (update s.held (.call c) none) (.row id) (s.held (.call c)))
      (removed : s'.removed = s.removed) (empty : s.held (.row id) = none)
      (good : s'.Good (.row id))
      (others : ∀ p, p ≠ .row id → (s'.Good p ↔ s.Good p)) (clean : s.Clean e)
  | spoiled (id : ℕ × ℕ) (held : s'.held = s.held) (removed : s'.removed = s.removed)
      (bad : ¬s'.Good (.row id)) (others : ∀ p, p ≠ .row id → (s'.Good p ↔ s.Good p))
      (clean : s.Clean e ↔ s.held (.row id) = none)

namespace Effect

variable {s s' : State} {e : Event}

/-- A bounty is never at two places. -/
theorem custody (h : Effect s e s') (hc : Custody s.held s.removed) :
    Custody s'.held s'.removed := by
  cases h with
  | same held removed => rwa [held, removed]
  | taken c n held removed _ _ new =>
    rw [held, removed]
    exact hc.take new
  | lost n held removed =>
    rw [held, removed]
    exact hc.mono [n]
  | dropped c held removed =>
    rw [held, removed]
    exact hc.drop
  | moved c id held removed =>
    rw [held, removed]
    exact hc.move
  | spoiled id held removed => rwa [held, removed]

/-- **An event conserves the bounties exactly when it is clean.** -/
theorem kept_iff_clean (h : Effect s e s') (hc : Custody s.held s.removed)
    (hk : Kept s.held s.Good s.removed) : Kept s'.held s'.Good s'.removed ↔ s.Clean e := by
  cases h with
  | same held removed good clean =>
    rw [held, removed]
    exact iff_of_true (hk.mono fun p t hp hgood => (good p t hp).2 hgood) clean
  | taken c n held removed good empty _ clean =>
    rw [held, removed, good]
    exact iff_of_true (hk.take empty trivial) clean
  | lost n held removed new clean =>
    rw [held, removed]
    exact iff_of_false (hc.lost_of_not_mem new) clean
  | dropped c held removed good clean =>
    rw [held, removed, good, clean]
    exact hk.drop_iff hc
  | moved c id held removed empty good others clean =>
    rw [held, removed]
    refine iff_of_true (Kept.move (hk.mono fun p t hp hgood => (others p ?_).2 hgood) empty good)
      clean
    rintro rfl
    rw [empty] at hp
    cases hp
  | spoiled id held removed bad others clean =>
    rw [held, removed, clean]
    exact hk.spoil_iff hc bad others

end Effect

open State

variable {s s' : State} {e : Event}

theorem held_row_of_none {id : ℕ × ℕ} (h : s.rows id = none) : s.held (.row id) = none := by
  simp [held, h]

/-- The row is inserted. -/
theorem effect_track (ht : s.Tracked) {c : ℕ} (hphase : (s.calls c).phase = .routing) :
    Effect s (.track c) ((s.setRow c {}).setPhase c .invoking) := by
  have hrow : s.rows (s.rowOf c) = none := ht.attempts.unborn c _ (.inr ⟨rfl, hphase⟩)
  have hempty := held_row_of_none hrow
  have hinsert : (s.setRow c {}).held = s.held := by
    rw [held_setRow, ← update_eq_self (.row (s.rowOf c)) s.held, hempty]
    simp
  refine .same ?_ rfl (fun p t hp => ?_) trivial
  · rw [held_setPhase_of_hand, hinsert]
    have hcalls : (s.setRow c {}).calls = s.calls := rfl
    simp [Call.hand, hcalls, hphase]
  · rw [good_setPhase]
    refine good_setRow_of_ne ?_
    rintro rfl
    rw [hempty] at hp
    cases hp

/-- The bounty is claimed. -/
theorem effect_claim (ht : s.Tracked) {c : ℕ} (now : ℚ) (reply : Reply)
    (hphase : (s.calls c).phase = .invoking) :
    Effect s (.claim c now reply) (s.claim c now reply) := by
  have hhand : (s.calls c).hand = none := by rw [Call.hand, hphase]
  have hempty : s.held (.call c) = none := by rw [held, hhand, Option.map_none]
  have hnone : (s.setPhase c (.claimed none)).held = s.held :=
    held_setPhase_of_hand hhand.symm
  have hsame : ∀ b p t, s.held p = some t → ((s.setPhase c (.claimed b)).Good p ↔ s.Good p) :=
    fun b p t _ => by rw [good_setPhase]
  rcases hkey : s.key with _ | data
  · have hclaim : s.claim c now reply = s.setPhase c (.claimed none) := by
      cases reply <;> simp [State.claim, claimBounty, hkey, setPhase]
    have hclean : s.Clean (.claim c now reply) := by
      cases reply with
      | lost => exact hkey
      | answered => trivial
      | refused => trivial
    rw [hclaim]
    exact .same hnone rfl (hsame none) hclean
  · obtain ⟨-, hnew⟩ := ht.key data hkey
    cases reply with
    | answered =>
      refine .taken c data.number ?_ ?_ ?_ hempty hnew trivial
      · simp only [State.claim, claimBounty, hkey]
        exact held_setPhase
      · simp [State.claim, claimBounty, hkey]
      · simp only [State.claim, claimBounty, hkey]
        exact good_congr rfl
    | lost =>
      refine .lost data.number ?_ ?_ hnew ?_
      · simp only [State.claim, claimBounty, hkey]
        exact hnone
      · simp [State.claim, claimBounty, hkey]
      · simp [State.Clean, hkey]
    | refused =>
      refine .same ?_ ?_ ?_ trivial
      · simp only [State.claim, claimBounty, hkey]
        exact hnone
      · simp [State.claim, claimBounty, hkey]
      · simp only [State.claim, claimBounty, hkey]
        exact hsame none

/-- The session's update is committed, whether or not the call learns of
it. -/
theorem effect_complete (ht : s.Tracked) {c : ℕ} {b : Option Claimed} {phase : Phase}
    (hphase : (s.calls c).phase = .updated b)
    (hhand : ∀ call : Call, Call.hand { call with phase } = none)
    (hclean : s.Clean e) : Effect s e ((s.complete c b).setPhase c phase) := by
  have hrow : s.rows (s.rowOf c) = some {} := ht.attempts.fresh c (hphase ▸ trivial)
  have hcomplete : s.complete c b = s.setRow c (Row.update {} b) := by
    rw [complete, hrow, Option.getD_some]
  have hheld : s.held (.call c) = b.map Claimed.number := by
    rw [held, Call.hand, hphase]
  rw [hcomplete]
  refine .moved c (s.rowOf c) ?_ rfl ?_ ?_ (fun p hp => ?_) hclean
  · rw [held_setPhase, hhand, held_setRow, hheld, Option.map_none, update_comm (by simp)]
    rfl
  · simp [held, hrow]
  · rw [good_setPhase, good_setRow_self]
    exact ⟨rfl, rfl⟩
  · rw [good_setPhase]
    exact good_setRow_of_ne hp

/-- The error is recorded. -/
theorem effect_recordError {c : ℕ} {errorMessage : String}
    (hphase : (s.calls c).phase = .failed errorMessage) :
    Effect s (.recordError c) (s.recordError c errorMessage) := by
  have hnext : ∀ call : Call, (call.next errorMessage).hand = none := by
    intro call
    unfold Call.next
    split <;> rfl
  have hhand : (s.calls c).hand = none := by rw [Call.hand, hphase]
  refine .spoiled (s.rowOf c) ?_ rfl ?_ (fun p hp => ?_) ?_
  · funext p
    cases p with
    | call c' =>
      by_cases hc : c' = c
      · subst hc
        simp [held, State.recordError, hnext, hhand]
      · simp [held, State.recordError, hc]
    | row id =>
      by_cases hid : id = s.rowOf c
      · subst hid
        rcases hrow : s.rows (s.rowOf c) with _ | row
        · simp [held, State.recordError, setRow, hrow, Row.updateError]
        · simp [held, State.recordError, setRow, hrow, Row.updateError]
      · simp [held, State.recordError, setRow, hid]
  · rintro ⟨row, hrow, -, herror⟩
    simp only [State.recordError, setRow, update_self, Option.some.injEq] at hrow
    rw [← hrow] at herror
    cases herror
  · cases p with
    | call c' => rfl
    | row id =>
      have hid : id ≠ s.rowOf c := fun hid => hp (hid ▸ rfl)
      simp [Good, State.recordError, setRow, hid]
  · rw [held, Option.map_eq_none_iff]
    rfl

/-- **The step lemma.** -/
theorem effect_of_step (ht : s.Tracked) (h : Leads s e s') : Effect s e s' := by
  -- A call that stops where it is drops what it holds.
  have hdrop : ∀ c phase, (∀ call : Call, Call.hand { call with phase } = none) →
      (s.Clean e ↔ (s.calls c).hand = none) → Effect s e (s.setPhase c phase) := by
    intro c phase hhand hclean
    refine .dropped c ?_ rfl good_setPhase ?_
    · rw [held_setPhase, hhand]
      rfl
    · rw [held, Option.map_eq_none_iff, hclean]
  cases h with
  | create now => exact .same rfl rfl (fun _ _ _ => Iff.rfl) trivial
  | delete => exact .same rfl rfl (fun _ _ _ => Iff.rfl) trivial
  | expire => exact .same rfl rfl (fun _ _ _ => Iff.rfl) trivial
  | track hphase => exact effect_track ht hphase
  | claim now reply hphase => exact effect_claim ht now reply hphase
  | @update c b hphase =>
    have hheld : (s.setPhase c (.updated b)).held = s.held :=
      held_setPhase_of_hand (by simp [Call.hand, hphase])
    exact .same hheld rfl (fun p t hp => by rw [good_setPhase]) trivial
  | commit hphase => exact effect_complete ht hphase (fun _ => rfl) trivial
  | commitLost errorMessage hphase => exact effect_complete ht hphase (fun _ => rfl) trivial
  | raise c errorMessage => exact hdrop c _ (fun _ => rfl) Iff.rfl
  | recordError hphase => exact effect_recordError hphase
  | leave c => exact hdrop c _ (fun _ => rfl) Iff.rfl

/-! ## What holds along every run -/

/-- An event that happens to one call. -/
theorem attempts_of_update {c : ℕ} {call : Call} (h : s.Attempts)
    (hcalls : s'.calls = update s.calls c call)
    (hrows : ∀ id, id ≠ s.rowOf c → s'.rows id = s.rows id)
    (hattempt : (s.calls c).attempt ≤ call.attempt)
    (hrouting : call.phase = .routing → (s.calls c).attempt < call.attempt)
    (hopen : call.phase.Open → s'.rows (c, call.attempt) = some {}) : s'.Attempts := by
  refine ⟨fun c' k hk => ?_, fun c' hphase => ?_⟩
  · by_cases hc : c' = c
    · subst hc
      rw [hcalls, update_self] at hk
      have hlt : (s.calls c').attempt < k := by
        obtain hk | ⟨hk, hphase⟩ := hk
        · omega
        · have := hrouting hphase
          omega
      rw [hrows _ fun hid => hlt.ne' (Prod.mk.inj hid).2]
      exact h.unborn c' k (.inl hlt)
    · rw [hcalls, update_of_ne hc] at hk
      rw [hrows _ fun hid => hc (Prod.mk.inj hid).1]
      exact h.unborn c' k hk
  · by_cases hc : c' = c
    · subst hc
      rw [hcalls, update_self] at hphase
      rw [rowOf, hcalls, update_self]
      exact hopen hphase
    · rw [hcalls, update_of_ne hc] at hphase
      rw [rowOf, hcalls, update_of_ne hc, hrows _ fun hid => hc (Prod.mk.inj hid).1]
      exact h.fresh c' hphase

/-- A call that goes on in its attempt, with its row as it was. -/
theorem attempts_setPhase {c : ℕ} {phase : Phase} (h : s.Attempts) (hrouting : phase ≠ .routing)
    (hopen : phase.Open → (s.calls c).phase.Open) : (s.setPhase c phase).Attempts :=
  attempts_of_update h rfl (fun _ _ => rfl) le_rfl (fun hr => absurd hr hrouting)
    fun ho => h.fresh c (hopen ho)

/-- A call whose row is written, and whose attempt is over. -/
theorem attempts_complete {c : ℕ} {b : Option Claimed} {phase : Phase} (h : s.Attempts)
    (hrouting : phase ≠ .routing) (hopen : ¬phase.Open) :
    ((s.complete c b).setPhase c phase).Attempts :=
  attempts_of_update h rfl (fun _ hid => update_of_ne hid _ _) le_rfl
    (fun hr => absurd hr hrouting) fun ho => absurd ho hopen

theorem attempts_step (ht : s.Attempts) (h : Leads s e s') : s'.Attempts := by
  cases h with
  | create now => exact ⟨ht.unborn, ht.fresh⟩
  | delete => exact ⟨ht.unborn, ht.fresh⟩
  | expire => exact ⟨ht.unborn, ht.fresh⟩
  | track hphase =>
    exact attempts_of_update ht rfl (fun id hid => update_of_ne hid _ _) le_rfl
      (fun hr => by cases hr) fun _ => update_self ..
  | @claim c now reply hphase =>
    have hclaimed : (s.setPhase c (.claimed (claimBounty now s.key reply).2)).Attempts :=
      attempts_setPhase ht (by simp) fun _ => hphase ▸ trivial
    exact ⟨hclaimed.unborn, hclaimed.fresh⟩
  | update hphase => exact attempts_setPhase ht (by simp) fun _ => hphase ▸ trivial
  | commit hphase => exact attempts_complete ht (by simp) id
  | commitLost errorMessage hphase => exact attempts_complete ht (by simp) id
  | raise c errorMessage => exact attempts_setPhase ht (by simp) False.elim
  | @recordError c errorMessage hphase =>
    have hnext : (s.calls c).attempt ≤ ((s.calls c).next errorMessage).attempt ∧
        (((s.calls c).next errorMessage).phase = .routing →
          (s.calls c).attempt < ((s.calls c).next errorMessage).attempt) ∧
        ¬((s.calls c).next errorMessage).phase.Open := by
      unfold Call.next
      split
      · exact ⟨Nat.le_succ _, fun _ => Nat.lt_succ_self _, id⟩
      · exact ⟨le_rfl, fun hr => (by cases hr), id⟩
    exact attempts_of_update ht rfl (fun id hid => update_of_ne hid _ _) hnext.1 hnext.2.1
      fun ho => absurd ho hnext.2.2
  | leave c => exact attempts_setPhase ht (by simp) False.elim

/-- What was removed was created before, and is not what is there. -/
theorem created_step (ht : s.Tracked) (h : Leads s e s') :
    (∀ n ∈ s'.removed, n < s'.created) ∧
      ∀ data, s'.key = some data → data.number < s'.created ∧ data.number ∉ s'.removed := by
  have hsame : s'.key = s.key ∨ s'.key = none → s'.created = s.created →
      s'.removed = s.removed → (∀ n ∈ s'.removed, n < s'.created) ∧
        ∀ data, s'.key = some data → data.number < s'.created ∧ data.number ∉ s'.removed := by
    intro hkey hcreated hremoved
    rw [hcreated, hremoved]
    refine ⟨ht.created, fun data hdata => ht.key data ?_⟩
    obtain hkey | hkey := hkey
    · rw [← hkey, hdata]
    · rw [hkey] at hdata
      cases hdata
  cases h with
  | create now =>
    rcases hkey : s.key with _ | data
    · simp only [createBountyIfNotExists, Bool.toNat_true]
      refine ⟨fun n hn => Nat.lt_succ_of_lt (ht.created n hn), fun data hdata => ?_⟩
      obtain rfl := Option.some.inj hdata
      exact ⟨Nat.lt_succ_self _, fun hn => (ht.created _ hn).false⟩
    · simp only [createBountyIfNotExists, Bool.toNat_false, Nat.add_zero]
      exact ⟨ht.created, fun data' hdata => ht.key data' (hkey.trans hdata)⟩
  | delete => exact hsame (.inr rfl) rfl rfl
  | expire => exact hsame (.inr rfl) rfl rfl
  | claim now reply hphase =>
    have hpop : ∀ n ∈ s.removed ++ (s.key.map Data.number).toList, n < s.created := by
      intro n hn
      obtain hn | hn := List.mem_append.1 hn
      · exact ht.created n hn
      · obtain ⟨data, hdata, rfl⟩ := Option.map_eq_some_iff.1 (Option.mem_toList.1 hn)
        exact (ht.key data hdata).1
    cases reply with
    | answered => exact ⟨by simpa [State.claim, claimBounty, setPhase] using hpop, by
        simp [State.claim, claimBounty]⟩
    | lost => exact ⟨by simpa [State.claim, claimBounty, setPhase] using hpop, by
        simp [State.claim, claimBounty]⟩
    | refused =>
      refine hsame (.inl rfl) rfl ?_
      rcases hkey : s.key with _ | data
      · simp [State.claim, claimBounty, setPhase, hkey]
      · simp [State.claim, claimBounty, setPhase, hkey]
  | track | update | commit | commitLost | raise | recordError | leave =>
    exact hsame (.inl rfl) rfl rfl

theorem tracked_step (ht : s.Tracked) (h : system.step s e = some s') : s'.Tracked := by
  have hleads := leads_of_step h
  obtain ⟨hcreated, hkey⟩ := created_step ht hleads
  exact ⟨(effect_of_step ht hleads).custody ht.custody, hcreated, hkey,
    attempts_step ht.attempts hleads⟩

theorem tracked_start : State.Tracked {} := by
  refine ⟨⟨fun p q t hp => ?_, fun p t hp => ?_⟩, by simp, by simp, fun c k _ => rfl, ?_⟩
  · cases p <;> cases hp
  · cases p <;> cases hp
  · exact fun c hphase => hphase.elim

theorem conserved_start : State.Conserved {} :=
  ⟨fun id id' row row' b b' hrow => (by cases hrow), by simp⟩

/-- **An event conserves the bounties exactly when it is clean.** -/
theorem conserved_step (ht : s.Tracked) (hs : s.Conserved) (h : system.step s e = some s') :
    s'.Conserved ↔ s.Clean e := by
  rw [conserved_iff_kept (tracked_step ht h).custody]
  exact (effect_of_step ht (leads_of_step h)).kept_iff_clean ht.custody
    ((conserved_iff_kept ht.custody).1 hs)

/-- **In a run, bounties are conserved after every event exactly when every
event is clean.** -/
theorem conserved_iff {events : List Event} (h : system.exec {} events = some s) :
    (∀ before u, before <+: events → system.exec {} before = some u → u.Conserved) ↔
      system.Meets Clean {} events :=
  Lts.forall_prefix_iff_meets (fun _ _ _ ht _ hstep _ => tracked_step ht hstep)
    (fun _ _ _ ht hs hstep => conserved_step ht hs hstep) tracked_start conserved_start h

/-- A bounty that is claimed by the second attempt, whose commit nothing
prevents. -/
theorem conserved_iff_second :
    let events : List Event := [.create 0, .track 0, .raise 0 "RATE_LIMIT", .recordError 0,
      .track 0, .claim 0 10 .answered, .update 0, .commit 0, .leave 0]
    (∀ before u, before <+: events → system.exec {} before = some u → u.Conserved) ↔
      system.Meets Clean {} events :=
  conserved_iff rfl

/-- **Bounties are not always conserved**: an exception after the claim rolls
the row back, and the bounty is gone from Redis. -/
theorem not_conserved : ¬∀ events s, system.exec {} events = some s → s.Conserved := by
  intro h
  have hend := h [.create 0, .track 0, .claim 0 10 .answered, .update 0, .raise 0 "timeout",
    .recordError 0] _ rfl
  obtain ⟨c, b, hb, -⟩ | ⟨id, row, b, hrow, ⟨-, herror⟩, -⟩ := hend.recorded 0 (by decide)
  · -- No call holds a bounty.
    by_cases hc : c = 0
    · subst hc
      cases hb
    · simp [State.recordError, State.setRow, State.setPhase, State.claim, Call.hand, hc] at hb
  · -- The only row has an error.
    by_cases hid : id = (0, 0)
    · subst hid
      obtain rfl := Option.some.inj hrow
      cases herror
    · simp [State.recordError, State.setRow, State.setPhase, State.claim, State.rowOf, hid] at hrow

end Bounty

end ChutesApi
