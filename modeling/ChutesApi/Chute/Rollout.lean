import ChutesApi.Chute.Model.Rollout
import Mathlib.Data.List.Perm.Subperm
import Mathlib.Order.MinMax
/-!
# What a rolling update does to the instances

The row of `rolling_updates` is for the version that the chute has. A task
whose version the row is for therefore works for the current one: the miners
are told of it, once for each instance and at the task's pace, and what the
task deletes is of another version (`rolled`); when it is through, only
instances that were launched meanwhile are (`settled`).

All of it needs that no deployment comes between a task's last look at the
row and its commit, nor between an upgrade's load of the chute and its commit,
nor into a pass of the watchtower: the examples at the end are of a task that
deletes an instance of the version just deployed, and of one that does so on
account of an upgrade.
-/

namespace ChutesApi

namespace Rollout

variable {s s' : State} {t : ℕ} {task : Task} {a : Action} {id : String} {i : Instance}

/-- The task works for the version it has found in the row. -/
def Phase.Finishing : Phase → Prop
  | .checked | .loaded _ _ => True
  | .notifying _ _ | .done => False

instance (p : Phase) : Decidable p.Finishing :=
  match p with
  | .checked | .loaded _ _ => isTrue trivial
  | .notifying _ _ | .done => isFalse not_false

/-- **No deployment disturbs**: none comes while a task finishes, while an
upgrade is under way, or while the watchtower purges. -/
def Undisturbed (s : State) : Action → Prop
  | .deploy _ => (∀ task ∈ s.tasks.values, ¬task.phase.Finishing) ∧ s.upgrading = [] ∧
      s.doomed = []
  | _ => True

instance (s : State) (a : Action) : Decidable (Undisturbed s a) :=
  match a with
  | .deploy _ => inferInstanceAs
      (Decidable ((∀ task ∈ s.tasks.values, ¬task.phase.Finishing) ∧ s.upgrading = [] ∧
        s.doomed = []))
  | .tick _ | .loadUpgrade | .upgrade _ _ | .claim _ | .insert _ _ _ | .leave _ | .start _ _ _
  | .notify _ | .check _ | .load _ | .commit _ | .expire | .look | .purge _ => isTrue trivial

/-! ## Deletions -/

section Removals

theorem get?_remove (s : State) (id id' : String) : (s.remove id).instances.get? id' =
    if id' = id then none else s.instances.get? id' := by
  unfold State.remove
  split
  · next hnone =>
    split
    · next heq => rw [heq, hnone]
    · rfl
  · exact Dict.get?_pop

/-- A deletion touches the instances, and notes what it was. -/
theorem remove_frame (s : State) (id : String) : ∃ instances removals,
    s.remove id = { s with instances := instances, removals := removals } ∧
      ∀ r ∈ removals, r ∈ s.removals ∨
        ∃ i, s.instances.get? id = some i ∧ r = ⟨id, i.version, s.version⟩ := by
  unfold State.remove
  split
  · exact ⟨s.instances, s.removals, rfl, fun r hr => .inl hr⟩
  · next i hget =>
    refine ⟨_, _, rfl, fun r hr => ?_⟩
    rcases List.mem_cons.1 hr with rfl | hr
    · exact .inr ⟨i, hget, rfl⟩
    · exact .inl hr

theorem foldl_remove_frame (s : State) (l : List String) : ∃ instances removals,
    l.foldl State.remove s = { s with instances := instances, removals := removals } ∧
      (∀ id', instances.get? id' = if id' ∈ l then none else s.instances.get? id') ∧
      ∀ r ∈ removals, r ∈ s.removals ∨
        ∃ id ∈ l, ∃ i, s.instances.get? id = some i ∧ r = ⟨id, i.version, s.version⟩ := by
  induction l generalizing s with
  | nil => exact ⟨s.instances, s.removals, rfl, fun _ => rfl, fun r hr => .inl hr⟩
  | cons id l ih =>
    obtain ⟨instances₁, removals₁, hframe₁, hnoted₁⟩ := remove_frame s id
    obtain ⟨instances, removals, hframe, hget, hnoted⟩ := ih (s.remove id)
    have hremove : ∀ id', (s.remove id).instances.get? id' =
        if id' = id then none else s.instances.get? id' := fun id' => get?_remove s id id'
    refine ⟨instances, removals, ?_, fun id' => ?_, fun r hr => ?_⟩
    · rw [List.foldl_cons, hframe, hframe₁]
    · rw [hget, hremove]
      by_cases hid : id' = id
      · simp [hid]
      · simp [hid]
    · rcases hnoted r hr with hold | ⟨id', hmem, i, hi, rfl⟩
      · rw [hframe₁] at hold
        rcases hnoted₁ r hold with hold | ⟨i, hi, rfl⟩
        · exact .inl hold
        · exact .inr ⟨id, List.mem_cons_self, i, hi, rfl⟩
      · rw [hremove] at hi
        have hversion : (s.remove id).version = s.version := by rw [hframe₁]
        split at hi
        · cases hi
        · exact .inr ⟨id', List.mem_cons_of_mem _ hmem, i, hi, by rw [hversion]⟩

end Removals

/-! ## Versions -/

/-- **The invariant about the versions.** -/
structure Sound (s : State) : Prop where
  current : ∀ u ∈ s.update, u.newVersion = s.version
  upgrading : ∀ version ∈ s.upgrading, version = s.version
  ids : ∀ id i, s.instances.get? id = some i → id ∈ s.ids
  finishing : ∀ t task, s.tasks.get? t = some task → task.phase.Finishing → task.version = s.version
  loaded : ∀ t task known doomed, s.tasks.get? t = some task → task.phase = .loaded known doomed →
    (∀ id ∈ doomed, id ∈ s.ids ∧ ∀ i, s.instances.get? id = some i → i.version ≠ task.version) ∧
      ∀ id ∈ known, id ∈ s.ids ∧
        ∀ i, s.instances.get? id = some i → i.version ≠ task.version → id ∈ doomed
  doomed : ∀ id ∈ s.doomed, id ∈ s.ids ∧ ∀ i, s.instances.get? id = some i → i.version ≠ s.version
  removals : ∀ r ∈ s.removals, r.version ≠ r.current
  notices : ∀ n ∈ s.notices, n.newVersion = n.current

theorem sound_initial (version : String) : Sound (initial version) where
  current _ h := by cases h
  upgrading _ h := by cases h
  ids _ _ h := by cases h
  finishing _ _ h := by cases h
  loaded _ _ _ _ h := by cases h
  doomed _ h := by cases h
  removals _ h := by cases h
  notices _ h := by cases h

theorem mem_outdated {version : String} : id ∈ s.outdated version ↔
    ∃ i, s.instances.get? id = some i ∧ i.version ≠ version := by
  unfold State.outdated
  rw [List.mem_map]
  constructor
  · rintro ⟨⟨id', i⟩, hmem, rfl⟩
    rw [List.mem_filter] at hmem
    exact ⟨i, Dict.get?_eq_some.2 hmem.1, by simpa using hmem.2⟩
  · rintro ⟨i, hget, hne⟩
    exact ⟨(id, i), List.mem_filter.2 ⟨Dict.get?_eq_some.1 hget, by simpa using hne⟩, rfl⟩

/-- An update that is in place is for the task's version. -/
theorem Sound.version_eq (h : Sound s) {version : String} (hdefunct : s.isDefunct version = false) :
    version = s.version ∧ ∃ u, s.update = some u := by
  unfold State.isDefunct at hdefunct
  cases hu : s.update with
  | none =>
    rw [hu] at hdefunct
    cases hdefunct
  | some u =>
    rw [hu, Option.all_some] at hdefunct
    have heq : u.newVersion = version := by simpa using hdefunct
    exact ⟨heq.symm.trans (h.current u hu), u, rfl⟩

/-- Fewer instances, and the same of the rest. -/
theorem Sound.shrink (h : Sound s) (instances : Dict String Instance) (removals : List Removal)
    (update : Option RollingUpdate) (doomed : List String)
    (hget : ∀ id i, instances.get? id = some i → s.instances.get? id = some i)
    (hupdate : ∀ u ∈ update, u ∈ s.update) (hdoomed : ∀ id ∈ doomed, id ∈ s.doomed)
    (hremovals : ∀ r ∈ removals, r.version ≠ r.current) :
    Sound { s with
      instances := instances, removals := removals, update := update, doomed := doomed } where
  current u hu := h.current u (hupdate u hu)
  upgrading := h.upgrading
  ids id i hi := h.ids id i (hget id i hi)
  finishing := h.finishing
  loaded t task known doomed htask hphase := by
    obtain ⟨hd, hk⟩ := h.loaded t task known doomed htask hphase
    exact ⟨fun id hid => ⟨(hd id hid).1, fun i hi => (hd id hid).2 i (hget id i hi)⟩,
      fun id hid => ⟨(hk id hid).1, fun i hi => (hk id hid).2 i (hget id i hi)⟩⟩
  doomed id hid := by
    obtain ⟨hmem, hne⟩ := h.doomed id (hdoomed id hid)
    exact ⟨hmem, fun i hi => hne i (hget id i hi)⟩
  removals := hremovals
  notices := h.notices

/-- A launch, under an id that there never was. -/
theorem Sound.insert (h : Sound s) {claims : Dict ℕ String} (hnew : id ∉ s.ids) :
    Sound { s with
      claims := claims, ids := id :: s.ids, instances := s.instances.set id i } := by
  have hold : ∀ id' ∈ s.ids, (s.instances.set id i).get? id' = s.instances.get? id' := by
    intro id' hid'
    rw [Dict.get?_set, if_neg]
    rintro rfl
    exact hnew hid'
  refine ⟨h.current, h.upgrading, fun id' i' hi' => ?_, h.finishing, ?_, fun id' hid' => ?_,
    h.removals, h.notices⟩
  · rw [Dict.get?_set] at hi'
    split at hi'
    · next heq => exact heq ▸ List.mem_cons_self
    · exact List.mem_cons_of_mem _ (h.ids id' i' hi')
  · intro t task known doomed htask hphase
    obtain ⟨hd, hk⟩ := h.loaded t task known doomed htask hphase
    refine ⟨fun id' hid' => ⟨List.mem_cons_of_mem _ (hd id' hid').1, fun i' hi' => ?_⟩,
      fun id' hid' => ⟨List.mem_cons_of_mem _ (hk id' hid').1, fun i' hi' => ?_⟩⟩
    · exact (hd id' hid').2 i' ((hold id' (hd id' hid').1).symm.trans hi')
    · exact (hk id' hid').2 i' ((hold id' (hk id' hid').1).symm.trans hi')
  · obtain ⟨hid, hne⟩ := h.doomed id' hid'
    exact ⟨List.mem_cons_of_mem _ hid, fun i' hi' => hne i' ((hold id' hid).symm.trans hi')⟩

/-- A task that goes on, in a phase that is in order. -/
theorem Sound.setPhase (h : Sound s) (t : ℕ) (task : Task) (phase : Phase)
    (hfinishing : phase.Finishing → task.version = s.version)
    (hloaded : ∀ known doomed, phase = .loaded known doomed →
      (∀ id ∈ doomed, id ∈ s.ids ∧ ∀ i, s.instances.get? id = some i → i.version ≠ task.version) ∧
        ∀ id ∈ known, id ∈ s.ids ∧
          ∀ i, s.instances.get? id = some i → i.version ≠ task.version → id ∈ doomed) :
    Sound (s.setPhase t task phase) where
  current := h.current
  upgrading := h.upgrading
  ids := h.ids
  finishing := by
    intro t' task' htask' hphase
    rw [State.setPhase, Dict.get?_set] at htask'
    split at htask'
    · obtain rfl := Option.some.inj htask'
      exact hfinishing hphase
    · exact h.finishing t' task' htask' hphase
  loaded := by
    intro t' task' known doomed htask' hphase
    rw [State.setPhase, Dict.get?_set] at htask'
    split at htask'
    · obtain rfl := Option.some.inj htask'
      exact hloaded known doomed hphase
    · exact h.loaded t' task' known doomed htask' hphase
  doomed := h.doomed
  removals := h.removals
  notices := h.notices

/-- A phase that only waits, or ends. -/
theorem Sound.setPhase_of_not (h : Sound s) (t : ℕ) (task : Task) (phase : Phase)
    (hphase : ¬phase.Finishing) :
    Sound (s.setPhase t task phase) := by
  refine h.setPhase t task phase (fun hf => absurd hf hphase) fun known doomed heq => ?_
  rw [heq] at hphase
  exact absurd trivial hphase

/-- **A step keeps the versions in order**, unless a deployment disturbs. -/
theorem Sound.step (h : Sound s) (hok : Undisturbed s a) (hstep : s.step a = some s') :
    Sound s' := by
  cases a with
  | tick d =>
    cases hstep
    exact ⟨h.current, h.upgrading, h.ids, h.finishing, h.loaded, h.doomed, h.removals, h.notices⟩
  | deploy version =>
    cases hstep
    obtain ⟨htasks, hupgrading, hdoomed⟩ := hok
    refine ⟨fun u hu => ?_, fun version hv => ?_, h.ids, fun t task htask hf => ?_, h.loaded,
      fun id hid => ?_, h.removals, h.notices⟩
    · simp only [State.deploy] at hu
      split at hu
      · cases hu
      · cases hu
        rfl
    · rw [State.deploy, hupgrading] at hv
      cases hv
    · exact absurd hf (htasks task (Dict.mem_values.2 ⟨t, htask⟩))
    · rw [State.deploy, hdoomed] at hid
      cases hid
  | loadUpgrade =>
    cases hstep
    refine ⟨h.current, fun version hv => ?_, h.ids, h.finishing, h.loaded, h.doomed, h.removals,
      h.notices⟩
    rcases List.mem_cons.1 hv with rfl | hv
    · rfl
    · exact h.upgrading version hv
  | upgrade version created =>
    simp only [State.step, State.upgrade] at hstep
    split at hstep
    · next hmem =>
      cases hstep
      refine ⟨fun u hu => ?_, fun v hv => h.upgrading v (List.mem_of_mem_erase hv), h.ids,
        h.finishing, h.loaded, h.doomed, h.removals, h.notices⟩
      simp only at hu
      split at hu
      · cases hu
        exact h.upgrading version hmem
      · cases hu
    · cases hstep
  | claim c =>
    simp only [State.step] at hstep
    split at hstep
    · cases hstep
    · cases hstep
      exact ⟨h.current, h.upgrading, h.ids, h.finishing, h.loaded, h.doomed, h.removals, h.notices⟩
  | insert c instanceId minerHotkey =>
    simp only [State.step] at hstep
    split at hstep
    · cases hstep
    · next version hversion =>
      split at hstep
      · cases hstep
      · next hnew =>
        cases hstep
        exact h.insert hnew
  | leave instanceId =>
    cases hstep
    refine h.shrink _ _ _ _ (fun id i hget => ?_) (fun _ hu => hu) (fun _ hid => hid) h.removals
    rw [Dict.get?_pop] at hget
    split at hget
    · cases hget
    · exact hget
  | start t version reason =>
    simp only [State.step, State.start] at hstep
    split at hstep
    · have hqueued : Sound { s with queued := s.queued.erase (version, reason) } :=
        ⟨h.current, h.upgrading, h.ids, h.finishing, h.loaded, h.doomed, h.removals, h.notices⟩
      split at hstep
      · cases hstep
        exact hqueued
      · cases hstep
        exact hqueued.setPhase_of_not t ⟨version, reason, s.instances.keys, .done⟩ _ not_false
    · cases hstep
  | notify t =>
    simp only [State.step, State.notify] at hstep
    split at hstep
    · next task htask =>
      split at hstep
      · next instanceId pending wakeAt hphase =>
        split at hstep
        · cases hstep
        · split at hstep
          · cases hstep
            exact h.setPhase_of_not _ _ _ not_false
          · next update i hi =>
            split at hstep
            · cases hstep
              exact h.setPhase_of_not _ _ _ not_false
            · next hdefunct =>
              obtain ⟨u, hu, rfl⟩ := Option.map_eq_some_iff.1 hstep
              have hwait := h.setPhase_of_not t task
                (.notifying pending (s.now + task.sleepPerInstance)) not_false
              refine ⟨hwait.current, hwait.upgrading, hwait.ids, hwait.finishing, hwait.loaded,
                hwait.doomed, hwait.removals, fun n hn => ?_⟩
              rcases List.mem_cons.1 hn with rfl | hn
              · exact h.current u hu
              · exact h.notices n hn
      · cases hstep
    · cases hstep
  | check t =>
    simp only [State.step, State.check] at hstep
    split at hstep
    · next task htask =>
      split at hstep
      · split at hstep
        · cases hstep
        · cases hstep
          refine h.setPhase _ _ _ (fun hf => ?_) fun known doomed heq => ?_
          · split at hf
            · cases hf
            · next hdefunct => exact (h.version_eq (by simpa using hdefunct)).1
          · split at heq
            · cases heq
            · cases heq
      · cases hstep
    · cases hstep
  | load t =>
    simp only [State.step, State.load] at hstep
    split at hstep
    · next task htask =>
      split at hstep
      · next hphase =>
        cases hstep
        refine h.setPhase _ _ _ (fun _ => h.finishing t task htask (hphase ▸ trivial)) ?_
        intro known doomed heq
        cases heq
        refine ⟨fun id hid => ?_, fun id hid => ?_⟩
        · obtain ⟨i, hi, hne⟩ := mem_outdated.1 hid
          refine ⟨h.ids id i hi, fun i' hi' => ?_⟩
          rw [hi] at hi'
          cases hi'
          exact hne
        · obtain ⟨i, hi⟩ := Dict.mem_keys.1 hid
          exact ⟨h.ids id i hi, fun i' hi' hne => mem_outdated.2 ⟨i', hi', hne⟩⟩
      · cases hstep
    · cases hstep
  | commit t =>
    simp only [State.step, State.commit] at hstep
    split at hstep
    · next task htask =>
      split at hstep
      · next known doomed hphase =>
        cases hstep
        obtain ⟨instances, removals, hframe, hget, hnoted⟩ := foldl_remove_frame s doomed
        have hversion := h.finishing t task htask (hphase ▸ trivial)
        rw [hframe]
        have hshrunk := h.shrink instances removals none s.doomed (fun id i hi => ?_)
          (fun u hu => by cases hu) (fun _ hid => hid) fun r hr => ?_
        · exact hshrunk.setPhase_of_not _ _ _ not_false
        · rw [hget] at hi
          split at hi
          · cases hi
          · exact hi
        · rcases hnoted r hr with hold | ⟨id, hid, i, hi, rfl⟩
          · exact h.removals r hold
          · have hne := ((h.loaded t task known doomed htask hphase).1 id hid).2 i hi
            rwa [hversion] at hne
      · cases hstep
    · cases hstep
  | expire =>
    cases hstep
    exact h.shrink _ _ _ _ (fun _ _ hi => hi) (fun u hu => (Option.mem_filter_iff.1 hu).1)
      (fun _ hid => hid) h.removals
  | look =>
    cases hstep
    refine ⟨h.current, h.upgrading, h.ids, h.finishing, h.loaded, fun id hid => ?_, h.removals,
      h.notices⟩
    simp only at hid
    split at hid
    · obtain ⟨i, hi, hne⟩ := mem_outdated.1 (List.mem_filter.1 hid).1
      refine ⟨h.ids id i hi, fun i' hi' => ?_⟩
      rw [hi] at hi'
      cases hi'
      exact hne
    · cases hid
  | purge instanceId =>
    simp only [State.step] at hstep
    split at hstep
    · next hmem =>
      cases hstep
      obtain ⟨instances, removals, hframe, hnoted⟩ := remove_frame s instanceId
      have hget : ∀ id i, instances.get? id = some i → s.instances.get? id = some i := by
        intro id i hi
        have hremove := get?_remove s instanceId id
        rw [hframe, show ({ s with instances := instances, removals := removals } :
          State).instances.get? id = instances.get? id from rfl, hi] at hremove
        split at hremove
        · cases hremove
        · exact hremove.symm
      rw [hframe]
      refine h.shrink _ _ _ _ hget (fun _ hu => hu)
        (fun _ hid => List.mem_of_mem_erase hid) fun r hr => ?_
      rcases hnoted r hr with hold | ⟨i, hi, rfl⟩
      · exact h.removals r hold
      · exact (h.doomed instanceId hmem).2 i hi
    · cases hstep

/-! ## Notices -/

/-- **The invariant about the notices**: a task has told nobody of whom it has
still to come to, and sleeps past its pace. -/
structure Paced (s : State) : Prop where
  pending : ∀ t task pending wakeAt, s.tasks.get? t = some task →
    task.phase = .notifying pending wakeAt →
      pending.Nodup ∧ pending ⊆ task.instances ∧ ∀ n ∈ s.notices, n.task = t →
        n.instanceId ∉ pending ∧ n.sentAt + task.sleepPerInstance ≤ wakeAt
  known : ∀ n ∈ s.notices, ∃ task,
    s.tasks.get? n.task = some task ∧ n.instanceId ∈ task.instances
  once : s.notices.Pairwise fun n n' => n.task = n'.task → n.instanceId ≠ n'.instanceId
  pace : s.notices.Pairwise fun n n' => n.task = n'.task →
    ∀ task, s.tasks.get? n.task = some task → n'.sentAt + task.sleepPerInstance ≤ n.sentAt

theorem paced_initial (version : String) : Paced (initial version) where
  pending _ _ _ _ h := by cases h
  known _ h := by cases h
  once := List.Pairwise.nil
  pace := List.Pairwise.nil

theorem Paced.congr (h : Paced s) (htasks : s'.tasks = s.tasks)
    (hnotices : s'.notices = s.notices) : Paced s' := by
  constructor
  · rw [htasks, hnotices]
    exact h.pending
  · rw [htasks, hnotices]
    exact h.known
  · rw [hnotices]
    exact h.once
  · rw [htasks, hnotices]
    exact h.pace

/-- A task that goes on, or a new one: the instances that it has loaded stay. -/
theorem Paced.setPhase (h : Paced s) (t : ℕ) (task : Task) (phase : Phase)
    (htask : ∀ old, s.tasks.get? t = some old → old.instances = task.instances)
    (hphase : ∀ pending wakeAt, phase = .notifying pending wakeAt →
      pending.Nodup ∧ pending ⊆ task.instances ∧ ∀ n ∈ s.notices, n.task = t →
        n.instanceId ∉ pending ∧ n.sentAt + task.sleepPerInstance ≤ wakeAt) :
    Paced (s.setPhase t task phase) := by
  refine ⟨fun t' task' pending wakeAt htask' hphase' => ?_, fun n hn => ?_, h.once, ?_⟩
  · rw [State.setPhase, Dict.get?_set] at htask'
    split at htask'
    · next heq =>
      cases htask'
      exact heq ▸ hphase pending wakeAt hphase'
    · exact h.pending t' task' pending wakeAt htask' hphase'
  · obtain ⟨old, hold, hmem⟩ := h.known n hn
    rw [State.setPhase, Dict.get?_set]
    split
    · next heq => exact ⟨_, rfl, htask old (heq ▸ hold) ▸ hmem⟩
    · exact ⟨old, hold, hmem⟩
  · refine h.pace.imp_of_mem fun {n n'} hn _ hpace heq task' htask' => ?_
    obtain ⟨old, hold, -⟩ := h.known n hn
    have hle := hpace heq old hold
    rw [State.setPhase, Dict.get?_set] at htask'
    split at htask'
    · next hnt =>
      -- the pace comes from the instances alone
      cases htask'
      have hsame := htask old (hnt ▸ hold)
      simp only [Task.sleepPerInstance, hsame] at hle ⊢
      exact hle
    · rw [hold] at htask'
      cases htask'
      exact hle

/-- A notice, to an instance that the task then has behind it. -/
theorem Paced.send (h : Paced s) (task : Task) {n : Notice} {pending : List String} {wakeAt : ℕ}
    (htask : s.tasks.get? n.task = some task) (hphase : task.phase = .notifying pending wakeAt)
    (hmem : n.instanceId ∈ task.instances) (hpending : n.instanceId ∉ pending)
    (hwake : n.sentAt + task.sleepPerInstance ≤ wakeAt)
    (hold : ∀ n' ∈ s.notices, n'.task = n.task →
      n'.instanceId ≠ n.instanceId ∧ n'.sentAt + task.sleepPerInstance ≤ n.sentAt) :
    Paced { s with notices := n :: s.notices } := by
  have hunique : ∀ task', s.tasks.get? n.task = some task' → task' = task := by
    intro task' htask'
    rw [htask] at htask'
    exact (Option.some.inj htask').symm
  refine ⟨fun t' task' pending' wakeAt' htask' hphase' => ?_, fun n' hn' => ?_, ?_, ?_⟩
  · obtain ⟨hnodup, hsub, htold⟩ := h.pending t' task' pending' wakeAt' htask' hphase'
    refine ⟨hnodup, hsub, fun n' hn' heq => ?_⟩
    rcases List.mem_cons.1 hn' with rfl | hn'
    · subst heq
      obtain rfl := hunique task' htask'
      rw [hphase] at hphase'
      cases hphase'
      exact ⟨hpending, hwake⟩
    · exact htold n' hn' heq
  · rcases List.mem_cons.1 hn' with rfl | hn'
    · exact ⟨task, htask, hmem⟩
    · exact h.known n' hn'
  · exact List.pairwise_cons.2 ⟨fun n' hn' heq => (hold n' hn' heq.symm).1.symm, h.once⟩
  · refine List.pairwise_cons.2 ⟨fun n' hn' heq task' htask' => ?_, h.pace⟩
    obtain rfl := hunique task' htask'
    exact (hold n' hn' heq.symm).2

theorem State.remove_tasks : (s.remove id).tasks = s.tasks ∧ (s.remove id).notices = s.notices := by
  obtain ⟨_, _, hframe, -⟩ := remove_frame s id
  rw [hframe]
  exact ⟨rfl, rfl⟩

/-- **A step keeps the pace.** -/
theorem Paced.step (h : Paced s) (hstep : s.step a = some s') : Paced s' := by
  cases a with
  | tick _ | deploy _ | loadUpgrade | leave _ | expire | look =>
    cases hstep
    exact h.congr rfl rfl
  | upgrade version created =>
    simp only [State.step, State.upgrade] at hstep
    split at hstep
    · cases hstep
      exact h.congr rfl rfl
    · cases hstep
  | claim c =>
    simp only [State.step] at hstep
    split at hstep
    · cases hstep
    · cases hstep
      exact h.congr rfl rfl
  | insert c instanceId minerHotkey =>
    simp only [State.step] at hstep
    split at hstep
    · cases hstep
    · split at hstep
      · cases hstep
      · cases hstep
        exact h.congr rfl rfl
  | start t version reason =>
    simp only [State.step, State.start] at hstep
    split at hstep
    · next hok =>
      have hqueued : Paced { s with queued := s.queued.erase (version, reason) } := h.congr rfl rfl
      have hnew : s.tasks.get? t = none := Dict.get?_eq_none.2 hok.2
      split at hstep
      · cases hstep
        exact hqueued
      · cases hstep
        refine hqueued.setPhase t ⟨version, reason, s.instances.keys, .done⟩ _
          (fun old hold => ?_) fun pending wakeAt heq => ?_
        · rw [hnew] at hold
          cases hold
        · cases heq
          refine ⟨s.instances.nodup_keys, List.Subset.refl _, fun n hn heq => ?_⟩
          obtain ⟨old, hold, -⟩ := h.known n hn
          rw [heq, hnew] at hold
          cases hold
    · cases hstep
  | notify t =>
    simp only [State.step, State.notify] at hstep
    split at hstep
    · next task htask =>
      have hsame : ∀ old, s.tasks.get? t = some old → old.instances = task.instances := by
        intro old hold
        rw [htask] at hold
        cases hold
        rfl
      split at hstep
      · next instanceId pending wakeAt hphase =>
        obtain ⟨hnodup, hsub, htold⟩ := h.pending t task _ _ htask hphase
        obtain ⟨hnot, hnodup'⟩ := List.nodup_cons.1 hnodup
        obtain ⟨hmem, hsub'⟩ := List.cons_subset.1 hsub
        split at hstep
        · cases hstep
        · next hawake =>
          -- with the instance behind it, and when it wakes up at the earliest
          have hnext : ∀ wakeAt', wakeAt ≤ wakeAt' →
              Paced (s.setPhase t task (.notifying pending wakeAt')) := by
            intro wakeAt' hle
            refine h.setPhase _ _ _ hsame fun pending' wakeAt'' heq => ?_
            cases heq
            refine ⟨hnodup', hsub', fun n hn heq => ?_⟩
            obtain ⟨hne, hslept⟩ := htold n hn heq
            exact ⟨fun hp => hne (List.mem_cons_of_mem _ hp), hslept.trans hle⟩
          have hdone : Paced (s.setPhase t task .done) :=
            h.setPhase _ _ _ hsame fun _ _ heq => by cases heq
          split at hstep
          · cases hstep
            exact hnext wakeAt le_rfl
          · split at hstep
            · cases hstep
              exact hdone
            · obtain ⟨u, hu, rfl⟩ := Option.map_eq_some_iff.1 hstep
              refine (hnext (s.now + task.sleepPerInstance) (by omega)).send
                { task with phase := .notifying pending (s.now + task.sleepPerInstance) } ?_ rfl
                hmem hnot le_rfl fun n hn heq => ?_
              · rw [State.setPhase, Dict.get?_set, if_pos rfl]
              · obtain ⟨hne, hslept⟩ := htold n hn heq
                refine ⟨fun heq => hne (heq ▸ List.mem_cons_self), ?_⟩
                show n.sentAt + task.sleepPerInstance ≤ s.now
                omega
      · cases hstep
    · cases hstep
  | check t =>
    simp only [State.step, State.check] at hstep
    split at hstep
    · next task htask =>
      split at hstep
      · split at hstep
        · cases hstep
        · cases hstep
          refine h.setPhase _ _ _ (fun old hold => ?_) fun _ _ heq => ?_
          · rw [htask] at hold
            cases hold
            rfl
          · split at heq
            · cases heq
            · cases heq
      · cases hstep
    · cases hstep
  | load t =>
    simp only [State.step, State.load] at hstep
    split at hstep
    · next task htask =>
      split at hstep
      · cases hstep
        refine h.setPhase _ _ _ (fun old hold => ?_) fun _ _ heq => by cases heq
        rw [htask] at hold
        cases hold
        rfl
      · cases hstep
    · cases hstep
  | commit t =>
    simp only [State.step, State.commit] at hstep
    split at hstep
    · next task htask =>
      split at hstep
      · next known doomed hphase =>
        cases hstep
        obtain ⟨instances, removals, hframe, -, -⟩ := foldl_remove_frame s doomed
        rw [hframe]
        have hdone : Paced (s.setPhase t task .done) := by
          refine h.setPhase _ _ _ (fun old hold => ?_) fun _ _ heq => by cases heq
          rw [htask] at hold
          cases hold
          rfl
        exact hdone.congr rfl rfl
      · cases hstep
    · cases hstep
  | purge instanceId =>
    simp only [State.step] at hstep
    split at hstep
    · cases hstep
      exact h.congr State.remove_tasks.1 State.remove_tasks.2
    · cases hstep

/-- **The sleeps of a task** take 45 minutes, or a second for each instance. -/
theorem length_mul_sleepPerInstance_le :
    task.instances.length * task.sleepPerInstance ≤ max maxDuration task.instances.length := by
  have hmul := Nat.mul_div_le maxDuration task.instances.length
  simp only [Task.sleepPerInstance]
  split
  · calc task.instances.length * min 300 1 ≤ task.instances.length * 1 :=
          Nat.mul_le_mul_left _ (min_le_right _ _)
      _ ≤ max maxDuration task.instances.length := by omega
  · calc task.instances.length * min 300 (maxDuration / task.instances.length)
        ≤ task.instances.length * (maxDuration / task.instances.length) :=
          Nat.mul_le_mul_left _ (min_le_right _ _)
      _ ≤ max maxDuration task.instances.length := by omega

/-- A task has told at most the instances that it has loaded. -/
theorem Paced.count_le (h : Paced s) (htask : s.tasks.get? t = some task) :
    (s.notices.filter fun n => n.task = t).length ≤ task.instances.length := by
  have hnodup : ((s.notices.filter fun n => n.task = t).map Notice.instanceId).Nodup := by
    rw [List.Nodup, List.pairwise_map, List.pairwise_filter]
    refine h.once.imp fun hne ht ht' => ?_
    simp only [decide_eq_true_eq] at ht ht'
    exact hne (ht.trans ht'.symm)
  have hsub : (s.notices.filter fun n => n.task = t).map Notice.instanceId ⊆ task.instances := by
    intro id hid
    obtain ⟨n, hn, rfl⟩ := List.mem_map.1 hid
    obtain ⟨hn, ht⟩ := List.mem_filter.1 hn
    obtain ⟨task', htask', hmem⟩ := h.known n hn
    rw [of_decide_eq_true ht, htask] at htask'
    cases htask'
    exact hmem
  have hle := (List.subperm_of_subset hnodup hsub).length_le
  rwa [List.length_map] at hle

/-! ## Runs -/

section System

variable {as : List Action}

theorem sound (h : system.Reach Undisturbed as s) : Sound s := by
  refine h.invariant (fun s hinit => ?_) fun s a s' hs hok hstep => hs.step hok hstep
  obtain ⟨version, rfl⟩ := hinit
  exact sound_initial version

/-- **Every task keeps its pace**: it tells the miner of an instance at most
once, sleeps between two notices, and its sleeps together take 45 minutes, or
a second for each instance. -/
theorem unhurried (h : system.Run as s) :
    (s.notices.Pairwise fun n n' => n.task = n'.task → n.instanceId ≠ n'.instanceId ∧
      ∀ task, s.tasks.get? n.task = some task → n'.sentAt + task.sleepPerInstance ≤ n.sentAt) ∧
    ∀ t task, s.tasks.get? t = some task →
      (s.notices.filter fun n => n.task = t).length * task.sleepPerInstance ≤
        max maxDuration task.instances.length := by
  have hpaced : Paced s := by
    refine h.invariant (fun s hinit => ?_) fun s a s' hs _ hstep => hs.step hstep
    obtain ⟨version, rfl⟩ := hinit
    exact paced_initial version
  refine ⟨?_, fun t task htask => ?_⟩
  · exact hpaced.once.imp₂ (fun _ _ hne hpace heq => ⟨hne heq, hpace heq⟩) hpaced.pace
  · exact (Nat.mul_le_mul_right _ (hpaced.count_le htask)).trans length_mul_sleepPerInstance_le

/-- Of two instances one goes when it is told, and is launched anew; the other
one stays as it is. -/
private def replaced : List Action :=
  [.claim 0, .insert 0 "i" "5A", .claim 1, .insert 1 "j" "5B", .deploy "v2",
    .start 0 "v2" "code change", .notify 0, .leave "i", .claim 2, .insert 2 "k" "5A", .tick 300,
    .notify 0, .tick 300, .check 0, .load 0]

private def updated : State :=
  (system.exec (initial "v1") (replaced ++ [.commit 0])).getD (initial "v1")

private theorem reach_updated : system.Reach Undisturbed (replaced ++ [.commit 0]) updated :=
  Lts.reach_getD_exec ⟨"v1", rfl⟩ (by decide +kernel) (by decide +kernel)

theorem unhurried_updated :
    (updated.notices.filter fun n => n.task = 0).length * 300 ≤ maxDuration ∧
      updated.notices.map Notice.sentAt = [300, 0] :=
  ⟨(unhurried (reach_updated.mono fun _ _ _ => trivial)).2 0
    ⟨"v2", "code change", ["i", "j"], .done⟩ (by decide +kernel), by decide +kernel⟩

/-- **Once a task is through**, each instance that it knew of and that is still
there has the chute's version; those that had it are all still there. -/
theorem settled (h : system.Reach Undisturbed (as ++ [.commit t]) s') :
    s'.update = none ∧ ∃ s task known doomed, system.Reach Undisturbed as s ∧
      s.tasks.get? t = some task ∧ task.phase = .loaded known doomed ∧
      (∀ id ∈ known, ∀ i, s'.instances.get? id = some i → i.version = s'.version) ∧
      ∀ id i, s.instances.get? id = some i → i.version = s.version →
        s'.instances.get? id = some i := by
  obtain ⟨s, hr, -, hstep⟩ := h.of_concat
  have hsound := sound hr
  simp only [system, State.step, State.commit] at hstep
  split at hstep
  · next task htask =>
    split at hstep
    · next known doomed hphase =>
      cases hstep
      obtain ⟨instances, removals, hframe, hget, -⟩ := foldl_remove_frame s doomed
      obtain ⟨hdoomed, hknown⟩ := hsound.loaded t task known doomed htask hphase
      have hversion := hsound.finishing t task htask (hphase ▸ trivial)
      rw [hframe]
      refine ⟨rfl, s, task, known, doomed, hr, htask, hphase, fun id hid i hi => ?_,
        fun id i hi hcurrent => ?_⟩
      · change instances.get? id = some i at hi
        show i.version = s.version
        rw [hget] at hi
        split at hi
        · cases hi
        · next hspared =>
          by_contra hne
          exact hspared ((hknown id hid).2 i hi (hversion ▸ hne))
      · show instances.get? id = some i
        rw [hget, if_neg, hi]
        intro hid
        exact (hdoomed id hid).2 i hi (hversion ▸ hcurrent)
    · cases hstep
  · cases hstep

theorem settled_updated : updated.update = none ∧
    updated.instances.items = [("k", ⟨"v2", "5A"⟩)] :=
  ⟨(settled reach_updated).1, by decide +kernel⟩

/-- The update is deployed over just when its task has found it in place, and
the miner is faster than the task. -/
private def overtaken : List Action :=
  [.claim 0, .insert 0 "i" "5A", .deploy "v2", .start 0 "v2" "code change", .notify 0, .tick 300,
    .check 0, .deploy "v3", .claim 1, .insert 1 "j" "5A", .load 0, .commit 0]

/-- The task deletes the instance that has the new version, and takes the row of
the new update away. -/
example : ((system.exec (initial "v1") overtaken).getD (initial "v1")).removals =
    [⟨"j", "v3", "v3"⟩, ⟨"i", "v1", "v3"⟩] := by
  decide +kernel

/-- The library is upgraded while a deployment is under way: the row and the
task are for the version before it. -/
private def downgraded : List Action :=
  [.claim 0, .insert 0 "i" "5A", .loadUpgrade, .deploy "v2", .claim 1, .insert 1 "j" "5A",
    .upgrade "v1" true, .start 0 "v1" "image updated due to chutes lib upgrade", .tick 300,
    .notify 0, .tick 300, .notify 0, .tick 300, .check 0, .load 0, .commit 0]

/-- The instance of the new version is deleted. -/
example : ((system.exec (initial "v1") downgraded).getD (initial "v1")).removals =
    [⟨"j", "v2", "v2"⟩] := by
  decide +kernel

end System

end Rollout

end ChutesApi
