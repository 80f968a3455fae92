import ChutesApi.Instance.Model.Launch
/-!
# Deletions that are announced

The deletion of an instance should be published if and only if it is
committed, and a reason for it recorded only then. The verification's four
checks delete, commit and publish in this order. Its check of the ports
publishes and raises without having deleted anything, and the activation's
check of the cap deletes and publishes and then raises, which rolls the
deletion back. Every other run of the two handlers agrees with the database
(`agrees_iff`).
-/

namespace ChutesApi

open Python Handler

namespace Activate

/-- The instance exists. -/
def Db.Has (db : Db) (instanceId : String) : Prop := ∃ i ∈ db.instances, i.instanceId = instanceId

/-- **The broadcast agrees with the database**: what is announced as deleted
is gone, and the other way round, and the reasons are of what is gone. -/
structure Agrees (db : Db) (o : Outcome Db Event Unit) : Prop where
  notified : ∀ id, .deleted id ∈ o.published ↔ db.Has id ∧ ¬ o.db.Has id
  audited : ∀ id, o.db.deletionReason id ≠ db.deletionReason id → db.Has id ∧ ¬ o.db.Has id

variable {db : Db} {o : Outcome Db Event Unit} {configId : String} {token : Option String}

/-! ## The three ends of a handler -/

/-- Nothing is deleted, and nothing said of it. -/
theorem agrees_of_kept (hinstances : ∀ id, o.db.Has id ↔ db.Has id)
    (hreason : o.db.deletionReason = db.deletionReason)
    (hpublished : ∀ id, .deleted id ∉ o.published) : Agrees db o := by
  refine ⟨fun id => ?_, fun id hne => absurd (congrFun hreason id) hne⟩
  rw [hinstances]
  exact ⟨fun h => absurd h (hpublished id), fun ⟨h, hnot⟩ => absurd h hnot⟩

theorem has_deleteInstance {instanceId id : String} :
    (db.deleteInstance instanceId).Has id ↔ db.Has id ∧ id ≠ instanceId := by
  unfold Db.Has Db.deleteInstance
  simp only [List.mem_filter, decide_eq_true_eq]
  constructor
  · rintro ⟨i, ⟨hi, hne⟩, rfl⟩
    exact ⟨⟨i, hi, rfl⟩, hne⟩
  · rintro ⟨⟨i, hi, rfl⟩, hne⟩
    exact ⟨i, ⟨hi, hne⟩, rfl⟩

theorem has_updateInstance {instanceId id : String} {f : Instance → Instance}
    (hf : ∀ i, (f i).instanceId = i.instanceId) :
    (db.updateInstance instanceId f).Has id ↔ db.Has id := by
  have hid : ∀ i : Instance,
      (if i.instanceId = instanceId then f i else i).instanceId = i.instanceId := by
    intro i
    split
    · exact hf i
    · rfl
  unfold Db.Has Db.updateInstance
  simp only [List.mem_map, exists_exists_and_eq_and, hid]

/-- An instance is deleted, with a reason, and this is published. -/
theorem agrees_of_deleted {instanceId reason : String} (hi : db.Has instanceId)
    (hinstances : o.db.instances = (db.deleteInstance instanceId).instances)
    (hreason : o.db.deletionReason = (db.setDeletionReason instanceId reason).deletionReason)
    (hpublished : o.published = [.deleted instanceId]) : Agrees db o := by
  have hhas : ∀ id, o.db.Has id ↔ db.Has id ∧ id ≠ instanceId := by
    intro id
    rw [← has_deleteInstance]
    unfold Db.Has
    rw [hinstances]
  refine ⟨fun id => ?_, fun id hne => ?_⟩
  · rw [hpublished, List.mem_singleton, Event.deleted.injEq, hhas]
    constructor
    · rintro rfl
      exact ⟨hi, fun h => h.2 rfl⟩
    · rintro ⟨hid, hnot⟩
      by_contra hne
      exact hnot ⟨hid, hne⟩
  · have heq : id = instanceId := by
      by_contra hother
      refine hne ?_
      rw [hreason]
      exact Function.update_of_ne hother _ _
    subst heq
    exact ⟨hi, fun h => ((hhas id).1 h).2 rfl⟩

/-- A deletion is published that has not happened. -/
theorem not_agrees {instanceId : String} (hi : o.db.Has instanceId)
    (hpublished : .deleted instanceId ∈ o.published) : ¬ Agrees db o :=
  fun h => ((h.notified instanceId).1 hpublished).2 hi

theorem has_of_instanceOf {i : Instance} (h : db.instanceOf configId = some i) :
    db.Has i.instanceId := ⟨i, List.mem_of_find?_eq_some h, rfl⟩

/-! ## The handlers -/

/-- **The loader** raises, where the token is not of a config, and otherwise
returns the config and sets its `retrieved_at`. -/
theorem post_loadLaunchConfig {now : ℚ} {c : Conn Db Event}
    {Q : Conn Db Event × Except Exc LaunchConfig → Prop}
    (hraise : (token = some configId → c.working.configs configId = none) → ∀ e, Q (c, .error e))
    (hload : ∀ config, token = some configId → c.working.configs configId = some config →
      Q ({ c with working := c.working.updateConfig configId fun config =>
        { config with retrievedAt := config.retrievedAt.or (some now) } }, .ok config)) :
    Post (loadLaunchConfig configId token now) c Q := by
  unfold loadLaunchConfig
  cases token with
  | none => exact hraise (fun h => (by cases h)) _
  | some sub =>
    by_cases hsub : configId = sub
    · subst hsub
      simp only [ne_eq, not_true_eq_false, if_false, post_read_bind]
      cases hconfig : c.working.configs configId with
      | none => exact hraise (fun _ => hconfig) _
      | some config => exact hload config rfl hconfig
    · simp only [ne_eq, hsub, not_false_eq_true, if_true, post_raise]
      exact hraise (fun h => absurd (Option.some.inj h).symm hsub) _

/-- **The activation is refused over the cap.** -/
def CapRefuses (args : ActivateArgs) (configId : String) (token : Option String) (db : Db) : Prop :=
  ∃ config i chute, token = some configId ∧ db.configs configId = some config ∧
    config.verifiedAt ≠ none ∧ db.instanceOf configId = some i ∧
      db.chutes i.chuteId = some chute ∧ args.isPrivate chute ∧
        args.canScale (db.activeCount chute.chuteId) = false

/-- A handler that raises before any commit has done nothing. -/
theorem agrees_of_raise {working : Db} {e : Exc} :
    Agrees db (close ((⟨db, working, []⟩ : Conn Db Event), (.error e : Except Exc Unit))) :=
  agrees_of_kept (fun _ => Iff.rfl) rfl fun _ => List.not_mem_nil

/-- The update of the config leaves the instances. -/
@[simp] theorem updateConfig_instanceOf {f : LaunchConfig → LaunchConfig} (id : String) :
    (db.updateConfig configId f).instanceOf id = db.instanceOf id := rfl

@[simp] theorem updateConfig_chutes {f : LaunchConfig → LaunchConfig} :
    (db.updateConfig configId f).chutes = db.chutes := rfl

@[simp] theorem updateConfig_activeCount {f : LaunchConfig → LaunchConfig} (chuteId : ChuteId) :
    (db.updateConfig configId f).activeCount chuteId = db.activeCount chuteId := rfl

theorem activate_agrees_iff (args : ActivateArgs) :
    Agrees db ((activateLaunchConfigInstance args configId token).run db) ↔
      ¬ CapRefuses args configId token db := by
  refine run_of_post (P := fun o => Agrees db o ↔ ¬ CapRefuses args configId token db) ?_
  unfold activateLaunchConfigInstance
  rw [post_bind]
  refine post_loadLaunchConfig (fun hnone e => ?_) fun config htoken hconfig => ?_
  · refine iff_of_true agrees_of_raise ?_
    rintro ⟨config, i, chute, htoken, hconfig, -⟩
    rw [hnone htoken] at hconfig
    cases hconfig
  · replace hconfig : db.configs configId = some config := hconfig
    refine post_ite.2 ⟨fun hverified => ?_, fun hverified => ?_⟩
    · refine iff_of_true agrees_of_raise ?_
      simp [CapRefuses, hconfig, hverified]
    · rw [post_read_bind, updateConfig_instanceOf]
      cases hi : db.instanceOf configId with
      | none =>
        refine iff_of_true agrees_of_raise ?_
        simp [CapRefuses, hi]
      | some i =>
        rw [updateConfig_chutes]
        dsimp only
        cases hchute : db.chutes i.chuteId with
        | none =>
          refine iff_of_true agrees_of_raise ?_
          simp [CapRefuses, hi, hchute]
        | some chute =>
          have hrefuses : CapRefuses args configId token db ↔
              args.isPrivate chute ∧ args.canScale (db.activeCount chute.chuteId) = false := by
            simp [CapRefuses, htoken, hconfig, hverified, hi, hchute]
          rw [hrefuses]
          refine post_ite.2 ⟨fun hcap => ?_, fun hcap => ?_⟩
          · -- The deletion is rolled back, and the event stays.
            refine iff_of_false ?_ (not_not_intro hcap)
            exact not_agrees (has_of_instanceOf hi) (List.mem_singleton_self _)
          · refine post_ite.2 ⟨fun _ => ?_, fun _ => ?_⟩
            · refine iff_of_true ?_ hcap
              exact agrees_of_kept (fun _ => Iff.rfl) rfl fun _ => List.not_mem_nil
            · refine iff_of_true ?_ hcap
              refine agrees_of_kept (fun id => ?_) rfl fun _ h => ?_
              · exact has_updateInstance fun _ => rfl
              · cases List.mem_singleton.1 h

/-- **The verification gets to the ports, and one of them is closed.** -/
def PortsFail (args : VerifyArgs) (configId : String) (token : Option String) (db : Db) : Prop :=
  ∃ config start i estimate, token = some configId ∧ db.configs configId = some config ∧
    config.verifiedAt = none ∧ config.failedAt = none ∧ config.retrievedAt = some start ∧
      db.instanceOf configId = some i ∧ args.estimate i = some estimate ∧
        args.timeError configId i start estimate = none ∧ args.isJson ∧
          args.responseError configId i = none ∧ args.proofError configId i = none ∧
            args.filesystem = .ok none ∧ i.job ≠ none ∧ args.closedPort i ≠ none

/-- **A check that fails** deletes the instance, commits and publishes; one
that does not leaves everything as it is. -/
theorem post_failOn {i : Instance} {now : ℚ} {reason : Option String} {c : Conn Db Event}
    {k : Unit → Handler Db Event Unit} {Q : Conn Db Event × Except Exc Unit → Prop}
    (hfail : ∀ text, reason = some text → ∀ f, let failed := ((c.working.updateConfig configId
      f).deleteInstance i.instanceId).setDeletionReason i.instanceId text
      Q (⟨failed, failed, c.published ++ [.deleted i.instanceId]⟩, .error (.http 403 text)))
    (hpass : reason = none → Post (k ()) c Q) :
    Post (failOn configId i now reason >>= k) c Q := by
  cases reason with
  | none => exact hpass rfl
  | some text => exact hfail text rfl _

theorem filesystemError_eq_none {i : Instance} {mismatch : Option String} :
    filesystemError configId i mismatch = none ↔ mismatch = none := by
  simp [filesystemError]

theorem verify_agrees_iff (args : VerifyArgs) :
    Agrees db ((verifyLaunchConfigInstance args configId token).run db) ↔
      ¬ PortsFail args configId token db := by
  refine run_of_post (P := fun o => Agrees db o ↔ ¬ PortsFail args configId token db) ?_
  unfold verifyLaunchConfigInstance
  rw [post_bind]
  refine post_loadLaunchConfig (fun hnone e => ?_) fun config htoken hconfig => ?_
  · refine iff_of_true agrees_of_raise ?_
    rintro ⟨config, start, i, estimate, htoken, hconfig, -⟩
    rw [hnone htoken] at hconfig
    cases hconfig
  · replace hconfig : db.configs configId = some config := hconfig
    refine post_ite.2 ⟨fun hverified => ?_, fun hverified => ?_⟩
    · refine iff_of_true agrees_of_raise ?_
      simp [PortsFail, hconfig, hverified]
    · replace hverified : config.verifiedAt = none := by simpa using hverified
      cases hfailed : config.failedAt with
      | some failedAt =>
        refine iff_of_true agrees_of_raise ?_
        simp [PortsFail, hconfig, hfailed]
      | none =>
        cases hstart : config.retrievedAt with
        | none =>
          refine iff_of_true agrees_of_raise ?_
          simp [PortsFail, hconfig, hstart]
        | some start =>
          dsimp only
          rw [post_read_bind, updateConfig_instanceOf]
          cases hi : db.instanceOf configId with
          | none =>
            refine iff_of_true ?_ (by simp [PortsFail, hi])
            exact agrees_of_kept (fun _ => Iff.rfl) rfl fun _ => List.not_mem_nil
          | some i =>
            dsimp only
            cases hestimate : args.estimate i with
            | none =>
              refine iff_of_true agrees_of_raise ?_
              simp [PortsFail, hi, hestimate]
            | some estimate =>
              have hi' := has_of_instanceOf hi
              -- The checks that delete, commit and publish, in their order.
              refine post_failOn (fun text htime _ => ?_) fun htime => ?_
              · refine iff_of_true (agrees_of_deleted hi' rfl rfl rfl) ?_
                simp [PortsFail, hconfig, hstart, hi, hestimate, htime]
              refine post_ite.2 ⟨fun hjson => ?_, fun hjson => ?_⟩
              · refine iff_of_true agrees_of_raise ?_
                simp [PortsFail, hjson]
              refine post_failOn (fun text hresponse _ => ?_) fun hresponse => ?_
              · refine iff_of_true (agrees_of_deleted hi' rfl rfl rfl) ?_
                simp [PortsFail, hi, hresponse]
              refine post_failOn (fun text hproof _ => ?_) fun hproof => ?_
              · refine iff_of_true (agrees_of_deleted hi' rfl rfl rfl) ?_
                simp [PortsFail, hi, hproof]
              cases hfilesystem : args.filesystem with
              | error e =>
                refine iff_of_true agrees_of_raise ?_
                simp [PortsFail, hfilesystem]
              | ok mismatch =>
                refine post_failOn (fun text hmismatch _ => ?_) fun hmismatch => ?_
                · refine iff_of_true (agrees_of_deleted hi' rfl rfl rfl) ?_
                  have hne : mismatch ≠ none := by
                    rintro rfl
                    cases hmismatch
                  simp [PortsFail, hfilesystem, hne]
                obtain rfl := filesystemError_eq_none.1 hmismatch
                rw [post_execute_bind]
                have hports : PortsFail args configId token db ↔
                    i.job ≠ none ∧ args.closedPort i ≠ none := by
                  simp [PortsFail, htoken, hconfig, hverified, hfailed, hstart, hi, hestimate,
                    htime, hjson, hresponse, hproof, hfilesystem]
                rw [hports]
                rcases hjob : i.job with _ | job
                · refine iff_of_true ?_ (by simp)
                  exact agrees_of_kept (fun _ => has_updateInstance fun _ => rfl) rfl
                    fun _ h => (by cases List.mem_singleton.1 h)
                · rcases hport : args.closedPort i with _ | p
                  · refine iff_of_true ?_ (by simp)
                    exact agrees_of_kept (fun _ => has_updateInstance fun _ => rfl) rfl
                      fun _ h => (by cases List.mem_singleton.1 h)
                  · -- Nothing has been deleted by now.
                    refine iff_of_false ?_ (by simp)
                    exact not_agrees hi' (List.mem_singleton_self _)

/-! ## The law -/

/-- A request with the token of a launch config. -/
inductive Request
  | activate (args : ActivateArgs)
  | verify (args : VerifyArgs)

def Request.handle (configId : String) (token : Option String) : Request → Handler Db Event Unit
  | .activate args => activateLaunchConfigInstance args configId token
  | .verify args => verifyLaunchConfigInstance args configId token

/-- The two branches that announce a deletion and do not commit one. -/
def Request.Misreports (configId : String) (token : Option String) (db : Db) : Request → Prop
  | .activate args => CapRefuses args configId token db
  | .verify args => PortsFail args configId token db

/-- **The broadcast agrees with the database**, whatever the state and the
request, exactly where neither branch is taken. -/
theorem agrees_iff (r : Request) (configId : String) (token : Option String) (db : Db) :
    Agrees db ((r.handle configId token).run db) ↔ ¬ r.Misreports configId token db := by
  cases r with
  | activate args => exact activate_agrees_iff args
  | verify args => exact verify_agrees_iff args

section

private def privateChute : Chute where
  chuteId := "c"
  userId := "u"
  name := "mine"
  isPublic := false
  standardTemplate := none
  concurrency := none
  discount := none
  createdAt := 1757520000

/-- An instance that is active, and verified. -/
private def activeInstance : Db where
  configs configId := if configId = "l" then some { verifiedAt := some 0 } else none
  instances := [{
    instanceId := "i", configId := some "l", chuteId := "c", minerHotkey := "5Miner"
    active := true, verified := true }]
  chutes chuteId := if chuteId = "c" then some privateChute else none
  deletionReason _ := none

/-- **An active instance is announced as deleted**: its miner activates it
again, and it is over the cap that it fills itself. -/
theorem not_agrees_active : ¬ ∀ (r : Request) (configId : String) (token : Option String) (db : Db),
    Agrees db ((r.handle configId token).run db) := by
  intro h
  have hagrees := h (.activate ⟨60, 1, false, "chutes"⟩) "l" (some "l") activeInstance
  refine absurd hagrees (mt (activate_agrees_iff _).1 (not_not_intro ?_))
  exact ⟨_, _, privateChute, rfl, rfl, by simp, rfl, rfl, by decide +kernel, by decide +kernel⟩

end

end Activate

end ChutesApi
