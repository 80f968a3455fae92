import ChutesApi.Common.Dict
import ChutesApi.User.Model
import Mathlib.Data.List.TakeWhile
/-!
# The rolling updates of an upgraded image

`update_chutes_lib` creates a rolling update for the chutes of an image and
counts their instances by miner in one dict, which it neither resets nor
copies from chute to chute. All the updates refer to that dict, and it is
written only with the commit: each of them has the numbers of all the
chutes, and a chute without instances gets one as well if it comes after
one that has some. `perChute_iff` says when the numbers are right.
-/

namespace ChutesApi

namespace LibUpdate

/-- What both paths read of an instance. -/
structure Instance where
  minerHotkey : String
  deriving DecidableEq, Repr

/-- A chute with its instances. -/
structure Chute where
  chuteId : ChuteId
  version : String
  instances : List Instance
  deriving DecidableEq, Repr

/-- `permitted`, by hotkey. -/
abbrev Permitted := Dict String ℕ

/-- A row of `rolling_updates`, but for its key. -/
structure RollingUpdate where
  oldVersion : String
  newVersion : String
  permitted : Permitted
  deriving DecidableEq

/-- The body of the loop over the instances. -/
def tally (permitted : Permitted) (inst : Instance) : Permitted :=
  let permitted :=
    if inst.minerHotkey ∉ permitted.keys then permitted.set inst.minerHotkey 0 else permitted
  permitted.set inst.minerHotkey ((permitted.get? inst.minerHotkey).getD 0 + 1)

/-! ## A redeploy -/

/-- The numbers of `_deploy_chute`. -/
def permittedOf (chute : Chute) : Permitted := chute.instances.foldl tally .empty

/-! ## An upgrade of the library -/

/-- The state of the loop over the chutes. -/
structure Loop where
  rows : Dict ChuteId RollingUpdate
  permitted : Permitted
  affectedChuteIds : List ChuteId := []
  /-- The chutes whose new rolling updates wait for the commit. -/
  added : List Chute := []

/-- The body of the loop. Its `DELETE` is text, which does not flush the
session. -/
def visit (loop : Loop) (chute : Chute) : Loop :=
  let permitted := chute.instances.foldl tally loop.permitted
  { rows := loop.rows.pop chute.chuteId
    permitted := permitted
    affectedChuteIds := loop.affectedChuteIds ++ [chute.chuteId]
    added := if permitted.items ≠ [] then loop.added ++ [chute] else loop.added }

/-- The commit, which writes the dict as it is then. -/
def Loop.commit (loop : Loop) : Dict ChuteId RollingUpdate :=
  loop.added.foldl
    (fun rows chute => rows.set chute.chuteId ⟨chute.version, chute.version, loop.permitted⟩)
    loop.rows

/-- **`update_chutes_lib`**: what it leaves in `rolling_updates`, with the
chutes in the order of the query. -/
def updateChutesLib (rows : Dict ChuteId RollingUpdate) (chutes : List Chute) :
    Dict ChuteId RollingUpdate :=
  (chutes.foldl visit { rows := rows, permitted := .empty }).commit

/-- **Each chute has its own numbers**, those of a redeploy, and a chute
without instances has no rolling update. -/
def PerChute (rows : Dict ChuteId RollingUpdate) (chutes : List Chute) : Prop :=
  ∀ chute ∈ chutes,
    (chute.instances = [] → rows.get? chute.chuteId = none) ∧
      (chute.instances ≠ [] → ∃ update, rows.get? chute.chuteId = some update ∧
        ∀ hotkey, update.permitted.get? hotkey = (permittedOf chute).get? hotkey)

variable {rows : Dict ChuteId RollingUpdate} {chute : Chute} {chutes : List Chute}
variable {permitted : Permitted} {instances : List Instance} {hotkey : String} {loop : Loop}

/-! ## Counting by hotkey -/

/-- The instances of a miner. -/
def ofMiner (hotkey : String) (instances : List Instance) : ℕ :=
  instances.countP (·.minerHotkey = hotkey)

theorem get?_tally {inst : Instance} : (tally permitted inst).get? hotkey =
    if hotkey = inst.minerHotkey then some ((permitted.get? hotkey).getD 0 + 1)
    else permitted.get? hotkey := by
  unfold tally
  by_cases hmem : inst.minerHotkey ∈ permitted.keys
  · rw [if_neg (not_not.2 hmem), Dict.get?_set]
    split
    · next h => rw [h]
    · rfl
  · have hnone : permitted.get? inst.minerHotkey = none := Dict.get?_eq_none.2 hmem
    rw [if_pos hmem, Dict.get?_set, Dict.get?_set, Dict.get?_set]
    split
    · next h => simp [h, hnone]
    · rfl

/-- **What the loop over the instances adds** to the number of a miner. -/
theorem get?_foldl_tally : (instances.foldl tally permitted).get? hotkey =
    if ofMiner hotkey instances = 0 then permitted.get? hotkey
    else some ((permitted.get? hotkey).getD 0 + ofMiner hotkey instances) := by
  induction instances generalizing permitted with
  | nil => rfl
  | cons inst instances ih =>
    rw [List.foldl_cons, ih, get?_tally]
    by_cases hh : inst.minerHotkey = hotkey
    · have hcount : ofMiner hotkey (inst :: instances) = ofMiner hotkey instances + 1 := by
        simp [ofMiner, hh]
      rw [hcount, if_pos hh.symm]
      split
      · next h => simp [h]
      · rw [Option.getD_some]
        congr 1
        omega
    · have hcount : ofMiner hotkey (inst :: instances) = ofMiner hotkey instances := by
        simp [ofMiner, hh]
      rw [hcount, if_neg (Ne.symm hh)]

/-- The number of a miner is that of its instances. -/
theorem get?_tallied : (instances.foldl tally .empty).get? hotkey =
    if ofMiner hotkey instances = 0 then none else some (ofMiner hotkey instances) := by
  rw [get?_foldl_tally]
  simp

theorem items_tallied_eq_nil : (instances.foldl tally .empty).items = [] ↔ instances = [] := by
  constructor
  · intro h
    rcases instances with _ | ⟨inst, instances⟩
    · rfl
    · have hnone : ((inst :: instances).foldl tally .empty).get? inst.minerHotkey = none := by
        rw [Dict.get?_eq_none, Dict.keys, h]
        exact List.not_mem_nil
      rw [get?_tallied] at hnone
      simp [ofMiner] at hnone
  · rintro rfl
    rfl

theorem ofMiner_append (hotkey : String) (instances instances' : List Instance) :
    ofMiner hotkey (instances ++ instances') =
      ofMiner hotkey instances + ofMiner hotkey instances' :=
  List.countP_append

/-! ## The loop over the chutes -/

/-- All the instances so far are in the one dict. -/
theorem permitted_foldl_visit :
    (chutes.foldl visit loop).permitted =
      (chutes.flatMap (·.instances)).foldl tally loop.permitted := by
  induction chutes generalizing loop with
  | nil => rfl
  | cons chute chutes ih =>
    rw [List.foldl_cons, ih, List.flatMap_cons, List.foldl_append]
    rfl

theorem get?_rows_foldl_visit {id : ChuteId} :
    (chutes.foldl visit loop).rows.get? id =
      if id ∈ chutes.map Chute.chuteId then none else loop.rows.get? id := by
  induction chutes generalizing loop with
  | nil => simp
  | cons chute chutes ih =>
    rw [List.foldl_cons, ih, List.map_cons]
    have hrows : (visit loop chute).rows = loop.rows.pop chute.chuteId := rfl
    rw [hrows, Dict.get?_pop]
    by_cases hid : id = chute.chuteId <;> simp [hid]

/-- **Which chutes get a rolling update**: once an instance has been counted,
all of them do. -/
theorem added_foldl_visit {before : List Instance}
    (h : loop.permitted = before.foldl tally .empty) :
    (chutes.foldl visit loop).added =
      loop.added ++ if before = [] then chutes.dropWhile (·.instances = []) else chutes := by
  induction chutes generalizing loop before with
  | nil => simp
  | cons chute chutes ih =>
    have hvisit : (visit loop chute).permitted =
        (before ++ chute.instances).foldl tally .empty := by
      rw [List.foldl_append, ← h]
      rfl
    have hadded : (visit loop chute).added =
        if before ++ chute.instances = [] then loop.added else loop.added ++ [chute] := by
      have hitems : (chute.instances.foldl tally loop.permitted).items = [] ↔
          before ++ chute.instances = [] := by
        rw [h, ← List.foldl_append, items_tallied_eq_nil]
      simp only [visit, ne_eq, hitems, ite_not]
    rw [List.foldl_cons, ih hvisit, hadded]
    by_cases hbefore : before = []
    · by_cases hinst : chute.instances = []
      · simp [hbefore, hinst]
      · simp [hbefore, hinst]
    · simp [hbefore]

/-- The chutes from the first one with instances on. -/
def fromFirst (chutes : List Chute) : List Chute := chutes.dropWhile (·.instances = [])

/-- A chute is found by its id in any part of the list. -/
theorem find?_chuteId {part : List Chute} (hdistinct : (chutes.map Chute.chuteId).Nodup)
    (hsub : part.Sublist chutes) (hchute : chute ∈ chutes) :
    part.find? (fun c => c.chuteId = chute.chuteId) =
      if chute ∈ part then some chute else none := by
  rcases hfind : part.find? (fun c => c.chuteId = chute.chuteId) with _ | found
  · have hnot : chute ∉ part := fun hmem =>
      List.find?_eq_none.1 hfind chute hmem (decide_eq_true rfl)
    rw [hfind, if_neg hnot]
  · have hid : found.chuteId = chute.chuteId := by simpa using List.find?_some hfind
    have hmem := List.mem_of_find?_eq_some hfind
    obtain rfl := List.inj_on_of_nodup_map hdistinct (hsub.subset hmem) hchute hid
    rw [hfind, if_pos hmem]

/-- **What the upgrade leaves for a chute of the image**: an update with the
numbers of all the chutes, if the chute is not before the first one that
has instances. -/
theorem get?_updateChutesLib (hdistinct : (chutes.map Chute.chuteId).Nodup)
    (hchute : chute ∈ chutes) :
    (updateChutesLib rows chutes).get? chute.chuteId =
      if chute ∈ fromFirst chutes then
        some ⟨chute.version, chute.version, (chutes.flatMap (·.instances)).foldl tally .empty⟩
      else none := by
  have hadded : (chutes.foldl visit { rows := rows, permitted := .empty }).added =
      fromFirst chutes :=
    @added_foldl_visit chutes { rows := rows, permitted := .empty } [] rfl
  have hsub : (fromFirst chutes).Sublist chutes := List.dropWhile_sublist _
  have hkeys : ((fromFirst chutes).map Chute.chuteId).Nodup := hdistinct.sublist (hsub.map _)
  rw [updateChutesLib, Loop.commit, hadded, Dict.get?_foldl_set hkeys, permitted_foldl_visit,
    get?_rows_foldl_visit, if_pos (List.mem_map_of_mem hchute), Option.or_none]
  split
  · next hmem => rw [find?_chuteId hdistinct hsub hchute, if_pos hmem, Option.map_some]
  · next hmem => rw [find?_chuteId hdistinct hsub hchute, if_neg hmem, Option.map_none]

/-! ## When the numbers are right -/

theorem get?_permittedOf : (permittedOf chute).get? hotkey =
    if ofMiner hotkey chute.instances = 0 then none else some (ofMiner hotkey chute.instances) :=
  get?_tallied

/-- The same numbers are the same counts. -/
theorem ofMiner_eq_of_get? {others : List Instance}
    (h : (others.foldl tally .empty).get? hotkey = (permittedOf chute).get? hotkey) :
    ofMiner hotkey others = ofMiner hotkey chute.instances := by
  rw [get?_tallied, get?_permittedOf] at h
  split_ifs at h with h1 h2 h2
  · rw [h1, h2]
  · exact Option.some.inj h

/-- The numbers of a chute and others are those of the chute only if the
others have no instances. -/
theorem eq_nil_of_ofMiner {others : List Instance}
    (h : ∀ hotkey, ofMiner hotkey (chute.instances ++ others) = ofMiner hotkey chute.instances) :
    others = [] := by
  rcases others with _ | ⟨inst, others⟩
  · rfl
  · have hone := h inst.minerHotkey
    have hpos : 0 < ofMiner inst.minerHotkey (inst :: others) := by simp [ofMiner]
    rw [ofMiner_append] at hone
    omega

/-- The instances are those of the chutes that get an update. -/
theorem flatMap_fromFirst (chutes : List Chute) :
    (fromFirst chutes).flatMap (·.instances) = chutes.flatMap (·.instances) := by
  induction chutes with
  | nil => rfl
  | cons chute chutes ih =>
    by_cases hinst : chute.instances = []
    · have hdrop : fromFirst (chute :: chutes) = fromFirst chutes := by simp [fromFirst, hinst]
      rw [hdrop, ih, List.flatMap_cons, hinst, List.nil_append]
    · have hkeep : fromFirst (chute :: chutes) = chute :: chutes := by simp [fromFirst, hinst]
      rw [hkeep]

theorem instances_eq_nil (hchute : chute ∈ chutes) (hnot : chute ∉ fromFirst chutes) :
    chute.instances = [] := by
  rw [← List.takeWhile_append_dropWhile (p := fun c : Chute => c.instances = []) (l := chutes),
    List.mem_append] at hchute
  simpa using List.mem_takeWhile_imp (hchute.resolve_right hnot)

theorem instances_ne_nil {rest : List Chute} (h : fromFirst chutes = chute :: rest) :
    chute.instances ≠ [] := by
  have hhead := List.head?_dropWhile_not (fun c : Chute => c.instances = []) chutes
  have hsome : (chutes.dropWhile fun c => c.instances = []).head? = some chute := by
    rw [← fromFirst, h]
    rfl
  rw [hsome] at hhead
  simpa using hhead

/-- **Exactly when each chute has its own numbers**: in the order of the
query, no chute follows the first one that has instances. -/
theorem perChute_iff (hdistinct : (chutes.map Chute.chuteId).Nodup) :
    PerChute (updateChutesLib rows chutes) chutes ↔ (fromFirst chutes).length ≤ 1 := by
  have hmem : ∀ {c}, c ∈ fromFirst chutes → c ∈ chutes := fun h =>
    (List.dropWhile_sublist _).subset h
  constructor
  · intro h
    rcases hfirst : fromFirst chutes with _ | ⟨c, _ | ⟨d, rest⟩⟩
    · simp
    · simp
    · exfalso
      have hc : c ∈ fromFirst chutes := by simp [hfirst]
      have hd : d ∈ fromFirst chutes := by simp [hfirst]
      obtain ⟨update, hupdate, hnumbers⟩ := (h c (hmem hc)).2 (instances_ne_nil hfirst)
      rw [get?_updateChutesLib hdistinct (hmem hc), if_pos hc] at hupdate
      obtain rfl := Option.some.inj hupdate
      -- the dict has the instances of the second chute as well
      have hcounts : ∀ hotkey, ofMiner hotkey (c.instances ++ (d :: rest).flatMap (·.instances)) =
          ofMiner hotkey c.instances := fun hotkey => by
        have hall := ofMiner_eq_of_get? (hnumbers hotkey)
        rwa [← flatMap_fromFirst, hfirst, List.flatMap_cons] at hall
      have hothers := eq_nil_of_ofMiner hcounts
      rw [List.flatMap_cons, List.append_eq_nil_iff] at hothers
      -- and if it has none, it should have no update
      have hnone := (h d (hmem hd)).1 hothers.1
      rw [get?_updateChutesLib hdistinct (hmem hd), if_pos hd] at hnone
      cases hnone
  · intro hlen chute hchute
    rw [get?_updateChutesLib hdistinct hchute]
    by_cases hfrom : chute ∈ fromFirst chutes
    · obtain ⟨c, hfirst⟩ : ∃ c, fromFirst chutes = [c] :=
        List.length_eq_one_iff.1 (le_antisymm hlen (List.length_pos_of_mem hfrom))
      have hsame : chute = c := by simpa [hfirst] using hfrom
      rw [if_pos hfrom, ← flatMap_fromFirst, hfirst, ← hsame]
      refine ⟨fun hnil => absurd hnil (instances_ne_nil (hsame ▸ hfirst)), fun _ => ⟨_, rfl, ?_⟩⟩
      intro hotkey
      simp [permittedOf]
    · rw [if_neg hfrom]
      exact ⟨fun _ => rfl, fun hne => absurd (instances_eq_nil hchute hfrom) hne⟩

/-- One miner runs two chutes of the image. -/
private def twoChutes : List Chute := [⟨"a", "1", [⟨"5H"⟩]⟩, ⟨"b", "1", [⟨"5H"⟩]⟩]

/-- **Two instances are permitted for each chute**, though each has one. -/
theorem not_perChute :
    ¬ ∀ (rows : Dict ChuteId RollingUpdate) (chutes : List Chute),
      (chutes.map Chute.chuteId).Nodup → PerChute (updateChutesLib rows chutes) chutes := by
  intro h
  obtain ⟨update, hupdate, hnumbers⟩ :=
    (h .empty twoChutes (by decide) ⟨"a", "1", [⟨"5H"⟩]⟩ (by decide)).2 (by decide)
  have hget : (updateChutesLib .empty twoChutes).get? "a" =
      some ⟨"1", "1", ⟨[("5H", 2)], by decide⟩⟩ := by decide
  obtain rfl := Option.some.inj (hget.symm.trans hupdate)
  exact absurd (hnumbers "5H") (by decide)

theorem perChute_iff_twoChutes :
    (twoChutes.map Chute.chuteId).Nodup ∧
      (PerChute (updateChutesLib .empty twoChutes) twoChutes ↔
        (fromFirst twoChutes).length ≤ 1) :=
  ⟨by decide, perChute_iff (by decide)⟩

end LibUpdate

end ChutesApi
