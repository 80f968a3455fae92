import ChutesApi.Chute.Model
import ChutesApi.Common.Like
import ChutesApi.Common.Select
import Mathlib.Data.List.TakeWhile
/-!
# Looking a chute up by its id or name

`get_one`, `get_chute_by_id_or_name` and the handlers that share and deploy a
chute each look a chute up by one text that is an id or a name. `get_one`
compares; the others give the text to `ILIKE`, where an underscore, which a
name may have, stands for any character. `ExactLookups` says that they select
only what the text names, and what it is the id of; `exact_iff_unambiguous`
says of which chutes and texts they do, and `unambiguous_of_plain` that a text
without a wildcard is one of them.
-/

namespace ChutesApi

namespace ChuteLookup

open Python Select Like

/-! ## Names -/

/-- `[a-z]` where the case is ignored: four letters outside ASCII fold to one
of it. -/
def isLetter (c : Char) : Bool :=
  ('a' ≤ c && c ≤ 'z') || ('A' ≤ c && c ≤ 'Z') || [0x130, 0x131, 0x17F, 0x212A].contains c.toNat

/-- `[a-z0-9]`. -/
def isStart (c : Char) : Bool := isLetter c || isDecimal c

/-- `[a-zA-Z0-9_\.-]`. -/
def isSegmentChar (c : Char) : Bool := isStart c || c = '_' || c = '.' || c = '-'

/-- A character after the first of a name, which may be a slash. -/
def isNameChar (c : Char) : Bool := isSegmentChar c || c = '/'

/-- The pattern of a name: a letter or digit, and any more characters. -/
def isBody : List Char → Bool
  | [] => false
  | c :: cs => isStart c && cs.all isNameChar

/-- What is in front of `$`, which a last line feed may follow. -/
def beforeDollar (cs : List Char) : List Char :=
  if cs.getLast? = some '\n' then cs.dropLast else cs

/-- `Chute.validate_name`. The segments in front of the first that starts as
a body does are not empty. -/
def validateName (name : String) : Bool :=
  let cs := beforeDollar name.toList
  let segment := (cs.splitOn '/').find? fun s => s.isEmpty || s.head?.any isStart
  cs.all isNameChar && segment.any (!·.isEmpty) && name.toList.length < 128

/-- `validate_the_username`. -/
def validateTheUsername (username : String) : Bool :=
  let cs := beforeDollar username.toList
  3 ≤ cs.length && cs.length ≤ 15 && cs.all fun c =>
    ('a' ≤ c && c ≤ 'z') || ('A' ≤ c && c ≤ 'Z') || isDecimal c || c = '_' || c = '-'

/-- A digit of `str(uuid)`. -/
def isUuidDigit (c : Char) : Bool := isDecimal c || ('a' ≤ c && c ≤ 'f')

/-- A text of the form of `str(uuid.uuid5(..))`. -/
def isUuidText (s : String) : Bool :=
  s.toList.length = 36 &&
    s.toList.zipIdx.all fun e => if [8, 13, 18, 23].contains e.2 then e.1 = '-' else isUuidDigit e.1

/-! ## The tables -/

/-- A row of `chute_shares`. -/
structure ChuteShare where
  chuteId : ChuteId
  sharedTo : UserId
  deriving DecidableEq

/-- **The tables**, whose rows are as the models validate them, and what
`chutes_user_id` has found. -/
structure Store where
  users : Users
  chutes : List Chute
  shares : List ChuteShare
  chutesUserId : Option UserId
  validUsers : ∀ u ∈ users.rows, validateTheUsername u.username
  distinctNames : (users.rows.map User.username).Nodup
  validChutes : ∀ c ∈ chutes, isUuidText c.chuteId ∧ validateName c.name
  distinctIds : (chutes.map Chute.chuteId).Nodup
  owned : ∀ c ∈ chutes, ∃ u ∈ users.rows, u.userId = c.userId

variable (fold : Char → Char) (store : Store)

/-- `select(Chute).where(Chute.user_id == user.user_id)`. -/
def Store.ownedBy (user : User) : List Chute :=
  store.chutes.filter fun chute => chute.userId == user.userId

/-- The join's condition `User.username == username`. -/
def Store.ownerIs (username : String) (chute : Chute) : Bool :=
  store.users.rows.any fun u => u.userId == chute.userId && u.username == username

/-- `select(Chute).join(User)`. -/
def Store.joined : List Chute :=
  store.chutes.filter fun chute => store.users.rows.any (·.userId == chute.userId)

/-- The permissions check of `get_chute_by_id_or_name`. -/
def Store.permits (currentUser : Option User) (chute : Chute) : Bool :=
  match currentUser with
  | some user =>
    chute.isPublic || chute.userId == user.userId ||
      store.shares.contains ⟨chute.chuteId, user.userId⟩ || ilike fold chute.name "%/affine%"
  | none => chute.isPublic || ilike fold chute.name "%/affine%"

/-- The chutes a user may invoke. -/
def Store.visible (currentUser : Option User) : List Chute :=
  store.joined.filter (store.permits fold currentUser)

/-! ## The lookups -/

/-- `Chute.user_id == user_id`, which holds of no chute where that is null. -/
def isOf (userId : Option UserId) (chute : Chute) : Bool := userId == some chute.userId

/-- `get_one`. -/
def getOne (nameOrId : String) (pick : ℕ) : Except Exc (Option Chute) :=
  let found := store.chutes.filter fun c => c.name == nameOrId || c.chuteId == nameOrId
  scalarOneOrNone (limitOne (isOf store.chutesUserId) found pick)

/-- `s.lstrip("/")`. -/
def stripSlashes (s : String) : String := .ofList (s.toList.dropWhile (· == '/'))

/-- The groups of `name_match`, on a text that starts with no slash: the user
name, if there is one, and the name. -/
def nameMatch (s : String) : Option (Option String × String) :=
  let cs := beforeDollar s.toList
  let username := cs.takeWhile (· != '/')
  let rest := (cs.dropWhile (· != '/')).tail
  if 3 ≤ username.length ∧ username.length ≤ 15 ∧ username.all isSegmentChar ∧ isBody rest then
    some (some (.ofList username), .ofList rest)
  else if isBody cs then some (none, .ofList cs)
  else none

/-- The `conditions` of `get_chute_by_id_or_name`, of which one has to hold. -/
def conditions (currentUser : Option User) (username : Option String)
    (chuteIdOrName chuteName : String) (chute : Chute) : Bool :=
  let named := ilike fold chute.name
  let ofUser := match currentUser with
    | some user =>
      (store.ownerIs user.username chute && named chuteName) ||
        (store.ownerIs user.username chute && named chuteIdOrName)
    | none => false
  let ofUsername := match username with
    | some username => username != "" && store.ownerIs username chute && named chuteName
    | none => false
  chute.chuteId == chuteIdOrName || named chuteIdOrName || named chuteName || ofUser ||
    ofUsername || (named chuteIdOrName && chute.isPublic) || (named chuteName && chute.isPublic) ||
    (chute.chuteId == chuteIdOrName && chute.isPublic)

/-- Whose chutes come first. -/
def userSortId (currentUser : Option User) : Option UserId :=
  match currentUser with
  | some user => some user.userId
  | none => store.chutesUserId

/-- `get_chute_by_id_or_name`. -/
def getChuteByIdOrName (chuteIdOrName : String) (currentUser : Option User) (pick : ℕ) :
    Except Exc (Option Chute) :=
  if chuteIdOrName = "" then .ok none
  else
    let chuteIdOrName := stripSlashes chuteIdOrName
    match nameMatch chuteIdOrName with
    | none => .ok none
    | some (username, chuteName) =>
      let username := username.or (currentUser.map User.username)
      let found := (store.visible fold currentUser).filter
        (conditions fold store currentUser username chuteIdOrName chuteName)
      scalarOneOrNone (limitOne (isOf (userSortId store currentUser)) found pick)

/-- The chute `share_chute` shares. -/
def shareChute (chuteIdOrName : String) (currentUser : User) : Except Exc (Option Chute) :=
  scalarOneOrNone ((store.ownedBy currentUser).filter fun c =>
    ilike fold c.name chuteIdOrName || c.chuteId == chuteIdOrName)

/-- The user `share_chute` shares it with. -/
def shareUser (userIdOrName : String) : Except Exc (Option User) :=
  scalarOneOrNone (store.users.rows.filter fun u =>
    ilike fold u.username userIdOrName || u.userId == userIdOrName)

/-- The chute `_deploy_chute` takes for the one it is given. -/
def deployChute (name : String) (currentUser : User) : Except Exc (Option Chute) :=
  scalarOneOrNone ((store.ownedBy currentUser).filter fun c => ilike fold c.name name)

/-! ## What an id is as a text -/

theorem mem_of_isUuidText {s : String} (h : isUuidText s) {c : Char} (hc : c ∈ s.toList) :
    isUuidDigit c ∨ c = '-' := by
  rw [isUuidText, Bool.and_eq_true, List.all_eq_true] at h
  obtain ⟨i, hi, rfl⟩ := List.getElem_of_mem hc
  have hmem : (s.toList[i], i) ∈ s.toList.zipIdx := List.mem_zipIdx_iff_getElem?.2 (by simp [hi])
  have hchar := h.2 _ hmem
  split at hchar
  · exact .inr (by simpa using hchar)
  · exact .inl hchar

/-- It starts with a digit. -/
theorem exists_of_isUuidText {s : String} (h : isUuidText s) :
    ∃ c cs, s.toList = c :: cs ∧ isUuidDigit c := by
  rw [isUuidText, Bool.and_eq_true, List.all_eq_true, decide_eq_true_eq] at h
  obtain ⟨hlen, hall⟩ := h
  cases hs : s.toList with
  | nil => simp [hs] at hlen
  | cons c cs =>
    have hchar := hall (c, 0) (by simp [hs])
    exact ⟨c, cs, rfl, by simpa using hchar⟩

theorem isUuidDigit_iff {c : Char} :
    isUuidDigit c ↔ ('0' ≤ c ∧ c ≤ '9') ∨ ('a' ≤ c ∧ c ≤ 'f') := by
  simp [isUuidDigit, isDecimal]

theorem isStart_of_isUuidDigit {c : Char} (h : isUuidDigit c) : isStart c := by
  rcases isUuidDigit_iff.1 h with h | h
  · simp [isStart, isDecimal, h]
  · have hz : c ≤ 'z' := Char.le_trans h.2 (by decide)
    simp [isStart, isLetter, h.1, hz]

/-- No character of an id is one of the few that mean something else in a
text. -/
theorem ne_of_isUuidText {s : String} (h : isUuidText s) {c : Char} (hc : c ∈ s.toList) :
    c ≠ '/' ∧ c ≠ '\n' ∧ Plain c := by
  have hchar := mem_of_isUuidText h hc
  rw [isUuidDigit_iff] at hchar
  refine ⟨?_, ?_, ?_, ?_, ?_⟩ <;> rintro rfl <;> revert hchar <;> decide

theorem beforeDollar_of_ne {cs : List Char} (h : cs.getLast? ≠ some '\n') :
    beforeDollar cs = cs := by
  rw [beforeDollar, if_neg h]

/-- **An id is a text that looks a chute up as it stands**: it loses no
slashes, and all of it is the name. -/
theorem nameMatch_of_isUuidText {s : String} (h : isUuidText s) :
    stripSlashes s = s ∧ nameMatch s = some (none, s) := by
  obtain ⟨c, cs, hs, hc⟩ := exists_of_isUuidText h
  have hchar : ∀ d ∈ s.toList, d ≠ '/' ∧ d ≠ '\n' ∧ Plain d := fun d hd => ne_of_isUuidText h hd
  have hstrip : stripSlashes s = s := by
    have hslash : (c == '/') = false := by simpa using (hchar c (by simp [hs])).1
    rw [stripSlashes, hs, List.dropWhile_cons, hslash]
    simp [← hs]
  have hdollar : beforeDollar s.toList = s.toList :=
    beforeDollar_of_ne fun hlast => (hchar _ (List.mem_of_getLast? hlast)).2.1 rfl
  have hrest : s.toList.dropWhile (· != '/') = [] := by
    refine List.dropWhile_eq_nil_iff.2 fun d hd => ?_
    simpa using (hchar d hd).1
  have hbody : isBody s.toList := by
    rw [hs, isBody, Bool.and_eq_true, List.all_eq_true]
    refine ⟨isStart_of_isUuidDigit hc, fun d hd => ?_⟩
    rcases mem_of_isUuidText h (c := d) (by simp [hs, hd]) with hdigit | rfl
    · simp [isNameChar, isSegmentChar, isStart_of_isUuidDigit hdigit]
    · rfl
  refine ⟨hstrip, ?_⟩
  have hnil : isBody [] = false := rfl
  simp [nameMatch, hdollar, hrest, hnil, hbody]

/-! ## What the lookups should select -/

/-- The name is the text, or what is after the user name in it, up to the
case. -/
def IsNamed (name s : String) : Prop :=
  Same fold name s ∨ ∃ user part, s.toList = user ++ '/' :: part ∧ '/' ∉ user ∧
    name.toList.map fold = part.map fold

/-- A chute the text is the id or a name of. -/
def Wanted (s : String) (chute : Chute) : Prop := chute.chuteId = s ∨ IsNamed fold chute.name s

/-- **The lookups by `s` are exact**, and that of the user `target`. One that
is given a path takes it without its leading slashes. -/
structure ExactLookups (currentUser : Option User) (user : User) (s target : String) : Prop where
  getOne : Exactly store.chutes (Wanted fold s) (·.chuteId = s) (getOne store s)
  getChuteByIdOrName : Exactly (store.visible fold currentUser) (Wanted fold (stripSlashes s))
    (·.chuteId = s) (getChuteByIdOrName fold store s currentUser)
  shareChute : Exactly (store.ownedBy user) (Wanted fold s) (·.chuteId = s)
    fun _ => shareChute fold store s user
  deployChute : Exactly (store.ownedBy user) (Wanted fold s) (·.chuteId = s)
    fun _ => deployChute fold store s user
  shareUser : ∀ u, shareUser fold store target = .ok (some u) →
    u.userId = target ∨ Same fold u.username target

/-- **Chutes and a text of which that holds.** Of a pattern that a name
matches without being it, another row found has to keep the lookup from
selecting that one; and where the text is a chute's id, no other chute of that
name may come before it. -/
structure Unambiguous (currentUser : Option User) (user : User) (s target : String) : Prop where
  /-- `get_one` orders a chute named like the id behind. -/
  one : ∀ c ∈ store.chutes, c.chuteId = s → ∀ d ∈ store.chutes, d ≠ c → d.name = s →
    isOf store.chutesUserId c ∧ ¬isOf store.chutesUserId d
  /-- A chute the user may invoke that a pattern matches inexactly is behind
  another it finds. -/
  invoked : ∀ username name, nameMatch (stripSlashes s) = some (username, name) →
    ∀ c ∈ store.visible fold currentUser,
      Matches fold c.name (stripSlashes s) ∨ Matches fold c.name name →
      Wanted fold (stripSlashes s) c ∨ ¬isOf (userSortId store currentUser) c ∧
        ∃ d ∈ store.visible fold currentUser, (d.chuteId = stripSlashes s ∨
          Matches fold d.name (stripSlashes s) ∨ Matches fold d.name name) ∧
          isOf (userSortId store currentUser) d
  invokedId : ∀ c ∈ store.visible fold currentUser, c.chuteId = s →
    ∀ d ∈ store.visible fold currentUser, d ≠ c → Same fold d.name s →
      isOf (userSortId store currentUser) c ∧ ¬isOf (userSortId store currentUser) d
  /-- A chute the user owns that the pattern matches inexactly is not the only
  one to share. -/
  shared : ∀ c ∈ store.ownedBy user, Matches fold c.name s →
    Wanted fold s c ∨ ∃ d ∈ store.ownedBy user, d ≠ c ∧ (d.chuteId = s ∨ Matches fold d.name s)
  sharedId : ∀ c ∈ store.ownedBy user, c.chuteId = s →
    ∀ d ∈ store.ownedBy user, d ≠ c → ¬Same fold d.name s
  /-- Nor the only one to deploy. -/
  deployed : ∀ c ∈ store.ownedBy user, Matches fold c.name s →
    Wanted fold s c ∨ ∃ d ∈ store.ownedBy user, d ≠ c ∧ Matches fold d.name s
  /-- A deployment looks up names only. -/
  deployedId : ∀ c ∈ store.ownedBy user, c.chuteId = s →
    Same fold c.name s ∧ ∀ d ∈ store.ownedBy user, d ≠ c → ¬Same fold d.name s
  /-- A user whose name the pattern matches inexactly is not the only one to
  share with. -/
  target : ∀ u ∈ store.users.rows, Matches fold u.username target →
    (u.userId = target ∨ Same fold u.username target) ∨
      ∃ v ∈ store.users.rows, v ≠ u ∧ (v.userId = target ∨ Matches fold v.username target)

variable {fold store} {currentUser : Option User} {user : User} {s target : String}

/-- A chute's id is no other chute's. -/
theorem eq_of_chuteId {c d : Chute} (hc : c ∈ store.chutes) (hd : d ∈ store.chutes)
    (h : c.chuteId = d.chuteId) : c = d :=
  List.inj_on_of_nodup_map store.distinctIds hc hd h

theorem chutes_nodup : store.chutes.Nodup := store.distinctIds.of_map _

theorem mem_of_mem_visible {c : Chute} (h : c ∈ store.visible fold currentUser) :
    c ∈ store.chutes := by
  rw [Store.visible, List.mem_filter, Store.joined, List.mem_filter] at h
  exact h.1.1

theorem mem_of_mem_ownedBy {c : Chute} (h : c ∈ store.ownedBy user) : c ∈ store.chutes := by
  rw [Store.ownedBy, List.mem_filter] at h
  exact h.1

theorem ownedBy_nodup : (store.ownedBy user).Nodup := chutes_nodup.filter _

/-- An id has no wildcard, so that as a pattern it is a name. -/
theorem matches_chuteId {c : Chute} {name : String} (hc : c ∈ store.chutes) :
    Matches fold name c.chuteId ↔ Same fold name c.chuteId :=
  matches_of_plain fun _ hchar => (ne_of_isUuidText (store.validChutes c hc).1 hchar).2.2

/-! ## Each lookup by itself -/

theorem exactly_getOne_iff :
    Exactly store.chutes (Wanted fold s) (·.chuteId = s) (getOne store s) ↔
      ∀ c ∈ store.chutes, c.chuteId = s → ∀ d ∈ store.chutes, d ≠ c → d.name = s →
        isOf store.chutesUserId c ∧ ¬isOf store.chutesUserId d := by
  have hfound : ∀ c : Chute, (c.name == s || c.chuteId == s) = true ↔
      c.name = s ∨ c.chuteId = s := fun c => by
    rw [Bool.or_eq_true, beq_iff_eq, beq_iff_eq]
  unfold getOne
  rw [exactly_limitOne_iff, byId_iff (q := fun d => d.name = s)]
  · refine and_iff_right fun c _ hp => .inl ?_
    rcases (hfound c).1 hp with hname | hid
    · exact .inr (.inl (hname ▸ rfl))
    · exact .inl hid
  · intro c hc hid d hd
    rw [hfound, or_comm]
    exact or_congr_left ⟨fun h => eq_of_chuteId hd hc (h.trans hid.symm), fun h => h ▸ hid⟩

/-- The conditions ask for the id, or for one of the two patterns: the others
of them each ask for more. -/
theorem conditions_iff {username : Option String} {t name : String} {c : Chute} :
    conditions fold store currentUser username t name c ↔
      c.chuteId = t ∨ Matches fold c.name t ∨ Matches fold c.name name := by
  rw [← ilike_iff, ← ilike_iff]
  constructor
  · intro h
    by_contra hnone
    rw [not_or, not_or, Bool.not_eq_true, Bool.not_eq_true] at hnone
    obtain ⟨hid, ht, hname⟩ := hnone
    have hfalse : conditions fold store currentUser username t name c = false := by
      cases currentUser <;> cases username <;> simp [conditions, hid, ht, hname]
    rw [hfalse] at h
    cases h
  · rintro (h | h | h) <;> simp [conditions, h]

theorem getChuteByIdOrName_eq (pick : ℕ) :
    getChuteByIdOrName fold store s currentUser pick =
      match nameMatch (stripSlashes s) with
      | none => .ok none
      | some (username, name) =>
        scalarOneOrNone (limitOne (isOf (userSortId store currentUser))
          ((store.visible fold currentUser).filter (conditions fold store currentUser
            (username.or (currentUser.map User.username)) (stripSlashes s) name)) pick) := by
  by_cases hs : s = ""
  · subst hs
    rfl
  · rw [getChuteByIdOrName, if_neg hs]

theorem exactly_getChuteByIdOrName_iff :
    Exactly (store.visible fold currentUser) (Wanted fold (stripSlashes s)) (·.chuteId = s)
        (getChuteByIdOrName fold store s currentUser) ↔
      (∀ username name, nameMatch (stripSlashes s) = some (username, name) →
        ∀ c ∈ store.visible fold currentUser,
          Matches fold c.name (stripSlashes s) ∨ Matches fold c.name name →
          Wanted fold (stripSlashes s) c ∨ ¬isOf (userSortId store currentUser) c ∧
            ∃ d ∈ store.visible fold currentUser, (d.chuteId = stripSlashes s ∨
              Matches fold d.name (stripSlashes s) ∨ Matches fold d.name name) ∧
              isOf (userSortId store currentUser) d) ∧
        ∀ c ∈ store.visible fold currentUser, c.chuteId = s →
          ∀ d ∈ store.visible fold currentUser, d ≠ c → Same fold d.name s →
            isOf (userSortId store currentUser) c ∧ ¬isOf (userSortId store currentUser) d := by
  -- a text that is an id stands for itself
  have hwhole : ∀ c ∈ store.visible fold currentUser, c.chuteId = s →
      stripSlashes s = s ∧ nameMatch s = some (none, s) := fun c hc hid =>
    hid ▸ nameMatch_of_isUuidText (store.validChutes c (mem_of_mem_visible hc)).1
  have heq : getChuteByIdOrName fold store s currentUser = _ := funext getChuteByIdOrName_eq
  rw [heq]
  cases hmatch : nameMatch (stripSlashes s) with
  | none =>
    have hno : ∀ c ∈ store.visible fold currentUser, c.chuteId ≠ s := fun c hc hid => by
      obtain ⟨hstrip, hname⟩ := hwhole c hc hid
      rw [hstrip, hname] at hmatch
      cases hmatch
    refine exactly_none_iff.trans (iff_of_true hno ⟨fun _ _ h => (nomatch h), fun c hc hid => ?_⟩)
    exact absurd hid (hno c hc)
  | some groups =>
    obtain ⟨username, name⟩ := groups
    simp only [exactly_limitOne_iff]
    refine and_congr ?_ (byId_iff fun c hc hid d hd => ?_)
    · rw [only_iff (fun c => c.chuteId = stripSlashes s) (fun _ _ => conditions_iff) fun _ => .inl]
      simp only [conditions_iff]
      constructor
      · intro h username' name' hgroups
        obtain ⟨rfl, rfl⟩ : username = username' ∧ name = name' := by simpa using hgroups
        exact h
      · intro h
        exact h username name rfl
    · obtain ⟨hstrip, hname⟩ := hwhole c hc hid
      obtain ⟨rfl, rfl⟩ : none = username ∧ s = name := by
        rw [hstrip, hname] at hmatch
        simpa using hmatch
      have hc' := mem_of_mem_visible hc
      rw [conditions_iff, hstrip, or_self, ← hid, matches_chuteId hc']
      exact or_congr_left ⟨eq_of_chuteId (mem_of_mem_visible hd) hc', fun h => h ▸ rfl⟩

theorem exactly_shareChute_iff :
    Exactly (store.ownedBy user) (Wanted fold s) (·.chuteId = s)
        (fun _ => shareChute fold store s user) ↔
      (∀ c ∈ store.ownedBy user, Matches fold c.name s → Wanted fold s c ∨
        ∃ d ∈ store.ownedBy user, d ≠ c ∧ (d.chuteId = s ∨ Matches fold d.name s)) ∧
        ∀ c ∈ store.ownedBy user, c.chuteId = s →
          ∀ d ∈ store.ownedBy user, d ≠ c → ¬Same fold d.name s := by
  have hfound : ∀ c : Chute, (ilike fold c.name s || c.chuteId == s) = true ↔
      c.chuteId = s ∨ Matches fold c.name s := fun c => by
    rw [Bool.or_eq_true, ilike_iff, beq_iff_eq, or_comm]
  unfold shareChute
  rw [exactly_filter_iff ownedBy_nodup]
  refine and_congr ?_ (byId_iff fun c hc hid d hd => ?_)
  · rw [only_iff (fun c => c.chuteId = s) (fun c _ => hfound c) fun _ => .inl]
    simp only [hfound]
  · have hc' := mem_of_mem_ownedBy hc
    rw [hfound, ← hid, matches_chuteId hc']
    exact or_congr_left ⟨eq_of_chuteId (mem_of_mem_ownedBy hd) hc', fun h => h ▸ rfl⟩

theorem exactly_deployChute_iff :
    Exactly (store.ownedBy user) (Wanted fold s) (·.chuteId = s)
        (fun _ => deployChute fold store s user) ↔
      (∀ c ∈ store.ownedBy user, Matches fold c.name s → Wanted fold s c ∨
        ∃ d ∈ store.ownedBy user, d ≠ c ∧ Matches fold d.name s) ∧
        ∀ c ∈ store.ownedBy user, c.chuteId = s →
          Same fold c.name s ∧ ∀ d ∈ store.ownedBy user, d ≠ c → ¬Same fold d.name s := by
  unfold deployChute
  rw [exactly_filter_iff ownedBy_nodup]
  simp only [ilike_iff]
  refine and_congr_right fun _ => forall₃_congr fun c hc hid => ?_
  -- as a pattern the id is a name
  simp only [← hid, matches_chuteId (mem_of_mem_ownedBy hc)]

theorem shareUser_iff :
    (∀ u, shareUser fold store target = .ok (some u) →
        u.userId = target ∨ Same fold u.username target) ↔
      ∀ u ∈ store.users.rows, Matches fold u.username target →
        (u.userId = target ∨ Same fold u.username target) ∨
          ∃ v ∈ store.users.rows, v ≠ u ∧ (v.userId = target ∨ Matches fold v.username target) := by
  have hfound : ∀ u : User, (ilike fold u.username target || u.userId == target) = true ↔
      u.userId = target ∨ Matches fold u.username target := fun u => by
    rw [Bool.or_eq_true, ilike_iff, beq_iff_eq, or_comm]
  -- the lookup of a user is one without an id that has to be found
  have hexact : (∀ u, shareUser fold store target = .ok (some u) →
      u.userId = target ∨ Same fold u.username target) ↔
      Exactly store.users.rows (fun u => u.userId = target ∨ Same fold u.username target)
        (fun _ => False) fun _ => shareUser fold store target :=
    ⟨fun h => ⟨fun _ => h, fun _ _ hno => hno.elim⟩, fun h => h.only 0⟩
  have hnodup : store.users.rows.Nodup := store.distinctNames.of_map _
  rw [hexact]
  unfold shareUser
  rw [exactly_filter_iff hnodup, only_iff (fun u => u.userId = target) (fun u _ => hfound u)
    fun _ => .inl]
  simp [hfound]

/-- **The lookups are exact of what is not ambiguous.** -/
theorem exact_iff_unambiguous :
    ExactLookups fold store currentUser user s target ↔
      Unambiguous fold store currentUser user s target := by
  constructor
  · intro h
    obtain ⟨hinvoked, hinvokedId⟩ := exactly_getChuteByIdOrName_iff.1 h.getChuteByIdOrName
    obtain ⟨hshared, hsharedId⟩ := exactly_shareChute_iff.1 h.shareChute
    obtain ⟨hdeployed, hdeployedId⟩ := exactly_deployChute_iff.1 h.deployChute
    exact ⟨exactly_getOne_iff.1 h.getOne, hinvoked, hinvokedId, hshared, hsharedId, hdeployed,
      hdeployedId, shareUser_iff.1 h.shareUser⟩
  · intro h
    exact ⟨exactly_getOne_iff.2 h.one, exactly_getChuteByIdOrName_iff.2 ⟨h.invoked, h.invokedId⟩,
      exactly_shareChute_iff.2 ⟨h.shared, h.sharedId⟩,
      exactly_deployChute_iff.2 ⟨h.deployed, h.deployedId⟩, shareUser_iff.2 h.target⟩

/-- A user, and a chute of that user whose name has a hyphen. -/
def alice : User := { userId := "alice-id", username := "alice" }

def myModel : Chute where
  chuteId := "01234567-89ab-5def-8123-456789abcdef"
  userId := "alice-id"
  name := "my-model"
  isPublic := false
  standardTemplate := none
  concurrency := none
  discount := none
  createdAt := 0

def oneChute : Store where
  users := ⟨[alice], List.pairwise_singleton _ _⟩
  chutes := [myModel]
  shares := []
  chutesUserId := none
  validUsers := by decide +kernel
  distinctNames := by decide
  validChutes := by decide +kernel
  distinctIds := by decide
  owned := by decide

/-- Deploying `my_model` takes `my-model` for it. -/
theorem not_exactLookups :
    ¬∀ fold store currentUser user s target,
      ExactLookups fold store currentUser user s target := by
  intro h
  have hselect : deployChute Char.toLower oneChute "my_model" alice = .ok (some myModel) :=
    scalarOneOrNone_eq_some.2 (by decide +kernel)
  have hwanted := (h Char.toLower oneChute none alice "my_model" "").deployChute.only 0 _ hselect
  rcases hwanted with hid | hname | ⟨name, part, hs, -, -⟩
  · exact absurd hid (by decide)
  · exact absurd hname (by decide +kernel)
  · have hslash : '/' ∈ "my_model".toList := by simp [hs]
    exact absurd hslash (by decide)

/-! ## Texts that are plain -/

/-- The name a text asks for is all of it, or what is after the user name. -/
theorem nameMatch_eq_some {t name : String} {username : Option String}
    (h : nameMatch t = some (username, name)) :
    name.toList = beforeDollar t.toList ∨
      ∃ user, beforeDollar t.toList = user ++ '/' :: name.toList ∧ '/' ∉ user := by
  simp only [nameMatch] at h
  split at h
  case isTrue hgroup =>
    obtain ⟨-, -, -, hbody⟩ := hgroup
    obtain ⟨-, rfl⟩ : _ ∧ String.ofList _ = name := by simpa using h
    refine .inr ⟨(beforeDollar t.toList).takeWhile (· != '/'), ?_, fun hmem => ?_⟩
    · rw [String.toList_ofList]
      cases hdrop : (beforeDollar t.toList).dropWhile (· != '/') with
      | nil => simp [hdrop, isBody] at hbody
      | cons c rest =>
        have hc : c = '/' := by
          have hhead := List.head?_dropWhile_not (· != '/') (beforeDollar t.toList)
          simpa [hdrop] using hhead
        have hsplit :=
          List.takeWhile_append_dropWhile (p := (· != '/')) (l := beforeDollar t.toList)
        rw [hdrop, hc] at hsplit
        exact hsplit.symm
    · simpa using List.mem_takeWhile_imp hmem
  case isFalse =>
    split at h
    · obtain ⟨-, rfl⟩ : _ ∧ String.ofList _ = name := by simpa using h
      exact .inl (by rw [String.toList_ofList])
    · cases h

/-- What a plain text asks for by `get_chute_by_id_or_name` it is a name of. -/
theorem wanted_of_plain {username : Option String} {name : String} {c : Chute}
    (hs : ∀ c ∈ s.toList, Plain c) (hline : s.toList.getLast? ≠ some '\n')
    (hgroups : nameMatch (stripSlashes s) = some (username, name))
    (h : Matches fold c.name (stripSlashes s) ∨ Matches fold c.name name) :
    Wanted fold (stripSlashes s) c := by
  obtain ⟨slashes, hsplit⟩ : (stripSlashes s).toList <:+ s.toList := by
    rw [stripSlashes, String.toList_ofList]
    exact List.dropWhile_suffix _
  have hplain : ∀ c ∈ (stripSlashes s).toList, Plain c := fun c hc =>
    hs c (hsplit ▸ List.mem_append_right slashes hc)
  have hdollar : beforeDollar (stripSlashes s).toList = (stripSlashes s).toList :=
    beforeDollar_of_ne fun hlast => hline (by rw [← hsplit, List.getLast?_append, hlast]; rfl)
  rcases h with h | h
  · exact .inr (.inl ((matches_of_plain hplain).1 h))
  · rcases nameMatch_eq_some hgroups with hname | ⟨user, hname, huser⟩
    · rw [hdollar] at hname
      have hall : ∀ c ∈ name.toList, Plain c := by
        rw [hname]
        exact hplain
      have hsame := (matches_of_plain hall).1 h
      exact .inr (.inl (hsame.trans (congrArg (List.map fold) hname)))
    · rw [hdollar] at hname
      have hpart : ∀ c ∈ name.toList, Plain c := fun c hc => hplain c (by simp [hname, hc])
      exact .inr (.inr ⟨user, name.toList, hname, huser, (matches_of_plain hpart).1 h⟩)

/-- **A plain text is not ambiguous**: one with no wildcard and no line feed
at its end that, where it is a chute's id, is not the deployer's chute's and is
no chute's name. -/
theorem unambiguous_of_plain (hs : ∀ c ∈ s.toList, Plain c) (ht : ∀ c ∈ target.toList, Plain c)
    (hline : s.toList.getLast? ≠ some '\n')
    (hid : ∀ c ∈ store.chutes, c.chuteId = s →
      c.userId ≠ user.userId ∧ ∀ d ∈ store.chutes, ¬Same fold d.name s) :
    Unambiguous fold store currentUser user s target := by
  have hnone : ∀ c ∈ store.chutes, c.chuteId = s → ∀ d ∈ store.chutes, ¬Same fold d.name s :=
    fun c hc h => (hid c hc h).2
  have hown : ∀ c ∈ store.ownedBy user, c.chuteId ≠ s := fun c hc h => by
    refine (hid c (mem_of_mem_ownedBy hc) h).1 ?_
    rw [Store.ownedBy, List.mem_filter, beq_iff_eq] at hc
    exact hc.2
  have hmatch : ∀ c : Chute, Matches fold c.name s → Wanted fold s c := fun c h =>
    .inr (.inl ((matches_of_plain hs).1 h))
  exact {
    one := fun c hc h d hd _ hname => absurd (hname ▸ rfl) (hnone c hc h d hd)
    invoked := fun username name hgroups c _ h => .inl (wanted_of_plain hs hline hgroups h)
    invokedId := fun c hc h d hd _ hsame =>
      absurd hsame (hnone c (mem_of_mem_visible hc) h d (mem_of_mem_visible hd))
    shared := fun c _ h => .inl (hmatch c h)
    sharedId := fun c hc h => absurd h (hown c hc)
    deployed := fun c _ h => .inl (hmatch c h)
    deployedId := fun c hc h => absurd h (hown c hc)
    target := fun u _ h => .inl (.inr ((matches_of_plain ht).1 h)) }

end ChuteLookup

end ChutesApi
