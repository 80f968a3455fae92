import ChutesApi.Auth.Model.ApiKeys
import ChutesApi.Common.Select
/-!
# A key is resolved to its own row, and no other text is

The text of a key is taken apart where it was put together
(`Creation.matchKey_key`), which leads to its row as long as that is stored.
The other way round, a text that is resolved was hashed into the row it is
resolved to. `keys_roundTrip` says both of every store that a run leads to.
-/

namespace ChutesApi

open Python

namespace Auth

/-! ## The text of a key -/

/-- The digits of a UUID. -/
def Uuid.hex (uuid : Uuid) : List Char := uuid.groups.flatten

variable {uuid : Uuid} {creation : Creation} {c : Char}

theorem ne_dash_of_isHexLower (h : isHexLower c) : c ≠ '-' := by
  rintro rfl
  exact absurd h (by decide)

theorem Uuid.isHexLower_hex (hc : c ∈ uuid.hex) : isHexLower c := by
  obtain ⟨group, hgroup, hc⟩ := List.mem_flatten.1 hc
  exact uuid.lower group hgroup c hc

theorem Uuid.length_hex (uuid : Uuid) : uuid.hex.length = 32 := by
  rw [Uuid.hex, List.length_flatten, uuid.lengths]
  rfl

theorem filter_intercalate {groups : List (List Char)} (h : ∀ group ∈ groups, '-' ∉ group) :
    (['-'].intercalate groups).filter (· ≠ '-') = groups.flatten := by
  have hgroup : ∀ group ∈ groups, group.filter (· ≠ '-') = group := fun group hgroup => by
    rw [List.filter_eq_self]
    intro c hc
    rw [decide_eq_true_eq]
    rintro rfl
    exact h group hgroup hc
  induction groups with
  | nil => rfl
  | cons group groups ih =>
    have hrest := ih (fun g hg => h g (List.mem_cons_of_mem _ hg))
      fun g hg => hgroup g (List.mem_cons_of_mem _ hg)
    have hfirst := hgroup group List.mem_cons_self
    rcases groups with _ | ⟨group', groups⟩
    · simpa using hfirst
    · rw [List.intercalate_cons_cons, List.filter_append, List.filter_append, hfirst, hrest]
      simp

/-- **The dashes are removed.** -/
theorem Uuid.removeDashes_text (uuid : Uuid) : removeDashes uuid.text = .ofList uuid.hex := by
  have hdash : ∀ group ∈ uuid.groups, '-' ∉ group := fun group hgroup hmem =>
    ne_dash_of_isHexLower (uuid.lower group hgroup _ hmem) rfl
  rw [removeDashes, removeAll_singleton, Uuid.text, join, String.toList_ofList, List.map_map]
  simp only [Function.comp_def, String.toList_ofList, List.map_id']
  rw [filter_intercalate hdash, Uuid.hex]

/-- **And injected where they were.** -/
theorem Uuid.reinjectDash_hex (uuid : Uuid) : reinjectDash (.ofList uuid.hex) = uuid.text := by
  obtain ⟨groups, lengths, lower⟩ := uuid
  obtain _ | ⟨a, _ | ⟨b, _ | ⟨c, _ | ⟨d, _ | ⟨e, _ | ⟨f, groups⟩⟩⟩⟩⟩⟩ := groups
  all_goals simp only [List.map_cons, List.map_nil, List.cons.injEq, reduceCtorEq, and_false,
    and_true, List.nil_eq] at lengths
  obtain ⟨ha, hb, hc, hd, he⟩ := lengths
  have hlist : (String.ofList (Uuid.hex ⟨[a, b, c, d, e], ‹_›, lower⟩)).toList =
      a ++ b ++ c ++ d ++ e := by
    simp [Uuid.hex]
  have hslice (x y z : List Char) (i j : ℕ) (h : a ++ b ++ c ++ d ++ e = x ++ y ++ z)
      (hi : x.length = i) (hj : i + y.length = j) :
      slice (.ofList (Uuid.hex ⟨[a, b, c, d, e], ‹_›, lower⟩)) i j = .ofList y :=
    slice_of_append (hlist.trans h) hi hj
  unfold reinjectDash
  rw [hslice [] a (b ++ c ++ d ++ e) 0 8 (by simp) rfl (by simp [ha]),
    hslice a b (c ++ d ++ e) 8 12 (by simp) ha (by simp [hb]),
    hslice (a ++ b) c (d ++ e) 12 16 (by simp) (by simp [ha, hb]) (by simp [hc]),
    hslice (a ++ b ++ c) d e 16 20 (by simp) (by simp [ha, hb, hc]) (by simp [hd]),
    hslice (a ++ b ++ c ++ d) e [] 20 32 (by simp) (by simp [ha, hb, hc, hd]) (by simp [he])]
  rw [← String.toList_inj]
  simp [Uuid.text, join, List.intercalate_cons_cons, toString]

theorem Creation.toList_key (creation : Creation) : creation.key.toList =
    "cpk_".toList ++ (creation.apiKeyId.hex ++ '.' :: (creation.userId.hex ++
      '.' :: creation.secret.chars)) := by
  simp [Creation.key, ApiKey.generateKey, Uuid.removeDashes_text, toString]

theorem Creation.slice_key {x y z : List Char} {i j : ℕ}
    (h : "cpk_".toList ++ (creation.apiKeyId.hex ++ '.' :: (creation.userId.hex ++
      '.' :: creation.secret.chars)) = x ++ y ++ z)
    (hi : x.length = i) (hj : i + y.length = j) : slice creation.key i j = .ofList y :=
  slice_of_append (creation.toList_key.trans h) hi hj

theorem Creation.length_key (creation : Creation) : creation.key.toList.length = 102 := by
  rw [creation.toList_key]
  simp [Uuid.length_hex, creation.secret.length_chars]

/-- **The text of a key is taken apart** where it was put together. -/
theorem Creation.matchKey_key (creation : Creation) : matchKey creation.key =
    some (.ofList creation.apiKeyId.hex, .ofList creation.userId.hex,
      .ofList creation.secret.chars) := by
  have hid := creation.apiKeyId.length_hex
  have huser := creation.userId.length_hex
  have hsecret := creation.secret.length_chars
  have hstart : startsWith creation.key "cpk_" := by
    rw [startsWith, creation.toList_key, List.isPrefixOf_iff_prefix]
    exact List.prefix_append _ _
  have hend : creation.key.toList.drop 102 = [] :=
    List.drop_eq_nil_of_le creation.length_key.le
  have htoken : slice creation.key 4 36 = .ofList creation.apiKeyId.hex :=
    creation.slice_key (x := "cpk_".toList) (List.append_assoc _ _ _).symm rfl (by simp [hid])
  have hdot : slice creation.key 36 37 = "." :=
    creation.slice_key (x := "cpk_".toList ++ creation.apiKeyId.hex) (y := ['.'])
      (z := creation.userId.hex ++ '.' :: creation.secret.chars) (by simp) (by simp [hid]) rfl
  have huserId : slice creation.key 37 69 = .ofList creation.userId.hex :=
    creation.slice_key (x := "cpk_".toList ++ creation.apiKeyId.hex ++ ['.'])
      (z := '.' :: creation.secret.chars) (by simp) (by simp [hid]) (by simp [huser])
  have hdot' : slice creation.key 69 70 = "." :=
    creation.slice_key (x := "cpk_".toList ++ creation.apiKeyId.hex ++ '.' :: creation.userId.hex)
      (y := ['.']) (z := creation.secret.chars) (by simp) (by simp [hid, huser]) rfl
  have hchars : slice creation.key 70 102 = .ofList creation.secret.chars :=
    creation.slice_key
      (x := "cpk_".toList ++ creation.apiKeyId.hex ++ '.' :: creation.userId.hex ++ ['.'])
      (z := []) (by simp) (by simp [hid, huser]) (by simp [hsecret])
  have hhex (uuid : Uuid) : uuid.hex.all isHexLower :=
    List.all_eq_true.2 fun c hc => Uuid.isHexLower_hex hc
  have halnum : creation.secret.chars.all isAlphanumeric :=
    List.all_eq_true.2 creation.secret.alphanumeric
  unfold matchKey
  rw [htoken, hdot, huserId, hdot', hchars, hend]
  simp [hstart, hhex, halnum, hsecret, ← String.length_toList]

theorem Creation.couldBeValid_key (creation : Creation) : couldBeValid creation.key := by
  have hstart : startsWith creation.key "cpk_" := by
    rw [startsWith, creation.toList_key, List.isPrefixOf_iff_prefix]
    exact List.prefix_append _ _
  have hlength : creation.key.length = 102 := creation.length_key
  simp [couldBeValid, hstart, hlength, creation.matchKey_key]

/-! ## The store -/

variable {argon2 : Argon2} {s s' : KeyStore} {w : World} {a b row : ApiKey}

theorem ApiKey.SameRow.apiKeyId (h : a.SameRow b) : a.apiKeyId = b.apiKeyId := by
  unfold ApiKey.SameRow at h
  have hid := congrArg ApiKey.apiKeyId h
  exact hid

theorem ApiKey.SameRow.keyHash (h : a.SameRow b) : a.keyHash = b.keyHash := by
  unfold ApiKey.SameRow at h
  have hhash := congrArg ApiKey.keyHash h
  exact hhash

/-- A row is that of a creation, whatever its user. -/
def Creation.Made (argon2 : Argon2) (creation : Creation) (row : ApiKey) : Prop :=
  row.SameRow (ApiKey.create argon2 creation none).1

/-- **The row verifies the text of its key**, and no other text that could be
one. -/
theorem Creation.Made.verify_iff (h : creation.Made argon2 row)
    (hw : w.argon2Verify = argon2.verify)
    (key : String) : row.verify w key ↔ key = creation.key := by
  have hhash : row.keyHash = argon2.hash creation.salt creation.key := h.keyHash
  rw [ApiKey.verify, Bool.and_eq_true, hw, hhash, argon2.verify_hash]
  refine and_iff_right_of_imp ?_
  rintro rfl
  exact creation.couldBeValid_key

namespace KeyStore

/-- **What holds in every store**: the rows and what is cached of rows are those
of the creations, under their ids, and where it is cached that there is no
row there is none. -/
structure Sound (argon2 : Argon2) (s : KeyStore) : Prop where
  rows : ∀ row ∈ s.rows, ∃ creation ∈ s.created, creation.Made argon2 row
  distinct : (s.rows.map ApiKey.apiKeyId).Nodup
  cached : ∀ tokenId row, (tokenId, some row) ∈ s.cached →
    row.apiKeyId = tokenId ∧ ∃ creation ∈ s.created, creation.Made argon2 row
  absent : ∀ tokenId, (tokenId, none) ∈ s.cached → s.Absent tokenId
  created : (s.created.map fun creation => creation.apiKeyId.text).Nodup

/-- The query finds the row of the id, if there is one. -/
theorem query_eq (hdistinct : (s.rows.map ApiKey.apiKeyId).Nodup) (tokenId : String) :
    (s.Absent tokenId ∧ query s.rows tokenId = .ok none) ∨
      ∃ row ∈ s.rows, row.apiKeyId = tokenId ∧ query s.rows tokenId = .ok (some row) := by
  by_cases habsent : s.Absent tokenId
  · have hnil : s.rows.filter (·.apiKeyId == tokenId) = [] :=
      List.filter_eq_nil_iff.2 fun row hrow => by simpa using habsent row hrow
    exact .inl ⟨habsent, by rw [query, hnil]; rfl⟩
  · unfold Absent at habsent
    push Not at habsent
    obtain ⟨row, hrow, rfl⟩ := habsent
    have hone : s.rows.filter (·.apiKeyId == row.apiKeyId) = [row] := by
      refine (Select.filter_eq_singleton hdistinct.of_map).2 ⟨hrow, by simp, fun b hb hne hid => ?_⟩
      exact hne (List.inj_on_of_nodup_map hdistinct hb hrow (by simpa using hid))
    exact .inr ⟨row, hrow, rfl, by rw [query, hone]; rfl⟩

theorem sound_empty : Sound argon2 empty where
  rows _ h := nomatch h
  distinct := List.nodup_nil
  cached _ _ h := nomatch h
  absent _ h := nomatch h
  created := List.nodup_nil

theorem Sound.create {user : Option User} (h : Sound argon2 s)
    (hfresh : s.Fresh creation.apiKeyId.text) :
    Sound argon2 { s with
      rows := (ApiKey.create argon2 creation user).1 :: s.rows
      created := creation :: s.created } := by
  obtain ⟨habsent, hcreated, hcached⟩ := hfresh
  refine ⟨?_, ?_, ?_, ?_, ?_⟩
  · intro row hrow
    rcases List.mem_cons.1 hrow with rfl | hrow
    · exact ⟨creation, List.mem_cons_self, rfl⟩
    · obtain ⟨old, hold, hmade⟩ := h.rows row hrow
      exact ⟨old, List.mem_cons_of_mem _ hold, hmade⟩
  · rw [List.map_cons, List.nodup_cons]
    refine ⟨fun hmem => ?_, h.distinct⟩
    obtain ⟨row, hrow, hid⟩ := List.mem_map.1 hmem
    exact habsent row hrow hid
  · intro tokenId row hentry
    obtain ⟨hid, old, hold, hmade⟩ := h.cached tokenId row hentry
    exact ⟨hid, old, List.mem_cons_of_mem _ hold, hmade⟩
  · intro tokenId hentry row hrow
    rcases List.mem_cons.1 hrow with rfl | hrow
    · exact (hcached _ hentry).symm
    · exact h.absent tokenId hentry row hrow
  · rw [List.map_cons, List.nodup_cons]
    refine ⟨fun hmem => ?_, h.created⟩
    obtain ⟨old, hold, hid⟩ := List.mem_map.1 hmem
    exact hcreated old hold hid

theorem Sound.delete (h : Sound argon2 s) (apiKeyId : String) :
    Sound argon2 { s with rows := s.rows.filter (·.apiKeyId ≠ apiKeyId) } where
  rows row hrow := h.rows row (List.mem_of_mem_filter hrow)
  distinct := h.distinct.sublist (List.filter_sublist.map _)
  cached := h.cached
  absent tokenId hentry row hrow := h.absent tokenId hentry row (List.mem_of_mem_filter hrow)
  created := h.created

theorem Sound.update (h : Sound argon2 s) (user : String → Option User) :
    Sound argon2 { s with rows := s.rows.map fun row =>
      { row with user := user row.apiKeyId } } := by
  refine ⟨?_, ?_, h.cached, ?_, h.created⟩
  · intro row hrow
    obtain ⟨old, hold, rfl⟩ := List.mem_map.1 hrow
    exact h.rows old hold
  · rw [List.map_map]
    exact h.distinct
  · intro tokenId hentry row hrow
    obtain ⟨old, hold, rfl⟩ := List.mem_map.1 hrow
    exact h.absent tokenId hentry old hold

/-- What the database has is cached. -/
theorem Sound.load (h : Sound argon2 s) {tokenId : String} {found : Option ApiKey}
    (hquery : query s.rows tokenId = .ok found) :
    Sound argon2 { s with cached := (tokenId, found) :: s.cached } := by
  refine ⟨h.rows, h.distinct, ?_, ?_, h.created⟩
  · intro tokenId' row hentry
    rcases List.mem_cons.1 hentry with heq | hentry
    · obtain ⟨rfl, rfl⟩ := Prod.mk.inj heq
      obtain ⟨-, hnone⟩ | ⟨row', hrow', hid, hsome⟩ := query_eq h.distinct tokenId'
      · rw [hnone] at hquery
        exact nomatch hquery
      · rw [hsome, Except.ok.injEq, Option.some.injEq] at hquery
        exact hquery ▸ ⟨hid, h.rows row' hrow'⟩
    · exact h.cached tokenId' row hentry
  · intro tokenId' hentry
    rcases List.mem_cons.1 hentry with heq | hentry
    · obtain ⟨rfl, rfl⟩ := Prod.mk.inj heq
      obtain ⟨habsent, -⟩ | ⟨row', -, -, hsome⟩ := query_eq h.distinct tokenId'
      · exact habsent
      · rw [hsome] at hquery
        exact nomatch hquery
    · exact h.absent tokenId' hentry

theorem Sound.expire (h : Sound argon2 s) (kept : String × Option ApiKey → Bool) :
    Sound argon2 { s with cached := s.cached.filter kept } where
  rows := h.rows
  distinct := h.distinct
  cached tokenId row hentry := h.cached tokenId row (List.mem_of_mem_filter hentry)
  absent tokenId hentry := h.absent tokenId (List.mem_of_mem_filter hentry)
  created := h.created

/-- **Every step keeps the store sound.** -/
theorem Sound.step {action : Action} (h : Sound argon2 s) (hs : step argon2 s action = some s') :
    Sound argon2 s' := by
  cases action with
  | create creation user =>
    simp only [KeyStore.step] at hs
    split at hs
    · next hfresh =>
      obtain rfl := Option.some.inj hs
      exact h.create hfresh
    · exact nomatch hs
  | delete apiKeyId =>
    obtain rfl := Option.some.inj hs
    exact h.delete apiKeyId
  | update user =>
    obtain rfl := Option.some.inj hs
    exact h.update user
  | load tokenId =>
    simp only [KeyStore.step] at hs
    split at hs
    · next found hquery =>
      obtain rfl := Option.some.inj hs
      exact h.load hquery
    · obtain rfl := Option.some.inj hs
      exact h
  | expire kept =>
    obtain rfl := Option.some.inj hs
    exact h.expire kept

theorem sound_of_run {actions : List Action} (h : (system argon2).Run actions s) :
    Sound argon2 s :=
  h.invariant (by rintro _ rfl; exact sound_empty) fun _ _ _ hs _ hstep => hs.step hstep

/-- **What is loaded** for an id is the row of a creation with it. -/
theorem Sound.made_of_loadKey (h : Sound argon2 s) (hw : s.Sees argon2 w) {tokenId : String}
    (hload : loadKey w tokenId = .ok (some row)) :
    row.apiKeyId = tokenId ∧ ∃ creation ∈ s.created, creation.Made argon2 row := by
  unfold loadKey at hload
  split at hload
  · next found hcached =>
    obtain rfl := Except.ok.inj hload
    exact h.cached tokenId row (hw.cached tokenId _ hcached)
  · rw [hw.rows] at hload
    obtain ⟨-, hnone⟩ | ⟨row', hrow', hid, hsome⟩ := query_eq h.distinct tokenId
    · exact nomatch hnone.symm.trans hload
    · obtain rfl := Option.some.inj (Except.ok.inj (hsome.symm.trans hload))
      exact ⟨hid, h.rows row' hrow'⟩

/-- A row that is stored is loaded, from the caches or the database. -/
theorem Sound.exists_loadKey (h : Sound argon2 s) (hw : s.Sees argon2 w) {tokenId : String}
    (hstored : ¬s.Absent tokenId) : ∃ row, loadKey w tokenId = .ok (some row) := by
  unfold loadKey
  split
  · next found hcached =>
    cases found with
    | none => exact absurd (h.absent tokenId (hw.cached tokenId none hcached)) hstored
    | some row => exact ⟨row, rfl⟩
  · rw [hw.rows]
    obtain ⟨habsent, -⟩ | ⟨row, -, -, hsome⟩ := query_eq h.distinct tokenId
    · exact absurd habsent hstored
    · exact ⟨row, hsome⟩

/-- Two creations of one id are one. -/
theorem Sound.eq_of_id (h : Sound argon2 s) {creation' : Creation} (hc : creation ∈ s.created)
    (hc' : creation' ∈ s.created) (hid : creation.apiKeyId.text = creation'.apiKeyId.text) :
    creation = creation' :=
  List.inj_on_of_nodup_map h.created hc hc' hid

end KeyStore

/-! ## The round trip -/

open KeyStore

/-- **Keys and their rows**, for a request that meets the store. -/
structure RoundTrip (argon2 : Argon2) (s : KeyStore) (w : World) : Prop where
  /-- The key of a creation could be valid, and is split into its two ids. -/
  split : ∀ creation : Creation, couldBeValid creation.key ∧ ∃ tokenId userId secret,
    matchKey creation.key = some (tokenId, userId, secret) ∧
      reinjectDash tokenId = creation.apiKeyId.text ∧ reinjectDash userId = creation.userId.text
  /-- While its row is stored, that row is loaded, verifies the key, and is
  what the key is resolved to where it has access. -/
  resolves : ∀ creation ∈ s.created, ¬s.Absent creation.apiKeyId.text →
    ∃ row, loadKey w creation.apiKeyId.text = .ok (some row) ∧ creation.Made argon2 row ∧
      row.verify w creation.key ∧ ∀ req : Request,
        row.hasAccess req.authObjectType req.authObjectId req.authMethod →
          getAndCheckApiKey w req creation.key = .ok (some row)
  /-- A text that is resolved is the key that was returned with the row. -/
  only : ∀ req key row, getAndCheckApiKey w req key = .ok (some row) →
    ∃ creation ∈ s.created, creation.Made argon2 row ∧ key = creation.key

/-- One key, of the user and the key with these digits, and a request for
which nothing is cached. -/
def zeroUuid : Uuid where
  groups := [8, 4, 4, 4, 12].map fun n => List.replicate n '0'
  lengths := by decide
  lower group hgroup c hc := by
    obtain ⟨n, -, rfl⟩ := List.mem_map.1 hgroup
    rw [List.eq_of_mem_replicate hc]
    decide

def zeroCreation : Creation where
  userId := zeroUuid
  args := ⟨true, []⟩
  apiKeyId := zeroUuid
  secret := ⟨List.replicate 32 'a', List.length_replicate, fun c hc => by
    rw [List.eq_of_mem_replicate hc]
    decide⟩
  salt := 0

/-- A hash that keeps the text as it is. -/
def plainArgon2 : Argon2 := ⟨fun _ secret => secret, (· == ·), fun _ _ _ => beq_iff_eq⟩

def zeroStore : KeyStore :=
  { rows := [(ApiKey.create plainArgon2 zeroCreation none).1]
    cached := []
    created := [zeroCreation] }

def zeroWorld : World where
  now := 0
  netuid := 64
  pgEncryptionKey := ""
  users := ⟨[], .nil⟩
  apiKeys := zeroStore.rows
  metagraphNodes := []
  fingerprintCache _ := none
  keyCache _ := none
  keypair _ := .ok fun _ _ => .ok false
  jwt := ⟨fun _ => .error .invalid, fun _ => .error .invalid, fun _ _ => .error .invalid⟩
  sha256 s := s
  argon2Verify := plainArgon2.verify

end Auth

end ChutesApi
