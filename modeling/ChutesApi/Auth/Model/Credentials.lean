import ChutesApi.Auth.Model.Keypair
import ChutesApi.Python.Exc
import ChutesApi.Python.Str
import ChutesApi.User.Model
import Mathlib.Data.Rat.Defs
/-!
# JWTs and API keys

The two credentials that a request may carry in its authorization header,
`get_user_from_token` and `get_and_check_api_key`. The token library, the
hashes and the caches in front of the database are parameters.
-/

namespace ChutesApi

open Python

namespace Auth

/-- What authentication reads of a request: its headers, its origin, and
what the middleware put in its state. -/
structure Request where
  hotkey : Option String := none
  signature : Option String := none
  nonce : Option String := none
  authorization : Option String := none
  forwardedFor : Option String := none
  clientHost : String := ""
  bodySha256 : Option String := none
  authMethod : String := "read"
  authObjectType : String := ""
  authObjectId : String := ""

/-- The payload of a token. -/
structure Claims where
  sub : Option UserId
  iss : Option String
  salted : Bool

/-- How `jwt.decode` fails: by an `ExpiredSignatureError`, by another
`InvalidTokenError`, or by a `PyJWTError` that is neither. -/
inductive JwtError
  | expired
  | invalid
  | other

/-- The token library. -/
structure JwtLib where
  decodeUnverified : String → Except JwtError Claims
  /-- With `settings.squad_cert`, the issuer and the times verified. -/
  decodeSquad : String → Except JwtError Claims
  decodeHs256 : String → String → Except JwtError Claims

inductive ScopeAction
  | read
  | write
  | delete
  | invoke
  deriving DecidableEq, Repr

def ScopeAction.value : ScopeAction → String
  | .read => "read"
  | .write => "write"
  | .delete => "delete"
  | .invoke => "invoke"

/-- A row of `api_key_scopes`. -/
structure ApiKeyScope where
  objectType : String
  objectId : Option String
  action : Option ScopeAction

/-- A row of `api_keys`, with its user. -/
structure ApiKey where
  apiKeyId : String
  keyHash : String
  user : Option User
  admin : Bool
  scopes : List ApiKeyScope

/-- A row of `metagraph_nodes`. -/
structure MetagraphNode where
  hotkey : String
  netuid : Option ℕ

/-- **The world of a request**: the time, the database, the caches and the
libraries. -/
structure World where
  /-- `time.time()`. -/
  now : ℚ
  netuid : ℕ
  pgEncryptionKey : String
  users : Users
  apiKeys : List ApiKey
  metagraphNodes : List MetagraphNode
  /-- `get_user_fingerprint_hash`'s cache, which keeps no `None`. -/
  fingerprintCache : UserId → Option String
  /-- `_load_key`'s caches, which may keep that there is no such key. -/
  keyCache : String → Option (Option ApiKey)
  keypair : KeypairLib
  jwt : JwtLib
  /-- `hashlib.sha256(s.encode()).hexdigest()`. -/
  sha256 : String → String
  argon2Verify : String → String → Bool

/-- What a dependency returns, with what it left in the request's state. -/
structure Principal where
  user : Option User
  apiKey : Option ApiKey := none
  /-- `request.state.squad_request` and `request.state.free_invocation`. -/
  squadRequest : Bool := false

variable (w : World) (req : Request)

/-! ## Tokens -/

/-- The rows of a user id; none has a null one. -/
def usersById (userId : Option UserId) : List User :=
  w.users.rows.filter fun u => some u.userId == userId

def getUserFingerprintHash (userId : Option UserId) : Except Exc (Option String) :=
  match userId.bind w.fingerprintCache with
  | some hash => .ok (some hash)
  | none => do
    let user ← scalarOneOrNone (usersById w userId)
    return user.map User.fingerprintHash

def invalidToken : Exc := .http 401 "Invalid token."

/-- The key a user's tokens are signed with. -/
def signingKey (fingerprintHash : String) (payload : Claims) : String :=
  w.sha256 (if payload.salted then fingerprintHash ++ w.pgEncryptionKey else fingerprintHash)

/-- The squad branch of `get_user_from_token`. -/
def squadUser (token : String) (userId : Option UserId) : Except Exc Principal := do
  ensure (req.authMethod = "invoke" ∨ req.authMethod = "read")
    (.http 401 "Only invocations and read/GET requests are allowed with squad auth (for now).")
  match w.jwt.decodeSquad token with
  | .error .other => throw (.raised .other)
  | .error _ => throw invalidToken
  | .ok _ =>
    match ← scalarOneOrNone ((usersById w userId).filter User.squadEnabled) with
    | some user => return { user := some user, squadRequest := true }
    | none => throw invalidToken

/-- The branch of the user's own tokens. -/
def fingerprintUser (token : String) (payload : Claims) : Except Exc Principal := do
  match ← getUserFingerprintHash w payload.sub with
  | none => throw invalidToken
  | some fingerprintHash =>
    if fingerprintHash = "" then throw invalidToken
    else
      match w.jwt.decodeHs256 token (signingKey w fingerprintHash payload) with
      | .error .expired => throw (.http 401 "Token expired.")
      | .error _ => throw invalidToken
      | .ok _ =>
        let user ← scalarOneOrNone (usersById w payload.sub)
        return { user }

def getUserFromToken (token : String) : Except Exc Principal := do
  ensure (strip token ≠ "") invalidToken
  match w.jwt.decodeUnverified token with
  | .error .other => throw (.raised .other)
  | .error _ => throw invalidToken
  | .ok payload =>
    if payload.iss = some "squad" then squadUser w req token payload.sub
    else fingerprintUser w token payload

/-! ## API keys -/

def isHexLower (c : Char) : Bool := isDecimal c || ('a' ≤ c && c ≤ 'f')

def isAlphanumeric (c : Char) : Bool := isDecimal c || ('a' ≤ c && c ≤ 'z') || ('A' ≤ c && c ≤ 'Z')

/-- The regular expression of a key and its groups. Its `$` also matches
before a final line feed. -/
def matchKey (key : String) : Option (String × String × String) :=
  let tokenId := slice key 4 36
  let userId := slice key 37 69
  let secret := slice key 70 102
  if startsWith key "cpk_" && tokenId.toList.all isHexLower && slice key 36 37 = "." &&
      userId.toList.all isHexLower && slice key 69 70 = "." &&
      secret.toList.all isAlphanumeric && secret.length = 32 &&
      (key.toList.drop 102 = [] || key.toList.drop 102 = ['\n']) then
    some (tokenId, userId, secret)
  else none

def couldBeValid (key : String) : Bool :=
  startsWith key "cpk_" && key.length = 102 && (matchKey key).isSome

def reinjectDash (uuid : String) : String :=
  s!"{slice uuid 0 8}-{slice uuid 8 12}-{slice uuid 12 16}-{slice uuid 16 20}-{slice uuid 20 32}"

def loadKey (tokenId : String) : Except Exc (Option ApiKey) :=
  match w.keyCache tokenId with
  | some cached => .ok cached
  | none => scalarOneOrNone (w.apiKeys.filter (·.apiKeyId == tokenId))

def ApiKey.verify (apiKey : ApiKey) (key : String) : Bool :=
  couldBeValid key && w.argon2Verify key apiKey.keyHash

def ApiKeyScope.hasAccess (objectType objectId action : String) (scope : ApiKeyScope) : Bool :=
  let acts := scope.action.all (·.value == action)
  scope.objectType == objectType &&
    (objectType == "chutes" && ["__megallm__", "__megadiffuser__"].contains objectId && acts ||
      scope.objectId.all (· == objectId) && acts)

def ApiKey.hasAccess (apiKey : ApiKey) (objectType objectId action : String) : Bool :=
  apiKey.admin || apiKey.scopes.any (ApiKeyScope.hasAccess objectType objectId action)

/-- `get_and_check_api_key`, where `none` is its `False`. The user id in the
key is not compared with anything. -/
def getAndCheckApiKey (key : String) : Except Exc (Option ApiKey) := do
  ensure (couldBeValid key = true) (.http 401 "Missing or invalid authorization header(s)")
  match matchKey key with
  | none => return none
  | some (tokenId, _, _) =>
    match ← loadKey w (reinjectDash tokenId) with
    | none => throw (.http 401 "Invalid token or user not found")
    | some apiToken =>
      ensure (apiToken.verify w key = true) (.http 401 "Invalid token or user not found")
      ensure (apiToken.hasAccess req.authObjectType req.authObjectId req.authMethod = true)
        (.http 401 "Invalid token or user not found")
      return some apiToken

/-! ## When a credential is accepted -/

variable {w req} {token key : String} {p : Principal} {apiKey : ApiKey}

/-- **A squad token is accepted** for a user with squad access, if it is
signed with the squad's certificate, for reading and invoking. -/
def SquadAccepted (w : World) (req : Request) (token : String) (payload : Claims) : Prop :=
  (req.authMethod = "invoke" ∨ req.authMethod = "read") ∧ (∃ c, w.jwt.decodeSquad token = .ok c) ∧
    ∃ u ∈ w.users.rows, some u.userId = payload.sub ∧ u.squadEnabled

/-- **A user's token is accepted** if it is signed with the hash of their
fingerprint, as cached or as stored. -/
def FingerprintAccepted (w : World) (token : String) (payload : Claims) : Prop :=
  ∃ hash, hash ≠ "" ∧ (∃ c, w.jwt.decodeHs256 token (signingKey w hash payload) = .ok c) ∧
    (payload.sub.bind w.fingerprintCache = some hash ∨
      payload.sub.bind w.fingerprintCache = none ∧
        ∃ u ∈ w.users.rows, some u.userId = payload.sub ∧ u.fingerprintHash = hash)

/-- **A token is accepted.** -/
def TokenAccepted (w : World) (req : Request) (token : String) : Prop :=
  strip token ≠ "" ∧ ∃ payload, w.jwt.decodeUnverified token = .ok payload ∧
    if payload.iss = some "squad" then SquadAccepted w req token payload
    else FingerprintAccepted w token payload

/-- **An API key is accepted** if it is the stored key of its id, and has
access. -/
def ApiKeyAccepted (w : World) (req : Request) (key : String) : Prop :=
  couldBeValid key ∧ ∃ tokenId userId secret apiToken,
    matchKey key = some (tokenId, userId, secret) ∧
    loadKey w (reinjectDash tokenId) = .ok (some apiToken) ∧ w.argon2Verify key apiToken.keyHash ∧
    apiToken.hasAccess req.authObjectType req.authObjectId req.authMethod

/-- A user id is at most one row's. -/
theorem usersById_cases (w : World) (userId : Option UserId) (p : User → Bool) :
    ((usersById w userId).filter p = [] ∧ ∀ u ∈ w.users.rows, some u.userId = userId → ¬p u) ∨
      ∃ u ∈ w.users.rows, some u.userId = userId ∧ p u ∧ (usersById w userId).filter p = [u] := by
  unfold usersById
  rw [List.filter_filter]
  have hp : ∀ a b, User.Distinct a b → (p a && some a.userId == userId) →
      (p b && some b.userId == userId) → False := by
    intro a b hab ha hb
    simp only [Bool.and_eq_true, beq_iff_eq] at ha hb
    exact hab.1 (Option.some.inj (ha.2.trans hb.2.symm))
  rcases w.users.filter_le_one hp with h | ⟨u, hu, h⟩
  · refine .inl ⟨h, fun u hu hid hpu => ?_⟩
    have := List.filter_eq_nil_iff.1 h u hu
    simp [hpu, hid] at this
  · have hmem : u ∈ w.users.rows.filter fun u => p u && some u.userId == userId := by simp [h]
    simp only [List.mem_filter, Bool.and_eq_true, beq_iff_eq] at hmem
    exact .inr ⟨u, hu, hmem.2.2, hmem.2.1, h⟩

theorem squadUser_returns {userId : Option UserId} :
    (∃ p, squadUser w req token userId = .ok p) ↔
      (req.authMethod = "invoke" ∨ req.authMethod = "read") ∧
        (∃ c, w.jwt.decodeSquad token = .ok c) ∧
          ∃ u ∈ w.users.rows, some u.userId = userId ∧ u.squadEnabled := by
  unfold squadUser
  simp only [bind_eq_ok, ensure_eq_ok]
  rcases hdec : w.jwt.decodeSquad token with (_ | _ | _) | c
  · simp
  · simp
  · simp
  · rcases usersById_cases w userId User.squadEnabled with ⟨hf, hnone⟩ | ⟨u, hu, hid, hsq, hf⟩
    · simp only [hf, scalarOneOrNone, bind_eq_ok]
      simp only [Except.ok.injEq, exists_eq_left', raise_ne_ok, and_false, exists_false, false_iff]
      rintro ⟨-, -, u, hu, hid, hsq⟩
      exact hnone u hu hid hsq
    · simp only [hf, scalarOneOrNone, bind_eq_ok]
      simp only [Except.ok.injEq, exists_eq_left', return_eq_ok]
      constructor
      · rintro ⟨p, -, hm, -⟩
        exact ⟨hm, ⟨c, rfl⟩, u, hu, hid, hsq⟩
      · rintro ⟨hm, -, -⟩
        exact ⟨_, (), hm, rfl⟩

/-- A query by user id returns. -/
theorem usersById_returns (w : World) (userId : Option UserId) :
    ∃ u, scalarOneOrNone (usersById w userId) = .ok u := by
  have hcases := usersById_cases w userId fun _ => true
  simp only [List.filter_true] at hcases
  rcases hcases with ⟨hf, -⟩ | ⟨u, -, -, -, hf⟩
  · exact ⟨none, by rw [hf]; rfl⟩
  · exact ⟨some u, by rw [hf]; rfl⟩

theorem usersById_eq_some {userId : Option UserId} {u : User} :
    scalarOneOrNone (usersById w userId) = .ok (some u) ↔
      u ∈ w.users.rows ∧ some u.userId = userId := by
  have hcases := usersById_cases w userId fun _ => true
  simp only [List.filter_true] at hcases
  rcases hcases with ⟨hf, hnone⟩ | ⟨v, hv, hid, -, hf⟩
  · rw [hf]
    simp only [scalarOneOrNone, Except.ok.injEq, reduceCtorEq, false_iff]
    rintro ⟨hu, hid⟩
    exact hnone u hu hid trivial
  · rw [hf]
    simp only [scalarOneOrNone, Except.ok.injEq, Option.some.injEq]
    constructor
    · rintro rfl
      exact ⟨hv, hid⟩
    · rintro ⟨hu, hid'⟩
      exact w.users.eq_of_userId hv hu (Option.some.inj (hid.trans hid'.symm))

theorem getUserFingerprintHash_eq_some {userId : Option UserId} {hash : String} :
    getUserFingerprintHash w userId = .ok (some hash) ↔
      userId.bind w.fingerprintCache = some hash ∨ userId.bind w.fingerprintCache = none ∧
        ∃ u ∈ w.users.rows, some u.userId = userId ∧ u.fingerprintHash = hash := by
  unfold getUserFingerprintHash
  cases userId.bind w.fingerprintCache with
  | some cached => simp
  | none =>
    simp only [bind_eq_ok, return_eq_ok, Option.map_eq_some_iff, reduceCtorEq, false_or, true_and]
    constructor
    · rintro ⟨_, hu, u, rfl, rfl⟩
      obtain ⟨hmem, hid⟩ := usersById_eq_some.1 hu
      exact ⟨u, hmem, hid, rfl⟩
    · rintro ⟨u, hmem, hid, rfl⟩
      exact ⟨some u, usersById_eq_some.2 ⟨hmem, hid⟩, u, rfl, rfl⟩

theorem fingerprintUser_returns {payload : Claims} :
    (∃ p, fingerprintUser w token payload = .ok p) ↔ FingerprintAccepted w token payload := by
  unfold fingerprintUser FingerprintAccepted
  simp only [bind_eq_ok, ← getUserFingerprintHash_eq_some]
  constructor
  · rintro ⟨p, hash, hhash, h⟩
    cases hash with
    | none => simp at h
    | some hash =>
      by_cases hne : hash = ""
      · simp [hne] at h
      · simp only [hne, if_false] at h
        rcases hdec : w.jwt.decodeHs256 token (signingKey w hash payload) with (_ | _ | _) | c
        · simp [hdec] at h
        · simp [hdec] at h
        · simp [hdec] at h
        · exact ⟨hash, hne, ⟨c, hdec⟩, hhash⟩
  · rintro ⟨hash, hne, ⟨c, hdec⟩, hhash⟩
    obtain ⟨u, hu⟩ := usersById_returns w payload.sub
    refine ⟨{ user := u }, some hash, hhash, ?_⟩
    simp only [hne, if_false, hdec, hu]
    rfl

/-- **When a token gets through.** -/
theorem getUserFromToken_returns :
    (∃ p, getUserFromToken w req token = .ok p) ↔ TokenAccepted w req token := by
  unfold getUserFromToken TokenAccepted
  simp only [bind_eq_ok, ensure_eq_ok]
  rcases hdec : w.jwt.decodeUnverified token with (_ | _ | _) | payload
  · simp
  · simp
  · simp
  · simp only [Except.ok.injEq, exists_eq_left']
    by_cases hiss : payload.iss = some "squad"
    · simp only [hiss, if_true]
      rw [SquadAccepted, ← squadUser_returns]
      constructor
      · rintro ⟨p, -, hne, hp⟩
        exact ⟨hne, p, hp⟩
      · rintro ⟨hne, p, hp⟩
        exact ⟨p, (), hne, hp⟩
    · simp only [hiss, if_false]
      rw [← fingerprintUser_returns]
      constructor
      · rintro ⟨p, -, hne, hp⟩
        exact ⟨hne, p, hp⟩
      · rintro ⟨hne, p, hp⟩
        exact ⟨p, (), hne, hp⟩

theorem exists_matchKey (h : couldBeValid key) : ∃ groups, matchKey key = some groups := by
  simp only [couldBeValid, Bool.and_eq_true] at h
  exact Option.isSome_iff_exists.1 h.2

/-- **A key that gets through** is verified against the row of its id. -/
theorem getAndCheckApiKey_eq_some : getAndCheckApiKey w req key = .ok (some apiKey) ↔
    couldBeValid key ∧ ∃ tokenId userId secret, matchKey key = some (tokenId, userId, secret) ∧
      loadKey w (reinjectDash tokenId) = .ok (some apiKey) ∧ apiKey.verify w key ∧
        apiKey.hasAccess req.authObjectType req.authObjectId req.authMethod := by
  unfold getAndCheckApiKey
  simp only [bind_eq_ok, ensure_eq_ok]
  constructor
  · rintro ⟨-, hvalid, h⟩
    obtain ⟨⟨tokenId, userId, secret⟩, hmatch⟩ := exists_matchKey hvalid
    simp only [hmatch, bind_eq_ok] at h
    obtain ⟨_ | apiToken, hload, h⟩ := h
    · exact absurd h (by simp)
    · simp only [bind_eq_ok, ensure_eq_ok, return_eq_ok, Option.some.injEq] at h
      obtain ⟨-, hverify, -, haccess, rfl⟩ := h
      exact ⟨hvalid, tokenId, userId, secret, hmatch, hload, hverify, haccess⟩
  · rintro ⟨hvalid, tokenId, userId, secret, hmatch, hload, hverify, haccess⟩
    refine ⟨(), hvalid, ?_⟩
    simp only [hmatch, bind_eq_ok]
    refine ⟨some apiKey, hload, ?_⟩
    simp only [bind_eq_ok, ensure_eq_ok, return_eq_ok]
    exact ⟨(), hverify, (), haccess, trivial⟩

/-- A text that could be a key is one, so that `False` is never returned. -/
theorem getAndCheckApiKey_ne_false : getAndCheckApiKey w req key ≠ .ok none := by
  unfold getAndCheckApiKey
  simp only [ne_eq, bind_eq_ok, ensure_eq_ok, not_exists, not_and]
  intro _ hvalid h
  obtain ⟨⟨tokenId, userId, secret⟩, hm⟩ := exists_matchKey hvalid
  simp only [hm, bind_eq_ok] at h
  obtain ⟨apiToken, -, h⟩ := h
  cases apiToken with
  | none => simp at h
  | some apiToken =>
    simp only [bind_eq_ok, return_eq_ok, reduceCtorEq, and_false, exists_false] at h

/-- **When an API key gets through.** -/
theorem getAndCheckApiKey_returns :
    (∃ k, getAndCheckApiKey w req key = .ok k) ↔ ApiKeyAccepted w req key := by
  constructor
  · rintro ⟨_ | apiToken, h⟩
    · exact absurd h getAndCheckApiKey_ne_false
    · obtain ⟨hvalid, tokenId, userId, secret, hmatch, hload, hverify, haccess⟩ :=
        getAndCheckApiKey_eq_some.1 h
      rw [ApiKey.verify, Bool.and_eq_true] at hverify
      exact ⟨hvalid, tokenId, userId, secret, apiToken, hmatch, hload, hverify.2, haccess⟩
  · rintro ⟨hvalid, tokenId, userId, secret, apiToken, hmatch, hload, hargon, haccess⟩
    have hverify : apiToken.verify w key := by simp [ApiKey.verify, hvalid, hargon]
    exact ⟨some apiToken, getAndCheckApiKey_eq_some.2
      ⟨hvalid, tokenId, userId, secret, hmatch, hload, hverify, haccess⟩⟩

end Auth

end ChutesApi
