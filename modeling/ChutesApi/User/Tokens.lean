import ChutesApi.Common.Expiring
import ChutesApi.Common.Lts
import ChutesApi.User.Fingerprint
/-!
# The tokens of a login

A token is signed with the fingerprint hash in the user's row and verified
with the hash that the process has cached, for up to an hour. So a
fingerprint change leaves the old tokens valid, and the new ones invalid,
in every process that still has the old hash: tokens follow the fingerprint
exactly in the runs in which no process has (`follows_iff`).

The MAC is unforgeable: a token carries the key it was signed with, and
verifies under that key and no other. A lookup is one event, in which it reads
the row and stores the hash, and so is a change of the fingerprint.
-/

namespace ChutesApi

open Python

namespace UserToken

/-- How a token is signed. -/
inductive Signature
  | hs256 (key : String)
  /-- With the private key of a certificate. -/
  | rs256 (cert : String)
  deriving DecidableEq, Repr

/-- The claims of a token, its times in seconds, and its signature. -/
structure Token where
  sub : Option UserId
  iss : Option String := none
  exp : Option ℕ
  iat : Option ℕ
  salted : Bool := false
  signature : Signature
  deriving DecidableEq, Repr

structure Settings where
  pgEncryptionKey : String
  squadCert : String
  /-- `hashlib.sha256(text.encode()).hexdigest()`. -/
  sha256 : String → String
  /-- How far the clock counts in a second. -/
  second : ℕ
  second_pos : 0 < second

variable (cfg : Settings)

/-- **`create_token`.** -/
def createToken (user : User) (now : ℕ) : Token where
  sub := some user.userId
  exp := some (now / cfg.second + 7 * 86400)
  iat := some (now / cfg.second)
  salted := true
  signature := .hs256 (cfg.sha256 (user.fingerprintHash ++ cfg.pgEncryptionKey))

/-! ## Verifying -/

/-- Why `jwt.decode` refuses a token. -/
inductive JwtError
  | expired
  | other
  deriving DecidableEq, Repr

def Token.isPremature (token : Token) (now : ℕ) : Bool :=
  token.iat.any fun iat => now < iat * cfg.second

def Token.isExpired (token : Token) (now : ℕ) : Bool :=
  token.exp.any fun exp => exp * cfg.second ≤ now

/-- `jwt.decode`, which checks the signature and then `iat` and `exp` where
the token has them. -/
def Token.decode (token : Token) (signature : Signature) (now : ℕ) : Except JwtError Unit := do
  if token.signature ≠ signature then throw .other
  if token.isPremature cfg now then throw .other
  if token.isExpired cfg now then throw .expired

/-- A process's `aiocache`. -/
abbrev Cache := Expiring UserId fun _ => String

def findUser (users : Users) (userId : UserId) : Option User :=
  users.rows.find? (·.userId = userId)

/-- **`get_user_fingerprint_hash`**, with its decorator. A `None` is cached,
but a cached `None` is not returned. -/
def getUserFingerprintHash (users : Users) (now : ℕ) (cache : Cache) (userId : UserId) :
    Option String × Cache :=
  match cache.get now userId with
  | some hash => (some hash, cache)
  | none =>
    match findUser users userId with
    | some user =>
      (some user.fingerprintHash,
        cache.set userId user.fingerprintHash (now + 60 * 60 * cfg.second))
    | none => (none, cache)

/-- The part for tokens of a squad. -/
def squadAccess (users : Users) (now : ℕ) (authMethod : String) (token : Token) :
    Except Exc (Option User) := do
  ensure (authMethod = "invoke" ∨ authMethod = "read") (.http 401
    "Only invocations and read/GET requests are allowed with squad auth (for now).")
  match token.decode cfg (.rs256 cfg.squadCert) now, token.exp, token.iat, token.sub with
  | .ok (), some _, some _, some userId =>
    match (findUser users userId).filter (·.squadEnabled) with
    | some user => return some user
    | none => throw (.http 401 "Invalid token.")
  | _, _, _, _ => throw (.http 401 "Invalid token.")

/-- **`get_user_from_token`**, of a token that is one: the user, and the
cache afterwards. -/
def getUserFromToken (users : Users) (now : ℕ) (cache : Cache) (authMethod : String)
    (token : Token) : Except Exc (Option User) × Cache :=
  if token.iss = some "squad" then (squadAccess cfg users now authMethod token, cache)
  else
    match token.sub with
    | none => (.error (.http 401 "Invalid token."), cache)
    | some userId =>
      let (hash, cache) := getUserFingerprintHash cfg users now cache userId
      if truthy hash then
        let signStr := hash.getD "" ++ if token.salted then cfg.pgEncryptionKey else ""
        match token.decode cfg (.hs256 (cfg.sha256 signStr)) now with
        | .ok () => (.ok (findUser users userId), cache)
        | .error .expired => (.error (.http 401 "Token expired."), cache)
        | .error .other => (.error (.http 401 "Invalid token."), cache)
      else (.error (.http 401 "Invalid token."), cache)

/-! ## The runs -/

structure State where
  now : ℕ
  users : Users
  /-- The cache of each process. -/
  caches : ℕ → Cache
  /-- The tokens made so far, each with the row it was made from. -/
  issued : List (Token × User)

inductive Event
  | tick (ticks : ℕ)
  | createToken (userId : UserId)
  | getUserFromToken (process : ℕ) (authMethod : String) (token : Token)
  | changeFingerprint (req : Fingerprint.Request)

/-- What the fingerprint endpoint reads of the world. -/
structure World where
  keypair : KeypairLib
  /-- `hashlib.blake2b(fingerprint.encode()).hexdigest()`. -/
  blake2b : String → String

/-- The same, at a time. -/
def World.at (world : World) (cfg : Settings) (now : ℕ) : Fingerprint.Env where
  now := (now / cfg.second : ℕ)
  keypair := world.keypair
  blake2b := world.blake2b

variable (world : World)

def step (s : State) : Event → Option State
  | .tick ticks => some { s with now := s.now + ticks }
  | .createToken userId =>
    (findUser s.users userId).map fun user =>
      { s with issued := (UserToken.createToken cfg user s.now, user) :: s.issued }
  | .getUserFromToken process authMethod token =>
    let cache :=
      (UserToken.getUserFromToken cfg s.users s.now (s.caches process) authMethod token).2
    some { s with caches := Function.update s.caches process cache }
  | .changeFingerprint req =>
    match Fingerprint.changeFingerprint (world.at cfg s.now) req s.users with
    | .ok (_, users) => some { s with users := users }
    | .error _ => some s

def system : Lts State Event where
  init s := (∀ process, s.caches process = .empty) ∧ s.issued = []
  step := step cfg world

/-- The process accepts a token. -/
def Accepts (s : State) (process : ℕ) (authMethod : String) (token : Token) : Prop :=
  ∃ user, (UserToken.getUserFromToken cfg s.users s.now (s.caches process) authMethod token).1 =
    .ok (some user)

/-- **Tokens follow the fingerprint**: whatever token `create_token` may
have made of a user's row so far, whichever hash the row had, is accepted
if and only if it has not expired and that hash is the current one. -/
def Follows (s : State) : Prop :=
  ∀ process authMethod, ∀ user ∈ s.users.rows, ∀ hash, ∀ created ≤ s.now,
    Accepts cfg s process authMethod
        (createToken cfg { user with fingerprintHash := hash } created) ↔
      s.now < (created / cfg.second + 7 * 86400) * cfg.second ∧ hash = user.fingerprintHash

/-- No process has a hash that is not the user's. -/
def Fresh (s : State) : Prop :=
  ∀ process, ∀ user ∈ s.users.rows, ∀ hash,
    (s.caches process).get s.now user.userId = some hash → hash = user.fingerprintHash

/-- **The condition on a fingerprint change**: no process has a cached hash
of the user, other than the new one. -/
def Clean (s : State) : Event → Prop
  | .changeFingerprint req =>
    ∀ sel users', Fingerprint.changeFingerprint (world.at cfg s.now) req s.users =
        .ok (some sel, users') →
      ∀ process, ∀ user ∈ s.users.rows, sel.selects user → ∀ hash,
        (s.caches process).get s.now user.userId = some hash →
          hash = world.blake2b req.fingerprint
  | _ => True

variable {cfg world} {s s' : State} {users : Users} {now : ℕ} {cache : Cache}

/-! ## Verifying a token -/

theorem findUser_of_mem {user : User} (h : user ∈ users.rows) :
    findUser users user.userId = some user := by
  rcases hf : findUser users user.userId with _ | found
  · exact absurd (decide_eq_true rfl) (List.find?_eq_none.1 hf user h)
  · have hid : found.userId = user.userId := by simpa using List.find?_some hf
    rw [users.eq_of_userId (List.mem_of_find?_eq_some hf) h hid]

theorem mem_of_findUser {userId : UserId} {user : User} (h : findUser users userId = some user) :
    user ∈ users.rows ∧ user.userId = userId :=
  ⟨List.mem_of_find?_eq_some h, by simpa using List.find?_some h⟩

/-- The hash a token is verified with: the cached one, else the row's. -/
theorem getUserFingerprintHash_fst {user : User} (h : user ∈ users.rows) :
    (getUserFingerprintHash cfg users now cache user.userId).1 =
      some ((cache.get now user.userId).getD user.fingerprintHash) := by
  unfold getUserFingerprintHash
  cases cache.get now user.userId with
  | some hash => rfl
  | none => rw [findUser_of_mem h]; rfl

theorem isPremature_eq_false {token : Token} :
    token.isPremature cfg now = false ↔ ∀ iat ∈ token.iat, iat * cfg.second ≤ now := by
  unfold Token.isPremature
  cases token.iat <;> simp

theorem isExpired_eq_false {token : Token} :
    token.isExpired cfg now = false ↔ ∀ exp ∈ token.exp, now < exp * cfg.second := by
  unfold Token.isExpired
  cases token.exp <;> simp

theorem decode_eq_ok {token : Token} {signature : Signature} :
    token.decode cfg signature now = .ok () ↔
      token.signature = signature ∧ (∀ iat ∈ token.iat, iat * cfg.second ≤ now) ∧
        ∀ exp ∈ token.exp, now < exp * cfg.second := by
  rw [← isPremature_eq_false, ← isExpired_eq_false]
  unfold Token.decode
  by_cases hsig : token.signature = signature
  · cases token.isPremature cfg now with
    | false =>
      cases token.isExpired cfg now with
      | false => simp [hsig, pure, Except.pure]
      | true => simp [hsig, throw, throwThe, MonadExceptOf.throw]
    | true => simp [hsig, bind, Except.bind, throw, throwThe, MonadExceptOf.throw]
  · simp [hsig, bind, Except.bind, throw, throwThe, MonadExceptOf.throw]

/-- A token that was made in the past is not premature. -/
theorem decode_createToken {user : User} {created : ℕ} {key : String} (hc : created ≤ now) :
    (createToken cfg user created).decode cfg (.hs256 key) now = .ok () ↔
      cfg.sha256 (user.fingerprintHash ++ cfg.pgEncryptionKey) = key ∧
        now < (created / cfg.second + 7 * 86400) * cfg.second := by
  have hiat : created / cfg.second * cfg.second ≤ now :=
    (Nat.div_mul_le_self created cfg.second).trans hc
  rw [decode_eq_ok]
  constructor
  · rintro ⟨hsig, -, hexp⟩
    exact ⟨Signature.hs256.inj hsig, hexp _ rfl⟩
  · rintro ⟨hkey, hexp⟩
    refine ⟨congrArg Signature.hs256 hkey, fun iat h => ?_, fun exp h => ?_⟩
    · obtain rfl := Option.some.inj h
      exact hiat
    · obtain rfl := Option.some.inj h
      exact hexp

/-- **When a token is accepted**: it has not expired, and was signed with the
hash that the process uses. -/
theorem accepts_iff {process : ℕ} {authMethod : String} {user : User} {hash : String} {created : ℕ}
    (hsha : Function.Injective cfg.sha256) (hu : user ∈ s.users.rows) (hc : created ≤ s.now) :
    Accepts cfg s process authMethod
        (createToken cfg { user with fingerprintHash := hash } created) ↔
      s.now < (created / cfg.second + 7 * 86400) * cfg.second ∧ hash ≠ "" ∧
        hash = ((s.caches process).get s.now user.userId).getD user.fingerprintHash := by
  have hfst := @getUserFingerprintHash_fst cfg s.users s.now (s.caches process) user hu
  have hkey : ∀ used, cfg.sha256 (hash ++ cfg.pgEncryptionKey) =
      cfg.sha256 (used ++ cfg.pgEncryptionKey) ↔ hash = used := fun used =>
    ⟨fun h => String.append_left_inj _ |>.1 (hsha h), fun h => by rw [h]⟩
  generalize ((s.caches process).get s.now user.userId).getD user.fingerprintHash = used at hfst ⊢
  have hdecode := @decode_createToken cfg s.now { user with fingerprintHash := hash } created
    (cfg.sha256 (used ++ cfg.pgEncryptionKey)) hc
  rw [hkey used] at hdecode
  rcases hp : getUserFingerprintHash cfg s.users s.now (s.caches process) user.userId with
    ⟨read, cache⟩
  obtain rfl : read = some used := by rw [hp] at hfst; exact hfst
  have hfind := findUser_of_mem hu
  unfold Accepts getUserFromToken
  simp only [createToken] at hdecode ⊢
  simp only [reduceCtorEq, if_false, hp, truthy, bne_iff_ne, ne_eq, Option.getD_some]
  by_cases hused : used = ""
  · subst hused
    simp
  · have hne : hash = used → ¬ hash = "" := fun h => h ▸ hused
    simp only [hused, not_false_eq_true, if_true]
    generalize Token.decode _ _ _ _ = outcome at hdecode ⊢
    rcases outcome with (_ | _) | ⟨⟨⟩⟩
    · simp only [reduceCtorEq, exists_false, false_iff] at hdecode ⊢
      rintro ⟨hexp, -, hhash⟩
      exact hdecode ⟨hhash, hexp⟩
    · simp only [reduceCtorEq, exists_false, false_iff] at hdecode ⊢
      rintro ⟨hexp, -, hhash⟩
      exact hdecode ⟨hhash, hexp⟩
    · obtain ⟨hhash, hexp⟩ := hdecode.1 rfl
      exact iff_of_true ⟨user, congrArg Except.ok hfind⟩ ⟨hexp, hne hhash, hhash⟩

/-- **Tokens follow the fingerprint when the caches do.** -/
theorem follows_iff_fresh (hsha : Function.Injective cfg.sha256)
    (hne : ∀ user ∈ s.users.rows, user.fingerprintHash ≠ "") : Follows cfg s ↔ Fresh s := by
  constructor
  · intro h process user hu cached hcached
    by_contra hstale
    have hexp : s.now < (s.now / cfg.second + 7 * 86400) * cfg.second := by
      have := Nat.div_add_mod s.now cfg.second
      have := Nat.mod_lt s.now cfg.second_pos
      rw [Nat.add_mul, Nat.mul_comm (s.now / cfg.second)]
      omega
    -- a token that is made now is refused
    have hfresh := (h process "" user hu user.fingerprintHash s.now le_rfl).2 ⟨hexp, rfl⟩
    rw [accepts_iff hsha hu le_rfl, hcached, Option.getD_some] at hfresh
    exact hstale hfresh.2.2.symm
  · intro hfresh process authMethod user hu hash created hc
    have hused : ((s.caches process).get s.now user.userId).getD user.fingerprintHash =
        user.fingerprintHash := by
      rcases hcached : (s.caches process).get s.now user.userId with _ | cached
      · rfl
      · exact hfresh process user hu cached hcached
    rw [accepts_iff hsha hu hc, hused]
    exact and_congr_right fun _ => ⟨fun h => h.2, fun h => ⟨h ▸ hne user hu, h⟩⟩

/-! ## What each event does to the caches -/

/-- Looking a hash up leaves only hashes that were there or are the row's. -/
theorem get_getUserFingerprintHash {userId userId' : UserId} {hash : String}
    (h : (getUserFingerprintHash cfg users now cache userId).2.get now userId' = some hash) :
    cache.get now userId' = some hash ∨
      ∃ user ∈ users.rows, user.userId = userId' ∧ user.fingerprintHash = hash := by
  unfold getUserFingerprintHash at h
  split at h
  · exact .inl h
  · split at h
    · next user hfind =>
      obtain ⟨hmem, hid⟩ := mem_of_findUser hfind
      rcases eq_or_ne userId' userId with rfl | hne
      · rw [Expiring.get_set_self, Option.ite_none_right_eq_some] at h
        exact .inr ⟨user, hmem, hid, Option.some.inj h.2⟩
      · rw [Expiring.get_set_of_ne hne] at h
        exact .inl h
    · exact .inl h

/-- Verifying a token touches the cache only in that lookup. -/
theorem getUserFromToken_snd {authMethod : String} {token : Token} :
    (getUserFromToken cfg users now cache authMethod token).2 = cache ∨
      ∃ userId, (getUserFromToken cfg users now cache authMethod token).2 =
        (getUserFingerprintHash cfg users now cache userId).2 := by
  unfold getUserFromToken
  split
  · exact .inl rfl
  · split
    · exact .inl rfl
    · next userId _ =>
      refine .inr ⟨userId, ?_⟩
      rcases hp : getUserFingerprintHash cfg users now cache userId with ⟨hash, cache'⟩
      dsimp only
      split
      · split <;> rfl
      · rfl

theorem Fresh.getUserFromToken {process : ℕ} {authMethod : String} {token : Token}
    (h : Fresh s) :
    Fresh { s with
      caches := Function.update s.caches process
        (UserToken.getUserFromToken cfg s.users s.now (s.caches process) authMethod token).2 } := by
  intro process' user hu hash hhash
  rcases eq_or_ne process' process with rfl | hne
  · simp only [Function.update_self] at hhash
    rcases @getUserFromToken_snd cfg s.users s.now (s.caches process') authMethod token with
      hsame | ⟨id, hid⟩
    · rw [hsame] at hhash
      exact h process' user hu hash hhash
    · rw [hid] at hhash
      rcases get_getUserFingerprintHash hhash with hold | ⟨row, hrow, hrowId, rfl⟩
      · exact h process' user hu hash hold
      · rw [s.users.eq_of_userId hrow hu hrowId]
  · simp only [Function.update_of_ne hne] at hhash
    exact h process' user hu hash hhash

/-- **A fingerprint change** keeps the caches fresh exactly when none of them
has another hash of the user. -/
theorem fresh_changeFingerprint_iff {env : Fingerprint.Env} {req : Fingerprint.Request}
    {sel : Fingerprint.Selector} (h : Fresh s)
    (hok : Fingerprint.changeFingerprint env req s.users = .ok (some sel, users)) :
    Fresh { s with users := users } ↔
      ∀ process, ∀ user ∈ s.users.rows, sel.selects user → ∀ hash,
        (s.caches process).get s.now user.userId = some hash →
          hash = env.blake2b req.fingerprint := by
  obtain ⟨-, sel', user, -, -, -, -, hsel, -, hfilter, hrep⟩ :=
    Fingerprint.changeFingerprint_eq_ok.1 hok
  obtain rfl := Option.some.inj hsel
  obtain ⟨-, rfl⟩ := Fingerprint.replaceHash_eq_ok.1 hrep
  have hmem : ∀ row, row ∈ s.users.rows ∧ sel.selects row ↔ row = user := fun row => by
    rw [← List.mem_filter, hfilter, List.mem_singleton]
  have huser := ((hmem user).2 rfl).1
  constructor
  · intro hafter process row hrow hselects hash hhash
    obtain rfl := (hmem row).1 ⟨hrow, hselects⟩
    refine hafter process { row with fingerprintHash := env.blake2b req.fingerprint } ?_ hash hhash
    exact List.mem_map.2 ⟨row, hrow, if_pos rfl⟩
  · intro hclean process row hrow hash hhash
    obtain ⟨old, hold, rfl⟩ := List.mem_map.1 hrow
    by_cases hid : old.userId = user.userId
    · obtain rfl := s.users.eq_of_userId hold huser hid
      rw [if_pos rfl] at hhash ⊢
      exact hclean process old hold ((hmem old).2 rfl).2 hash hhash
    · rw [if_neg hid] at hhash ⊢
      exact h process old hold hash hhash

/-- The hash of a fingerprint is not empty, and no other is stored. -/
theorem ne_empty_step {e : Event} (hblake : ∀ fingerprint, world.blake2b fingerprint ≠ "")
    (hne : ∀ user ∈ s.users.rows, user.fingerprintHash ≠ "") (h : step cfg world s e = some s') :
    ∀ user ∈ s'.users.rows, user.fingerprintHash ≠ "" := by
  cases e with
  | tick ticks =>
    obtain rfl := Option.some.inj h
    exact hne
  | createToken userId =>
    obtain ⟨user, -, rfl⟩ := Option.map_eq_some_iff.1 h
    exact hne
  | getUserFromToken process authMethod token =>
    obtain rfl := Option.some.inj h
    exact hne
  | changeFingerprint req =>
    simp only [step] at h
    split at h
    · next sel users hok =>
      obtain rfl := Option.some.inj h
      obtain ⟨-, sel', user, -, -, -, -, rfl, -, -, hrep⟩ :=
        Fingerprint.changeFingerprint_eq_ok.1 hok
      obtain ⟨-, rfl⟩ := Fingerprint.replaceHash_eq_ok.1 hrep
      intro row hrow
      obtain ⟨old, hold, rfl⟩ := List.mem_map.1 hrow
      split
      · exact hblake req.fingerprint
      · exact hne old hold
    · obtain rfl := Option.some.inj h
      exact hne

/-- **What one event does to the caches.** -/
theorem fresh_step_iff {e : Event} (hs : Fresh s) (h : step cfg world s e = some s') :
    Fresh s' ↔ Clean cfg world s e := by
  cases e with
  | tick ticks =>
    obtain rfl := Option.some.inj h
    refine iff_of_true (fun process user hu hash hhash => ?_) trivial
    exact hs process user hu hash (Expiring.get_of_le hhash (Nat.le_add_right _ _))
  | createToken userId =>
    obtain ⟨user, -, rfl⟩ := Option.map_eq_some_iff.1 h
    exact iff_of_true hs trivial
  | getUserFromToken process authMethod token =>
    obtain rfl := Option.some.inj h
    exact iff_of_true hs.getUserFromToken trivial
  | changeFingerprint req =>
    simp only [step] at h
    split at h
    · next sel users hok =>
      obtain rfl := Option.some.inj h
      obtain ⟨-, sel, -, -, -, -, -, rfl, -⟩ := Fingerprint.changeFingerprint_eq_ok.1 hok
      rw [fresh_changeFingerprint_iff hs hok]
      constructor
      · intro hall sel' users' hok'
        obtain ⟨hsel, -⟩ := Prod.mk.inj (Except.ok.inj (hok.symm.trans hok'))
        obtain rfl := Option.some.inj hsel
        exact hall
      · exact fun hclean => hclean sel users hok
    · next error herror =>
      obtain rfl := Option.some.inj h
      refine iff_of_true hs fun sel users hok => ?_
      rw [herror] at hok
      cases hok

/-- **Exactly when tokens follow the fingerprint**: in a run, at every
moment, if and only if no fingerprint is changed while some process has
another hash of the user cached. -/
theorem follows_iff {t : State} {es : List Event} (hsha : Function.Injective cfg.sha256)
    (hblake : ∀ fingerprint, world.blake2b fingerprint ≠ "")
    (hne : ∀ user ∈ s.users.rows, user.fingerprintHash ≠ "") (h0 : (system cfg world).init s)
    (he : (system cfg world).exec s es = some t) :
    (∀ bs u, bs <+: es → (system cfg world).exec s bs = some u → Follows cfg u) ↔
      (system cfg world).Meets (Clean cfg world) s es := by
  have hstart : Fresh s := fun process user hu hash hhash => by
    rw [h0.1 process] at hhash
    cases hhash
  refine Lts.forall_prefix_iff_meets (J := fun s => ∀ user ∈ s.users.rows,
      user.fingerprintHash ≠ "") (fun _ _ _ hne _ h _ => ne_empty_step hblake hne h) ?_ hne
    ((follows_iff_fresh hsha hne).2 hstart) he
  intro s e s' hne hfollows h
  rw [follows_iff_fresh hsha (ne_empty_step hblake hne h)]
  exact fresh_step_iff ((follows_iff_fresh hsha hne).1 hfollows) h

private def settings : Settings where
  pgEncryptionKey := "salt"
  squadCert := "cert"
  sha256 := id
  second := 1000000
  second_pos := by decide

/-- A key's signature of any message is the key's own name. -/
private def ownName : KeypairLib
  | none => .error .other
  | some key => .ok fun _ signature => .ok (signature.map UInt8.toNat == key.toList.map Char.toNat)

private def earth : World where
  keypair := ownName
  blake2b fingerprint := "blake2b " ++ fingerprint

private def row : User := { userId := "u", hotkey := some "A", fingerprintHash := "blake2b old" }

private def start : State where
  now := 0
  users := ⟨[row], List.pairwise_singleton _ _⟩
  caches _ := .empty
  issued := []

private def request : Fingerprint.Request where
  hotkey := some "A"
  coldkey := none
  nonce := "0"
  signature := "41"
  fingerprint := "new"

private theorem blake2b_ne (fingerprint : String) : earth.blake2b fingerprint ≠ "" := by
  intro h
  have := congrArg String.length h
  simp [earth] at this

/-- The token is used before the fingerprint is changed. -/
private def used : List Event :=
  [.createToken "u", .getUserFromToken 0 "read" (createToken settings row 0),
    .changeFingerprint request]

/-- **A token from before the change is accepted.** -/
theorem not_follows :
    ¬ ∀ (cfg : Settings) (world : World) (s t : State) (es : List Event),
      Function.Injective cfg.sha256 → (∀ fingerprint, world.blake2b fingerprint ≠ "") →
      (∀ user ∈ s.users.rows, user.fingerprintHash ≠ "") → (system cfg world).init s →
      (system cfg world).exec s es = some t →
        ∀ entry ∈ t.issued, ∀ user ∈ t.users.rows, user.userId = entry.2.userId →
          ∀ process authMethod, Accepts cfg t process authMethod entry.1 →
            entry.2.fingerprintHash = user.fingerprintHash := by
  intro h
  have hrun : (system settings earth).exec start used = some _ := rfl
  have hsame := h settings earth start _ used Function.injective_id blake2b_ne
    (by decide +kernel) ⟨fun _ => rfl, rfl⟩ hrun (createToken settings row 0, row)
    List.mem_cons_self { row with fingerprintHash := "blake2b new" } List.mem_cons_self rfl 0 "read"
    ⟨{ row with fingerprintHash := "blake2b new" }, rfl⟩
  exact absurd hsame (by decide +kernel)

/-- The fingerprint is changed before the token is used. -/
theorem follows_iff_unused :
    ((system settings earth).init start ∧
      ∃ t, (system settings earth).exec start [.createToken "u", .changeFingerprint request] =
        some t) ∧
      ((∀ bs u, bs <+: [.createToken "u", .changeFingerprint request] →
          (system settings earth).exec start bs = some u → Follows settings u) ↔
        (system settings earth).Meets (Clean settings earth) start
          [.createToken "u", .changeFingerprint request]) :=
  ⟨⟨⟨fun _ => rfl, rfl⟩, _, rfl⟩,
    follows_iff Function.injective_id blake2b_ne (by decide +kernel) ⟨fun _ => rfl, rfl⟩ rfl⟩

end UserToken

end ChutesApi
