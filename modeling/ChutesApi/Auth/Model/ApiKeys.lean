import ChutesApi.Auth.Model.Credentials
import ChutesApi.Common.Lts
/-!
# The keys of the API over their lifetime

`APIKey.create` builds the text of a key and stores its hash, and the key is
presented later, when its row may be cached or deleted. `KeyStore` is what the
database and the caches in front of it hold, with the keys that were created
so far.
-/

namespace ChutesApi

open Python

namespace Auth

/-- A UUID, by the five groups of its hexadecimal digits. -/
structure Uuid where
  groups : List (List Char)
  lengths : groups.map List.length = [8, 4, 4, 4, 12]
  lower : ∀ group ∈ groups, ∀ c ∈ group, isHexLower c

/-- `str(uuid)`. -/
def Uuid.text (uuid : Uuid) : String := join '-' (uuid.groups.map .ofList)

/-- What `secrets.choice` draws of `ascii_letters + digits`. -/
structure Secret where
  chars : List Char
  length_chars : chars.length = 32
  alphanumeric : ∀ c ∈ chars, isAlphanumeric c

/-- **The password hash**, with its salt: it verifies what was hashed, and
nothing else. -/
structure Argon2 where
  hash : ℕ → String → String
  verify : String → String → Bool
  verify_hash : ∀ salt secret key, verify key (hash salt secret) ↔ key = secret

/-- `s.replace("-", "")`. -/
def removeDashes (s : String) : String := .ofList (removeAll ['-'] s.toList)

/-- `APIKey.generate_key`. -/
def ApiKey.generateKey (userId apiKeyId : String) (secret : Secret) : String :=
  s!"cpk_{removeDashes userId}.{removeDashes apiKeyId}.{String.ofList secret.chars}"

/-- The arguments of a key, but for its name. -/
structure ApiKeyArgs where
  admin : Bool
  scopes : List ApiKeyScope

/-- **A creation**: who it is for, and what is drawn for it. -/
structure Creation where
  userId : Uuid
  args : ApiKeyArgs
  apiKeyId : Uuid
  secret : Secret
  salt : ℕ

/-- The text that is returned; the two ids are passed in the other order. -/
def Creation.key (creation : Creation) : String :=
  ApiKey.generateKey creation.apiKeyId.text creation.userId.text creation.secret

/-- **`APIKey.create`**: the row with its user, and the text. -/
def ApiKey.create (argon2 : Argon2) (creation : Creation) (user : Option User) : ApiKey × String :=
  ({ apiKeyId := creation.apiKeyId.text
     keyHash := argon2.hash creation.salt creation.key
     user
     admin := creation.args.admin
     scopes := if creation.args.admin then [] else creation.args.scopes }, creation.key)

/-- Two readings of one row, between which the user may have changed. -/
def ApiKey.SameRow (a b : ApiKey) : Prop := { a with user := none } = { b with user := none }

/-! ## The store -/

/-- **The rows, what the caches hold, and the keys created so far.** Each
process has a cache that also keeps that there is no such row, and memcache
keeps rows. -/
structure KeyStore where
  rows : List ApiKey
  cached : List (String × Option ApiKey)
  created : List Creation

namespace KeyStore

/-- No row has this id. -/
def Absent (s : KeyStore) (apiKeyId : String) : Prop := ∀ row ∈ s.rows, row.apiKeyId ≠ apiKeyId

instance (s : KeyStore) (apiKeyId : String) : Decidable (s.Absent apiKeyId) :=
  inferInstanceAs (Decidable (∀ row ∈ s.rows, _))

/-- The id has not been drawn before, nor asked for. -/
def Fresh (s : KeyStore) (apiKeyId : String) : Prop :=
  s.Absent apiKeyId ∧ (∀ creation ∈ s.created, creation.apiKeyId.text ≠ apiKeyId) ∧
    ∀ entry ∈ s.cached, entry.1 ≠ apiKeyId

instance (s : KeyStore) (apiKeyId : String) : Decidable (s.Fresh apiKeyId) :=
  inferInstanceAs (Decidable (_ ∧ (∀ creation ∈ s.created, _) ∧ ∀ entry ∈ s.cached, _))

/-- What happens to the keys. -/
inductive Action
  | create (creation : Creation) (user : Option User)
  /-- A key is deleted, by itself or with its user. -/
  | delete (apiKeyId : String)
  /-- The users of the rows change. -/
  | update (user : String → Option User)
  /-- `_load_key` asks the database, and caches what it finds. -/
  | load (tokenId : String)
  /-- What is cached runs out, but for some of it. -/
  | expire (kept : String × Option ApiKey → Bool)

/-- The row of an id. -/
def query (rows : List ApiKey) (tokenId : String) : Except Exc (Option ApiKey) :=
  scalarOneOrNone (rows.filter (·.apiKeyId == tokenId))

/-- **A step.** `generate_uuid` draws a fresh id. -/
def step (argon2 : Argon2) (s : KeyStore) : Action → Option KeyStore
  | .create creation user =>
    if s.Fresh creation.apiKeyId.text then
      some { s with
        rows := (ApiKey.create argon2 creation user).1 :: s.rows
        created := creation :: s.created }
    else none
  | .delete apiKeyId => some { s with rows := s.rows.filter (·.apiKeyId ≠ apiKeyId) }
  | .update user => some { s with rows := s.rows.map fun row =>
      { row with user := user row.apiKeyId } }
  | .load tokenId =>
    match query s.rows tokenId with
    | .ok found => some { s with cached := (tokenId, found) :: s.cached }
    | .error _ => some s
  | .expire kept => some { s with cached := s.cached.filter kept }

/-- Before there are any keys. -/
def empty : KeyStore := ⟨[], [], []⟩

def system (argon2 : Argon2) : Lts KeyStore Action where
  init s := s = empty
  step := step argon2

/-- **A request that meets the store**: its process sees the rows, and some of
what is cached. -/
structure Sees (argon2 : Argon2) (s : KeyStore) (w : World) : Prop where
  rows : w.apiKeys = s.rows
  cached : ∀ tokenId found, w.keyCache tokenId = some found → (tokenId, found) ∈ s.cached
  verify : w.argon2Verify = argon2.verify

end KeyStore

end Auth

end ChutesApi
