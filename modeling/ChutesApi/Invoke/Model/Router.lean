import ChutesApi.Invoke.Model.Retry
import ChutesApi.Python.Exc
import Mathlib.Logic.Function.Basic
/-!
# From the endpoint to `invoke`

`_invoke` decides whether the invocation is free, finds the cord, looks in
memcache whether the same prompt was sent before, and calls `invoke`: in
one branch for what is streamed or traced, and in another for the rest.

A call is the same request in both modes: with `stream` in its body, and
without. What the database, Redis and the template's checks of the body
return are its fields.
-/

namespace ChutesApi

namespace Invoke

open Python

/-- A cord of a chute. -/
structure Cord where
  path : String
  publicApiPath : Option String
  publicApiMethod : String := "POST"
  stream : Option Bool := none
  deriving DecidableEq

/-- What is asked of memcache. -/
inductive MemcacheOp
  | get (key : String)
  | set (key : String)
  | incr (key : String)
  | touch (key : String)
  deriving DecidableEq

/-- The counters in memcache. -/
abbrev Counters := String → Option ℕ

/-- What is used of libraries: the hex digits of `uuid.uuid5`, and the text
of a `float`. -/
structure Library where
  uuid5 : String → String
  formatFloat : ℚ → String

/-- A body in one mode: its JSON, and what the template's checks of it
raise. -/
structure Payload where
  rawDump : String
  checks : Option Exc := none

/-- **A call of `_invoke`.** -/
structure Call where
  chute : Chute
  cords : List Cord
  user : User
  /-- `is_shared`. -/
  isShared : Bool
  /-- `request.state.free_invocation`. -/
  freeInvocation : Bool
  /-- `InvocationQuota.get`, and what its key counts. -/
  quota : ℤ
  requestCount : ℚ
  chutesUserId : Option UserId
  effectiveBalance : ℚ
  urlPath : String
  method : String
  includeTrace : Bool
  payload : Bool → Payload
  /-- The messages, joined, if there are any. -/
  promptDump : Option String
  /-- The estimate of the prompt. The body it is taken of has `stream` in it
  and, if that is asked for, `stream_options`. -/
  promptTokens : Bool → ℕ
  steps : ℤ
  /-- The target manager has instances. -/
  available : Bool
  memcache : Counters
  /-- The operations of memcache that raise. -/
  down : MemcacheOp → Bool

variable (lib : Library) (c : Call)

/-! ## Free invocations -/

/-- Neither public, nor billed by the old rules, nor the platform's. -/
def Call.isPrivate : Bool :=
  !c.chute.isPublic && !hasLegacyPrivateBilling c.chute &&
    decide (some c.chute.userId ≠ c.chutesUserId)

/-- Whether the invocation is free, once the account is checked. -/
def Call.checkAccount : Except Exc Bool :=
  let free := c.freeInvocation || c.chute.discount = some (.finite 1)
  if c.user.hasRole Permissioning.freeAccount || c.user.hasRole Permissioning.invoiceBilling ||
      free then
    .ok free
  else if (if c.isPrivate then 0 else c.quota) ≤ c.requestCount then
    if c.effectiveBalance ≤ 0 then
      let balance := lib.formatFloat c.effectiveBalance
      let address := c.user.paymentAddress.getD "None"
      .error (.http 402 (s!"Quota exceeded and account balance is ${balance}, " ++
        s!"please pay with fiat or send tao to {address}"))
    else .ok false
  else .ok true

/-! ## Cords -/

/-- The cord of the public path, and whether it streams. -/
def Call.selectCord (stream : Bool) : Option (Cord × Bool) :=
  (c.cords.find? fun cord =>
    cord.publicApiPath = some c.urlPath && c.urlPath ≠ "" && cord.publicApiMethod = c.method &&
      (c.chute.standardTemplate ≠ some .vllm || some stream = cord.stream)).map fun cord =>
  (cord, stream || cord.stream = some true)

/-! ## Requests sent before -/

/-- A counter that is not there is set to zero, and then incremented: the
counters, and the count if nothing raises. -/
def bump (down : MemcacheOp → Bool) (counters : Counters) (key : String) : Counters × Option ℕ :=
  let value := if down (.get key) then none else counters key
  let counters :=
    if value.isNone && !down (.set key) then Function.update counters key (some 0) else counters
  if down (.incr key) then (counters, none)
  else match counters key with
    | none => (counters, none)
    | some n => (Function.update counters key (some (n + 1)), some (n + 1))

def Call.requestHash (stream : Bool) : String :=
  let raw := (c.payload stream).rawDump
  lib.uuid5 (c.chute.name ++ "::" ++ c.urlPath ++ "::" ++ raw)

/-- The hash of the prompt, if there is a prompt. -/
def Call.promptHash : Option String :=
  (c.promptDump.filter (· ≠ "")).map fun prompt =>
    lib.uuid5 (c.chute.name ++ "::" ++ c.urlPath ++ "::" ++ prompt)

/-- `userreq:…`. -/
def Call.userKey (hash : String) : String := "userreq:" ++ c.user.userId ++ hash

/-- **A re-roll**: the user has sent the prompt before. -/
def Call.reroll : Bool :=
  match c.promptHash lib with
  | none => false
  | some hash =>
    (bump c.down c.memcache (c.userKey hash)).2.any (1 < ·) && !c.down (.touch (c.userKey hash))

/-- The counters after the check for a re-roll. -/
def Call.rerollCounters : Counters :=
  match c.promptHash lib with
  | none => c.memcache
  | some hash => (bump c.down c.memcache (c.userKey hash)).1

/-- One of the hashes is counted: the counters and `user_dupe_count`. -/
def Call.countHash (requestHash : String) (s : Counters × ℕ) (hash : String) : Counters × ℕ :=
  let key := "req:" ++ hash
  match bump c.down s.1 key with
  | (counters, some count) =>
    if !c.down (.touch key) && 1 < count && hash = requestHash then
      let (counters, userCount) := bump c.down counters (c.userKey hash)
      (counters, userCount.getD s.2)
    else (counters, s.2)
  | (counters, none) => (counters, s.2)

/-- `user_dupe_count`. -/
def Call.userDupeCount (stream : Bool) : ℕ :=
  let requestHash := c.requestHash lib stream
  (([requestHash] ++ (c.promptHash lib).toList).foldl (c.countHash requestHash)
    (c.rerollCounters lib, 0)).2

/-- The users that may repeat themselves. -/
def spamExempt : List UserId :=
  ["8930c58d-00f6-57d3-bc62-156eb8b73026", "dff3e6bb-3a6b-5a2b-9c48-da3abcd5ca5f",
    "376536e8-674b-5e6f-b36e-c9168f0bf4a7", "b6bb1347-6ea5-556f-8b23-50b124f3ffc8",
    "5682c3e0-3635-58f7-b7f5-694962450dfc", "2104acf4-999e-5452-84f1-de82de35a7e7",
    "18c244ab-8a2e-5767-ae0e-5d20b50d05b5", "90fd1e31-84c9-5bc4-b628-ccc1e5dc75e6",
    "596a9bd6-2904-546a-a3d7-e2c5b271427b"]

/-- The same request too often. -/
def Call.spams (stream : Bool) : Bool :=
  decide (5000 < c.userDupeCount lib stream) && !c.user.hasRole Permissioning.unlimited &&
    !spamExempt.contains c.user.userId

/-! ## The call of `invoke` -/

/-- The two branches: only one of them hands the re-roll on. What is asked
for has the estimate, and what the cord makes of it the branch. -/
def Call.request (free : Bool) (cord : Cord) (asked stream : Bool) : Request where
  chute := c.chute
  userId := c.user.userId
  path := cord.path
  stream
  reroll := if stream || c.includeTrace then c.reroll lib else false
  freeInvocation := free
  completions :=
    startsWith (lstripPath c.urlPath) "v1/chat" || startsWith (lstripPath c.urlPath) "v1/completion"
  promptTokens := c.promptTokens asked
  steps := c.steps

/-- **`_invoke`**, with or without `stream` in the body: what it calls
`invoke` with, or what it raises. -/
def Call.route (stream : Bool) : Except Exc Request := do
  ensure (c.chute.isPublic || c.chute.userId = c.user.userId || c.isShared)
    (.http 404 "No matching chute found!")
  let free ← c.checkAccount lib
  match c.selectCord stream with
  | none => .error (.http 404 "No matching cord found!")
  | some (cord, streams) =>
    match (c.payload stream).checks with
    | some e => .error e
    | none =>
      ensure c.available
        (.http 503 ("No instances available (yet) for chute_id='" ++ c.chute.chuteId ++ "'"))
      ensure (!c.spams lib stream) (.http 429 "Stop spamming this prompt, please...")
      return c.request lib free cord stream streams

end Invoke

end ChutesApi
