import ChutesApi.Auth.Model.Credentials
import ChutesApi.Job.Model
import Mathlib.Algebra.Order.Ring.Abs
import Mathlib.Data.Rat.Cast.Order
/-!
# `get_current_user` and the endpoints behind it

The dependency authenticates by the hotkey headers when a request carries
both, and otherwise by what its authorization header carries, if anything.
The miner endpoints depend on it and then take the miner from the hotkey
header themselves.
-/

namespace ChutesApi

open Python

namespace Auth

variable (w : World) (req : Request)

/-- `nonce_is_valid`, which raises on a digit that `int` refuses. -/
def nonceIsValid : Option String → Except Exc Bool
  | none => .ok false
  | some nonce =>
    if nonce ≠ "" ∧ isDigit nonce then
      match int nonce with
      | none => .error (.raised .valueError)
      | some n => .ok (decide (|w.now - n| < 600))
    else .ok false

/-- `get_signing_message`. -/
def getSigningMessage (hotkey nonce : String) (payloadStr payloadHash purpose : Option String) :
    Except Exc String :=
  if truthy payloadStr then .ok s!"{hotkey}:{nonce}:{w.sha256 (format payloadStr)}"
  else if truthy purpose then .ok s!"{hotkey}:{nonce}:{format purpose}"
  else if truthy payloadHash then .ok s!"{hotkey}:{nonce}:{format payloadHash}"
  else .error (.http 401 "Either payload_str or purpose must be provided")

/-- `use_hotkey_auth`. -/
def Request.usesHotkeyAuth (req : Request) : Bool := truthy req.hotkey && truthy req.signature

/-- A bearer token that is not an API key. -/
def isBearer (authorization token : String) : Bool :=
  token != "" && startsWith (lstrip (lower authorization)) "bearer " &&
    !startsWith (strip token) "cpk_"

/-- `return api_key.user`, of what `get_and_check_api_key` returned. -/
def apiKeyPrincipal : Option ApiKey → Except Exc Principal
  | none => .error (.raised .attributeError)
  | some apiKey => .ok { user := apiKey.user, apiKey := some apiKey }

/-- The branch without hotkey authentication. -/
def authenticateCredential (raiseNotFound : Bool) : Except Exc Principal := do
  if truthy req.authorization then
    let authorization := format req.authorization
    let token := splitLast authorization ' '
    if isBearer authorization token then
      return ← getUserFromToken w req token
    if token ≠ "" then
      return ← apiKeyPrincipal (← getAndCheckApiKey w req token)
  ensure (raiseNotFound = false) (.http 401 "Can't find a user with that api key in our db :(")
  return { user := none }

/-- The origin check of the one hotkey that has a whitelist. -/
def checkWhitelist (purpose : Option String) (hotkey : String) : Except Exc Unit :=
  let originIp := splitHead (req.forwardedFor.getD "") ','
  ensure (purpose = some "sockets" ∨ purpose = some "registry" ∨
      hotkey ≠ "5FhMaRd59y5nyDEtCz1JMMEMZzAGimtmC8m5AfCeXVE3vzCx" ∨
      originIp = "207.246.94.14" ∨ req.clientHost = "207.246.94.14")
    (.http 401 s!"Unauthorized IP address: origin_ip={Python.repr originIp} {req.clientHost}")

/-- `Keypair(hotkey).verify(…)`, where a `ValueError` is a refusal. -/
def verifySignature (hotkey message : String) (signatureHex : List UInt8) : Except Exc Unit :=
  let refused := Exc.http 401 s!"Invalid request signature for hotkey {hotkey}. Message: {message}"
  let error (e : PyError) := if e = .valueError then refused else .raised e
  match w.keypair (some hotkey) with
  | .error e => .error (error e)
  | .ok verify =>
    match verify message signatureHex with
    | .error e => .error (error e)
    | .ok verified => ensure (verified = true) refused

/-- The branch with it. -/
def authenticateHotkey (purpose : Option String) (registeredTo : Option ℕ) (raiseNotFound : Bool)
    (hotkey signature : String) : Except Exc Principal := do
  let valid ← nonceIsValid w req.nonce
  ensure (valid = true) (.http 401 "Invalid nonce!")
  checkWhitelist req purpose hotkey
  let signingMessage ←
    getSigningMessage w hotkey (format req.nonce) none req.bodySha256 purpose
  let signatureHex ← (fromHex signature).mapError fun i =>
    Exc.http 401 s!"Invalid signature: {signature}, with error: {fromHexError i}"
  verifySignature w hotkey signingMessage signatureHex
  ensure (∀ netuid ∈ registeredTo, ∃ node ∈ w.metagraphNodes,
      node.hotkey = hotkey ∧ node.netuid = some netuid)
    (.http 401 s!"Hotkey is not registered on netuid {w.netuid}")
  let user ← scalarOneOrNone (w.users.rows.filter (·.hotkey == some hotkey))
  ensure (¬(user = none ∧ raiseNotFound ∧ registeredTo.getD 0 = 0))
    (.http 401 s!"Could not find user with hotkey: {hotkey}")
  return { user }

/-- **The dependency** that `get_current_user` builds. No path of it reads
`allow_api_key`. -/
def authenticate (purpose : Option String) (registeredTo : Option ℕ)
    (raiseNotFound _allowApiKey : Bool) : Except Exc Principal :=
  if req.usesHotkeyAuth then
    authenticateHotkey w req purpose registeredTo raiseNotFound (format req.hotkey)
      (format req.signature)
  else authenticateCredential w req raiseNotFound

/-! ## Endpoints -/

/-- A row of `nodes`. -/
structure Node where
  uuid : String
  minerHotkey : String
  deriving DecidableEq, Repr

/-- `delete_node`. -/
def deleteNode (nodeId : String) (nodes : List Node) : Except Exc (List Node) := do
  let _ ← authenticate w req (some "nodes") (some w.netuid) false false
  match ← scalarOneOrNone
      (nodes.filter fun node => some node.minerHotkey == req.hotkey && node.uuid == nodeId) with
  | none => throw (.http 404 "Node does not exist, or does not belong to you")
  | some node =>
    ensure (¬(startsWith (req.forwardedFor.getD "") "80.66.81.5" ∧
        req.hotkey = some "5E4pekHmvKsngYBt69g6iGGrzWq9BAGoGTTbPVazYtTJpoh8"))
      (.http 401 ("Old/defunct miner setup: verification " ++
        "50d5068fa0f24aa707eeb07c33329ca31d343707" ++
        "c226b8655d4a4a766968f054a930a2a7b691bd9ddfd071d8cfa6010c30acc3c541deb4f86c744c37db7f158c"))
    return nodes.erase node

/-- `release_job`. -/
def releaseJob (jobId : String) (jobs : List Job) : Except Exc (List Job) := do
  let _ ← authenticate w req (some "miner") (some w.netuid) true false
  match ← scalarOneOrNone
      (jobs.filter fun job =>
        job.minerHotkey == req.hotkey && !job.finished && job.jobId == jobId) with
  | none =>
    throw (.http 404
      s!"job_id={Python.repr jobId} not found or is not associated with your miner")
  | some job => return jobs.map fun j => if j.jobId = job.jobId then j.release else j

end Auth

end ChutesApi
