import ChutesApi.Chute.Suitable
import ChutesApi.Common.Dict
import ChutesApi.Common.Lts
import ChutesApi.Node.Model.Specs
import Mathlib.Data.List.MinMax
import Mathlib.Data.List.Sort
import Mathlib.Logic.Function.Basic
/-!
# The inventory of GPUs

Miners post their GPUs, a worker challenges them, and a claim of a launch
config ties some of them to a new instance. A post awaits the check of its
hosts between its queries and its insertion; a deletion is one transaction.
A worker's task loads rows, challenges them for minutes,
and then updates whatever rows have those ids. A claim loads and inserts one
GPU after the other; what it has inserted is its own until it commits, and
holds the rows of `nodes` against deletion.

Times are in microseconds.
-/

namespace ChutesApi

open Python

namespace Inventory

/-- What the process is set up with, and the services it asks. -/
structure Config where
  skipGpuVerification : Bool
  deviceInfoChallengeCount : ℕ
  /-- `is_valid_host`, which looks the host up. -/
  isValidHost : String → Bool
  /-- `/verify_device_challenge`: devices, challenge and response. -/
  verifyDeviceInfo : List NodeArgs → String → String → Bool
  /-- `/check_proof`: the device, the seed and the work product. -/
  checkProof : NodeArgs → ℕ → String → Bool

/-- A row of `nodes`. -/
structure Node (w : WordChars) where
  args : NodeArgs
  fits : ∃ specs, Fits w args specs
  minerHotkey : String
  serverId : Option String
  seed : ℕ
  verifiedAt : Option ℕ
  verificationError : Option String
  deriving DecidableEq

/-- A row of `node_history`. -/
structure HistoryEntry where
  nodeId : String
  minerHotkey : String
  createdAt : ℕ
  deletedAt : Option ℕ
  deriving DecidableEq

/-- What a claim is made with: the chute, the launch config's hotkey, the
posted host and `set(node_ids)`. -/
structure ClaimArgs where
  chuteId : String
  chuteName : String
  selector : NodeSelector
  hotkey : String
  host : String
  nodeIds : List String
  nodup : nodeIds.Nodup
  deriving DecidableEq

/-- A claim between its statements: the GPUs still to check, the one that is
loaded, and those inserted. -/
structure Claim (w : WordChars) where
  args : ClaimArgs
  todo : List String
  loaded : Option (Node w)
  nodes : List (Node w)

/-- A `/info` challenge with the reply. -/
structure DeviceInfo where
  challenge : String
  status : ℕ
  response : String
  deriving DecidableEq

/-- A reply to `/prove`, and the seconds it took. -/
structure Proof where
  status : ℕ
  plaintext : String → Option String
  workProduct : String → Option String
  seconds : ℚ

/-- What the challenges of a task come to. -/
structure Challenge where
  deviceInfo : List DeviceInfo
  /-- The plaintext that was encrypted for a GPU. -/
  plaintext : String → String
  /-- The reply, unless the request raised. -/
  proof : Option Proof

/-- A task of the worker, with the rows it has loaded. -/
structure Task (w : WordChars) where
  uuids : List String
  nodes : List (Node w)

/-- A post of GPUs. -/
structure CreateRequest where
  hotkey : Option String
  serverId : Option String
  nodes : List NodeArgs
  seed : ℕ

/-- A post whose queries have found nothing against it, with the `NOW()` of
its transaction and, as a record of the run, the history that it read. -/
structure Post where
  req : CreateRequest
  hotkey : String
  now : ℕ
  history : List HistoryEntry

/-- **The tables**, the transactions and tasks that are under way, and, as a
record of the run, the challenges that were met and the GPUs that were
deleted from under an instance. -/
structure State (w : WordChars) where
  now : ℕ
  /-- `metagraph_nodes` of the subnet: the `blacklist_reason`. -/
  metagraph : String → Option (Option String)
  nodes : Dict String (Node w)
  history : List HistoryEntry
  posts : Dict ℕ Post
  queued : List (List String)
  tasks : Dict ℕ (Task w)
  instances : Dict String ClaimArgs
  claims : Dict String (Claim w)
  /-- `instance_nodes`, whose `node_id` is unique. -/
  instanceNodes : Dict String String
  instanceNodeHistory : List (String × String × String)
  met : List (Task w × Challenge)
  lost : List (String × String)

section

variable {w : WordChars} (cfg : Config)

/-! ## Posting GPUs -/

/-- 24 hours. -/
def day : ℕ := 24 * 60 * 60 * 1000000

/-- `filtered_history`, before the latest row is looked at. -/
def recent (history : List HistoryEntry) (now : ℕ) (nodeId : String) : List HistoryEntry :=
  history.filter fun e => e.nodeId = nodeId ∧ now ≤ e.createdAt + day

/-- `WHERE NOT (miner_hotkey = :hotkey AND row_num = 1)`. -/
def counted (rows : List HistoryEntry) (hotkey : String) : List HistoryEntry :=
  match rows.argmax HistoryEntry.createdAt with
  | none => rows
  | some latest => if latest.minerHotkey = hotkey then rows.erase latest else rows

/-- `HAVING COUNT(*) > 2 AND COUNT(DISTINCT(miner_hotkey)) >= 2`. -/
def isHopping (rows : List HistoryEntry) : Bool :=
  2 < rows.length && 2 ≤ (rows.map HistoryEntry.minerHotkey).dedup.length

/-- **The GPUs that have hopped** between hotkeys, with how often, by that. -/
def hoppingNodes (history : List HistoryEntry) (now : ℕ) (hotkey : String)
    (nodeIds : List String) : List (String × ℕ) :=
  ((nodeIds.dedup.map fun nodeId => (nodeId, counted (recent history now nodeId) hotkey)).filter
    fun e => isHopping e.2).map (fun e => (e.1, e.2.length))
    |>.insertionSort fun e e' => e'.2 ≤ e.2

/-- `Node(…)`. -/
def Node.new (w : WordChars) (hotkey : String) (serverId : Option String) (seed : ℕ)
    (verifiedAt : Option ℕ) (args : NodeArgs) : Except NodeError (Node w) :=
  match h : validateAll w args with
  | .error e => .error e
  | .ok () => .ok
    { args, fits := validateAll_eq_ok.1 h, minerHotkey := hotkey, serverId, seed, verifiedAt
      verificationError := none }

/-- What a `ValueError` of the constructor is answered with. -/
def NodeError.toExc (e : NodeError) : Exc :=
  match e with
  | .overflow => .raised .other
  | _ => .http 400 s!"GPU parameter validation error: {e.message}"

/-- `fn_node_history_insert`. -/
def Node.entry (now : ℕ) (node : Node w) : HistoryEntry :=
  ⟨node.args.uuid, node.minerHotkey, now, none⟩

/-- **`create_nodes`, up to its queries**, which fall together. -/
def State.checkNodes (s : State w) (req : CreateRequest) : Except Exc Post := do
  let some hotkey := req.hotkey | throw (.raised .attributeError)
  let some blacklistReason := s.metagraph hotkey | throw (.raised .attributeError)
  ensure (blacklistReason.getD "" = "")
    (.http 403 ("Your hotkey has been blacklisted: " ++ blacklistReason.getD ""))
  ensure (req.nodes.length ≤ 10) (.http 400 "Limit is 10 GPUs per server.")
  let nodeUuids := req.nodes.map NodeArgs.uuid
  let existing := nodeUuids.dedup.filter (· ∈ s.nodes.keys)
  ensure (existing = []) (.http 409 ("Nodes already exist in inventory, please contact chutes " ++
    "team to resolve: [" ++ ", ".intercalate (existing.map Python.repr) ++ "]"))
  let hopping := hoppingNodes s.history s.now hotkey nodeUuids
  ensure (hopping = []) (.http 429 ("Detected GPU hotkey hopping for nodes: " ++
    ", ".intercalate (hopping.map fun e => s!"{e.1} (used {e.2} times recently)")))
  return ⟨req, hotkey, s.now, s.history⟩

/-- **`create_nodes`, once the hosts are checked**: the rows are inserted under
their primary key and the foreign key to the metagraph. `created_at` and
`verified_at` are the time at which the transaction began. -/
def State.createNodes (s : State w) (post : Post) : Except Exc (State w) := do
  ensure (∀ args ∈ post.req.nodes, cfg.isValidHost args.verificationHost)
    (.http 400 "One or more invalid verification_hosts provided.")
  let verifiedAt := if cfg.skipGpuVerification then some post.now else none
  let nodes ← (post.req.nodes.mapM
    (Node.new w post.hotkey post.req.serverId post.req.seed verifiedAt)).mapError NodeError.toExc
  let nodeUuids := post.req.nodes.map NodeArgs.uuid
  ensure (nodeUuids.Nodup ∧ (∀ uuid ∈ nodeUuids, uuid ∉ s.nodes.keys) ∧
    (s.metagraph post.hotkey).isSome) (.raised .integrityError)
  return { s with
    nodes := nodes.foldl (fun d node => d.set node.args.uuid node) s.nodes
    history := s.history ++ nodes.map (Node.entry post.now)
    queued := if cfg.skipGpuVerification then s.queued else s.queued ++ [nodeUuids] }

/-! ## Deleting GPUs -/

/-- `fn_node_history_delete`: the latest entry of the GPU and the miner. -/
def deleteEntry (history : List HistoryEntry) (now : ℕ) (node : Node w) : List HistoryEntry :=
  match (history.filter fun e => e.nodeId = node.args.uuid ∧
      e.minerHotkey = node.minerHotkey).argmax HistoryEntry.createdAt with
  | none => history
  | some latest =>
    history.map fun e => if e = latest then { e with deletedAt := some now } else e

/-- A row of `nodes` is gone. -/
def State.removeNode (s : State w) (node : Node w) : State w :=
  { s with
    nodes := s.nodes.pop node.args.uuid
    history := deleteEntry s.history s.now node }

/-- Some transaction has inserted a row for the GPU and has not ended. -/
def State.isHeld (s : State w) (uuid : String) : Bool :=
  s.claims.values.any fun c => c.nodes.any fun node => node.args.uuid = uuid

/-- **`delete_node`**, of a session that has seen the GPU in the instance
`seen`, if in any: it deletes that row of `instance_nodes` with the GPU, and
the foreign key refuses where another is left. -/
def State.deleteNode (s : State w) (hotkey uuid : String) (originIp : String)
    (seen : Option String) : Except Exc (State w) := do
  let some node := (s.nodes.get? uuid).filter fun node => node.minerHotkey = hotkey
    | throw (.http 404 "Node does not exist, or does not belong to you")
  ensure (¬(startsWith originIp "80.66.81.5" ∧
      hotkey = "5E4pekHmvKsngYBt69g6iGGrzWq9BAGoGTTbPVazYtTJpoh8"))
    (.http 401 ("Old/defunct miner setup: verification " ++
      "50d5068fa0f24aa707eeb07c33329ca31d343707" ++
      "c226b8655d4a4a766968f054a930a2a7b691bd9ddfd071d8cfa6010c30acc3c541deb4f86c744c37db7f158c"))
  match s.instanceNodes.get? uuid with
  | none => return s.removeNode node
  | some iid =>
    ensure (seen = some iid) (.raised .integrityError)
    return { s.removeNode node with
      instanceNodes := s.instanceNodes.pop uuid
      lost := (iid, uuid) :: s.lost }

/-- A hotkey is gone from the metagraph, and its GPUs with it; the foreign
key of `instance_nodes` has no cascade, and refuses. -/
def State.deregister (s : State w) (hotkey : String) : Except Exc (State w) := do
  let gone := s.nodes.values.filter (·.minerHotkey = hotkey)
  ensure (∀ node ∈ gone, node.args.uuid ∉ s.instanceNodes.keys) (.raised .integrityError)
  return { gone.foldl State.removeNode s with
    metagraph := Function.update s.metagraph hotkey none }

/-! ## Challenging GPUs -/

/-- `estimate * 0.55 < delta < estimate * 1.7`, in floats. -/
def inTime (estimate : ℕ) (seconds : ℚ) : Bool :=
  match nearest (55 / 100), nearest (17 / 10) with
  | .finite least, .finite most =>
    match nearest (estimate * least), nearest (estimate * most) with
    | .finite lower, .finite upper => lower < seconds && seconds < upper
    | _, _ => false
  | _, _ => false

/-- `check_device_info_challenge`. -/
def DeviceInfo.passes (nodes : List (Node w)) (info : DeviceInfo) : Bool :=
  info.status = 200 && cfg.verifyDeviceInfo (nodes.map Node.args) info.challenge info.response

/-- **`verify_povw_challenge`**: the plaintexts, the time and the proofs. The
time and the seed are those of the first GPU. -/
def verifyPovwChallenge (nodes : List (Node w)) (challenge : Challenge) : Bool :=
  match nodes, challenge.proof with
  | first :: _, some proof =>
    match gpuSpecs.lookup first.args.gpuIdentifier with
    | none => false
    | some specs =>
      proof.status = 200 &&
        nodes.all (fun node =>
          proof.plaintext node.args.uuid == some (challenge.plaintext node.args.uuid)) &&
        inTime specs.estimate proof.seconds &&
        nodes.all fun node =>
          (proof.workProduct node.args.uuid).any (cfg.checkProof node.args first.seed)
  | _, _ => false

/-- `validate_gpus` up to the challenges: the rows there are, in the order of
the ids, if none is missing. -/
def State.load (s : State w) (uuids : List String) : Option (Task w) :=
  let nodes := uuids.filterMap s.nodes.get?
  if nodes = [] ∨ nodes.length ≠ uuids.length then none else some ⟨uuids, nodes⟩

/-- `UPDATE nodes … WHERE uuid IN …`. -/
def State.updateNodes (s : State w) (uuids : List String) (f : Node w → Node w) : State w :=
  { s with nodes := s.nodes.map fun uuid node => if uuid ∈ uuids then f node else node }

/-- **`validate_gpus`, once the challenges are through**; the text of the
error and the new seed come with them. -/
def State.finish (s : State w) (task : Task w) (challenge : Challenge) (message : String)
    (newSeed : ℕ) : State w :=
  if ¬(challenge.deviceInfo.length = cfg.deviceInfoChallengeCount ∧
      ∀ info ∈ challenge.deviceInfo, info.passes cfg task.nodes) then
    s.updateNodes task.uuids fun node => { node with verificationError := some message }
  else if ¬verifyPovwChallenge cfg task.nodes challenge then
    s.updateNodes task.uuids fun node =>
      { node with seed := newSeed, verificationError := some message }
  else
    { s.updateNodes task.uuids fun node =>
        { node with verifiedAt := some s.now, verificationError := none } with
      met := (task, challenge) :: s.met }

/-! ## Claiming GPUs -/

/-- `_validate_nodes`, before its loop. -/
def ClaimArgs.begin (args : ClaimArgs) : Except Exc (Claim w) := do
  ensure (args.selector.gpuCount = some args.nodeIds.length)
    (.http 400 (s!"chute.chute_id={Python.repr args.chuteId} " ++
      s!"chute.name={Python.repr args.chuteName} " ++
      "requires exactly " ++ args.selector.gpuCount.elim "None" toString ++ " GPUs."))
  return ⟨args, args.nodeIds, none, []⟩

/-- **`_validate_node`.** -/
def State.validateNode (s : State w) (args : ClaimArgs) (nodeId : String) :
    Except Exc (Node w) := do
  let some node := (s.nodes.get? nodeId).filter fun node => node.minerHotkey = args.hotkey
    | throw (.http 404 s!"Node {nodeId} not found")
  ensure (node.verifiedAt ≠ none) (.http 400
    s!"GPU {nodeId} is not yet verified, and cannot be associated with an instance")
  match s.instanceNodes.get? nodeId with
  | some iid => throw (.http 409 (s!"GPU {nodeId} is already assigned to an instance: " ++
      s!"instance.instance_id={Python.repr iid} " ++
      "instance.chute_id=" ++ Python.repr ((s.instances.get? iid).elim "" ClaimArgs.chuteId)))
  | none =>
    let suitable ←
      NodeSelector.Node.isSuitable ⟨node.verifiedAt, node.args.gpuIdentifier⟩ args.selector
    ensure suitable (.http 400 s!"Node {nodeId} is not compatible with chute node selector!")
    return node

/-- The hosts of the GPUs, once they are all there. -/
def Claim.checkHosts (c : Claim w) : Except Exc Unit :=
  match (c.nodes.map fun node => node.args.verificationHost).dedup with
  | [] => .error (.raised .other)
  | [host] => ensure (lower host = lower c.args.host) (mismatch [host])
  | hosts => .error (mismatch hosts)
where
  mismatch (hosts : List String) : Exc :=
    .http 400 ("Instance hostname does not match the node verification hostname: " ++
      s!"host={Python.repr c.args.host} vs " ++
      "node_hosts=\x7b" ++ ", ".intercalate (hosts.map Python.repr) ++ "\x7d")

/-- `INSERT INTO instance_nodes`: the GPU has to be there, and in no
instance. -/
def State.insertNode (s : State w) (c : Claim w) (node : Node w) : Except Exc (Claim w) := do
  ensure (node.args.uuid ∈ s.nodes.keys ∧ node.args.uuid ∉ s.instanceNodes.keys)
    (.raised .integrityError)
  return { c with loaded := none, nodes := c.nodes ++ [node] }

/-- The claim commits, and with it the rows of the trigger
`track_instance_node_assignment`. -/
def State.commit (s : State w) (iid : String) (c : Claim w) : State w :=
  { s with
    claims := s.claims.pop iid
    instances := s.instances.set iid c.args
    instanceNodes := c.nodes.foldl (fun d node => d.set node.args.uuid iid) s.instanceNodes
    instanceNodeHistory := s.instanceNodeHistory ++
      (c.nodes.map fun node => (iid, node.args.uuid, c.args.hotkey)).filter
        fun e => s.instanceNodeHistory.all fun e' => (e'.1, e'.2.1) ≠ (e.1, e.2.1) }

/-- An instance is deleted, by whichever path, and its rows of
`instance_nodes` go with it. -/
def State.deleteInstance (s : State w) (iid : String) : State w :=
  { s with
    instances := s.instances.pop iid
    instanceNodes := s.instanceNodes.filter fun e => e.2 ≠ iid }

end

/-! ## The system -/

/-- One step of a run. -/
inductive Action
  | tick (d : ℕ)
  /-- A hotkey is in the metagraph. -/
  | register (hotkey : String) (blacklistReason : Option String)
  | deregister (hotkey : String)
  /-- The queries of a post. -/
  | check (post : ℕ) (req : CreateRequest)
  | create (post : ℕ)
  | delete (hotkey uuid originIp : String) (seen : Option String)
  | load (task : ℕ) (uuids : List String)
  | finish (task : ℕ) (challenge : Challenge) (message : String) (newSeed : ℕ)
  | begin (iid : String) (args : ClaimArgs)
  | validate (iid : String)
  | insert (iid : String)
  | commit (iid : String)
  | abort (iid : String)
  | deleteInstance (iid : String)

section

variable {w : WordChars} (cfg : Config)

/-- **One step.** A statement that has to wait for another transaction is not
enabled, nor is a request that is refused; a post or a claim that is refused
after its first statement is rolled back. The id of a claim is a new one. -/
def State.step (s : State w) : Action → Option (State w)
  | .tick d => some { s with now := s.now + d }
  | .register hotkey blacklistReason =>
    some { s with metagraph := Function.update s.metagraph hotkey (some blacklistReason) }
  | .deregister hotkey =>
    if s.nodes.values.any fun node => node.minerHotkey = hotkey && s.isHeld node.args.uuid then none
    else (s.deregister hotkey).toOption
  | .check id req =>
    if id ∈ s.posts.keys then none
    else (s.checkNodes req).toOption.map fun post => { s with posts := s.posts.set id post }
  | .create id => (s.posts.get? id).map fun post =>
    match s.createNodes cfg post with
    | .ok s' => { s' with posts := s.posts.pop id }
    | .error _ => { s with posts := s.posts.pop id }
  | .delete hotkey uuid originIp seen =>
    if s.isHeld uuid then none else (s.deleteNode hotkey uuid originIp seen).toOption
  | .load task uuids =>
    if uuids ∈ s.queued ∧ task ∉ s.tasks.keys then
      some { s with
        queued := s.queued.erase uuids
        tasks := (s.load uuids).elim s.tasks (s.tasks.set task) }
    else none
  | .finish task challenge message newSeed =>
    (s.tasks.get? task).map fun t =>
      { s.finish cfg t challenge message newSeed with tasks := s.tasks.pop task }
  | .begin iid args =>
    if iid ∈ s.claims.keys ∨ iid ∈ s.instances.keys ∨ iid ∈ s.instanceNodeHistory.map (·.1)
      then none
    else args.begin.toOption.map fun c => { s with claims := s.claims.set iid c }
  | .validate iid =>
    match s.claims.get? iid with
    | some ⟨args, nodeId :: todo, none, nodes⟩ =>
      match s.validateNode args nodeId with
      | .ok node => some { s with claims := s.claims.set iid ⟨args, todo, some node, nodes⟩ }
      | .error _ => some { s with claims := s.claims.pop iid }
    | _ => none
  | .insert iid =>
    match s.claims.get? iid with
    | some ⟨args, todo, some node, nodes⟩ =>
      if s.isHeld node.args.uuid then none
      else match s.insertNode ⟨args, todo, some node, nodes⟩ node with
        | .ok c => some { s with claims := s.claims.set iid c }
        | .error _ => some { s with claims := s.claims.pop iid }
    | _ => none
  | .commit iid =>
    match s.claims.get? iid with
    | some ⟨args, [], none, nodes⟩ =>
      match (⟨args, [], none, nodes⟩ : Claim w).checkHosts with
      | .ok () => some (s.commit iid ⟨args, [], none, nodes⟩)
      | .error _ => some { s with claims := s.claims.pop iid }
    | _ => none
  | .abort iid =>
    if iid ∈ s.claims.keys then some { s with claims := s.claims.pop iid } else none
  | .deleteInstance iid => some (s.deleteInstance iid)

/-- Nothing is in the tables. -/
def initial (w : WordChars) : State w where
  now := 0
  metagraph _ := none
  nodes := .empty
  history := []
  posts := .empty
  queued := []
  tasks := .empty
  instances := .empty
  claims := .empty
  instanceNodes := .empty
  instanceNodeHistory := []
  met := []
  lost := []

/-- **The system.** -/
def system (w : WordChars) : Lts (State w) Action where
  init s := s = initial w
  step := State.step cfg

end

end Inventory

end ChutesApi
