import ChutesApi.Auth.Model.Service
import Mathlib.Data.List.Nodup
/-!
# Hotkey authentication

A dependency built with `registered_to` is sound when what it lets through
carries a signature of its hotkey header's key and that key is a node of the
subnet. It is on the requests that carry both hotkey headers, and on the
others only where the credential they carry instead is refused
(`authenticate_authentic_iff`): a request with a hotkey header and no
signature is let through, and the endpoint then acts for that hotkey
(`deleteNode_unsigned`).
-/

namespace ChutesApi

open Python

namespace Auth

variable {w : World} {req : Request} {purpose : Option String} {raiseNotFound allowApiKey : Bool}
variable {netuid : ℕ} {p : Principal}

/-- **The law**: the request carries a signature that verifies under its
hotkey header's key, and that key is a node of the subnet. -/
def Authentic (w : World) (req : Request) (purpose : Option String) (netuid : ℕ) : Prop :=
  ∃ hotkey signature message signatureHex,
    req.hotkey = some hotkey ∧ hotkey ≠ "" ∧ req.signature = some signature ∧ signature ≠ "" ∧
      getSigningMessage w hotkey (format req.nonce) none req.bodySha256 purpose = .ok message ∧
      fromHex signature = .ok signatureHex ∧ w.keypair.Verifies hotkey message signatureHex ∧
      ∃ node ∈ w.metagraphNodes, node.hotkey = hotkey ∧ node.netuid = some netuid

/-- **What a request without the hotkey headers needs to be let through**:
an accepted token, an accepted API key, or, with neither in its
authorization header, a dependency that does not raise. -/
def CredentialAccepted (w : World) (req : Request) (raiseNotFound : Bool) : Prop :=
  let authorization := format req.authorization
  let token := splitLast authorization ' '
  if truthy req.authorization ∧ token ≠ "" then
    if isBearer authorization token then TokenAccepted w req token
    else ApiKeyAccepted w req token
  else raiseNotFound = false

/-! ## The two branches -/

theorem verifySignature_eq_ok {hotkey message : String} {signatureHex : List UInt8} {u : Unit} :
    verifySignature w hotkey message signatureHex = .ok u ↔
      w.keypair.Verifies hotkey message signatureHex := by
  unfold verifySignature KeypairLib.Verifies
  cases w.keypair (some hotkey) with
  | error e => simp
  | ok verify =>
    simp only [Except.ok.injEq, exists_eq_left']
    cases verify message signatureHex with
    | error e => simp
    | ok verified => simp

/-- **The hotkey branch is sound.** -/
theorem authenticateHotkey_authentic {hotkey signature : String} (hh : req.hotkey = some hotkey)
    (hhne : hotkey ≠ "") (hs : req.signature = some signature) (hsne : signature ≠ "")
    (h : authenticateHotkey w req purpose (some netuid) raiseNotFound hotkey signature = .ok p) :
    Authentic w req purpose netuid := by
  unfold authenticateHotkey at h
  simp only [bind_eq_ok, ensure_eq_ok, mapError_eq_ok, verifySignature_eq_ok] at h
  obtain ⟨-, -, -, -, -, -, message, hmessage, signatureHex, hhex, -, hverify, -, hnode, -⟩ := h
  exact ⟨hotkey, signature, message, signatureHex, hh, hhne, hs, hsne, hmessage, hhex, hverify,
    hnode netuid rfl⟩

/-- A header is truthy when it is there and not empty. -/
theorem truthy_iff {s : Option String} : truthy s ↔ ∃ t, s = some t ∧ t ≠ "" := by
  cases s <;> simp [truthy]

theorem isBearer_ne_empty {authorization token : String} (h : isBearer authorization token) :
    token ≠ "" := by
  simp only [isBearer, Bool.and_eq_true, bne_iff_ne] at h
  exact h.1.1

theorem apiKeyPrincipal_returns {token : String} :
    (∃ p, (getAndCheckApiKey w req token >>= apiKeyPrincipal) = .ok p) ↔
      ApiKeyAccepted w req token := by
  rw [← getAndCheckApiKey_returns]
  simp only [bind_eq_ok]
  constructor
  · rintro ⟨p, k, hk, -⟩
    exact ⟨k, hk⟩
  · rintro ⟨k, hk⟩
    cases k with
    | none => exact absurd hk getAndCheckApiKey_ne_false
    | some k => exact ⟨_, some k, hk, rfl⟩

/-- **The other branch lets through what its credential lets through.** -/
theorem authenticateCredential_returns :
    (∃ p, authenticateCredential w req raiseNotFound = .ok p) ↔
      CredentialAccepted w req raiseNotFound := by
  unfold authenticateCredential CredentialAccepted
  by_cases hauth : truthy req.authorization
  · by_cases hbearer :
        isBearer (format req.authorization) (splitLast (format req.authorization) ' ')
    · have hne := isBearer_ne_empty hbearer
      simp [hauth, hbearer, hne, getUserFromToken_returns]
    · by_cases hne : splitLast (format req.authorization) ' ' = ""
      · simp [hauth, hne, isBearer, map_eq_ok]
      · simp [hauth, hbearer, hne, ← apiKeyPrincipal_returns]
  · simp [hauth, map_eq_ok]

/-! ## Soundness -/

/-- **Sound on the requests that carry both hotkey headers.** -/
theorem authenticate_signed (huse : req.usesHotkeyAuth)
    (h : authenticate w req purpose (some netuid) raiseNotFound allowApiKey = .ok p) :
    Authentic w req purpose netuid := by
  rw [authenticate, if_pos huse] at h
  simp only [Request.usesHotkeyAuth, Bool.and_eq_true, truthy_iff] at huse
  obtain ⟨⟨hotkey, hh, hhne⟩, signature, hs, hsne⟩ := huse
  rw [hh, hs] at h
  exact authenticateHotkey_authentic hh hhne hs hsne h

/-- **Exactly when the dependency is sound**: the request carries both
hotkey headers, or the credential it carries instead is refused. -/
theorem authenticate_authentic_iff (w : World) (req : Request) (purpose : Option String)
    (netuid : ℕ) (raiseNotFound allowApiKey : Bool) :
    ((∃ p, authenticate w req purpose (some netuid) raiseNotFound allowApiKey = .ok p) →
        Authentic w req purpose netuid) ↔
      (req.usesHotkeyAuth ∨ ¬CredentialAccepted w req raiseNotFound) := by
  constructor
  · intro h
    by_contra hno
    simp only [not_or, not_not] at hno
    obtain ⟨huse, haccepted⟩ := hno
    rw [authenticate, if_neg huse] at h
    obtain ⟨hotkey, signature, -, -, hh, hhne, hs, hsne, -⟩ :=
      h (authenticateCredential_returns.2 haccepted)
    refine huse ?_
    simp only [Request.usesHotkeyAuth, Bool.and_eq_true, truthy_iff]
    exact ⟨⟨hotkey, hh, hhne⟩, signature, hs, hsne⟩
  · rintro hcond ⟨p, h⟩
    by_cases huse : req.usesHotkeyAuth
    · exact authenticate_signed huse h
    · rw [authenticate, if_neg huse] at h
      exact absurd (authenticateCredential_returns.1 ⟨p, h⟩) (hcond.resolve_left huse)

/-- A world with one miner. -/
private def oneMiner : World where
  now := 0
  netuid := 64
  pgEncryptionKey := ""
  users := ⟨[], .nil⟩
  apiKeys := []
  metagraphNodes := [⟨"H", some 64⟩]
  fingerprintCache _ := none
  keyCache _ := none
  keypair _ := .ok fun _ _ => .ok false
  jwt := ⟨fun _ => .error .invalid, fun _ => .error .invalid, fun _ _ => .error .invalid⟩
  sha256 s := s
  argon2Verify _ _ := false

/-- **A request that nobody signed**: a hotkey header alone, for an endpoint
that does not raise. -/
theorem not_authenticate_authentic :
    ¬ ∀ (w : World) (req : Request) (purpose : Option String) (netuid : ℕ)
      (raiseNotFound allowApiKey : Bool),
      (∃ p, authenticate w req purpose (some netuid) raiseNotFound allowApiKey = .ok p) →
        Authentic w req purpose netuid := by
  intro h
  obtain ⟨_, _, _, _, -, -, hs, -⟩ :=
    h oneMiner { hotkey := some "H" } (some "nodes") 64 false false ⟨_, rfl⟩
  simp at hs

/-! ## The endpoints -/

/-- **What `delete_node` did**: the dependency let the request through, and
the node deleted is one of the hotkey header's. -/
theorem deleteNode_eq_ok {nodeId : String} {nodes nodes' : List Node}
    (h : deleteNode w req nodeId nodes = .ok nodes') :
    (∃ p, authenticate w req (some "nodes") (some w.netuid) false false = .ok p) ∧
      ∃ node ∈ nodes, req.hotkey = some node.minerHotkey ∧ node.uuid = nodeId ∧
        nodes' = nodes.erase node := by
  unfold deleteNode at h
  simp only [bind_eq_ok] at h
  obtain ⟨p, hp, found, hfound, h⟩ := h
  refine ⟨⟨p, hp⟩, ?_⟩
  cases found with
  | none => simp at h
  | some node =>
    simp only [bind_eq_ok, ensure_eq_ok, return_eq_ok] at h
    obtain ⟨-, -, rfl⟩ := h
    obtain ⟨hmem, hwhere⟩ := mem_of_scalarOneOrNone hfound
    simp only [Bool.and_eq_true, beq_iff_eq] at hwhere
    exact ⟨node, hmem, hwhere.1.symm, hwhere.2, rfl⟩

/-- **What `release_job` did**, likewise: only jobs of the hotkey header
that are not finished lose their miner. -/
theorem releaseJob_eq_ok {jobId : String} {jobs jobs' : List Job}
    (h : releaseJob w req jobId jobs = .ok jobs') :
    (∃ p, authenticate w req (some "miner") (some w.netuid) true false = .ok p) ∧
      ∃ job ∈ jobs, job.minerHotkey = req.hotkey ∧ job.finished = false ∧ job.jobId = jobId ∧
        jobs' = jobs.map fun j => if j.jobId = jobId then j.release else j := by
  unfold releaseJob at h
  simp only [bind_eq_ok] at h
  obtain ⟨p, hp, found, hfound, h⟩ := h
  refine ⟨⟨p, hp⟩, ?_⟩
  cases found with
  | none => simp at h
  | some job =>
    simp only [return_eq_ok] at h
    obtain ⟨hmem, hwhere⟩ := mem_of_scalarOneOrNone hfound
    simp only [Bool.and_eq_true, beq_iff_eq, Bool.not_eq_true'] at hwhere
    obtain ⟨⟨hhot, hfin⟩, rfl⟩ := hwhere
    exact ⟨job, hmem, hhot, hfin, rfl, h.symm⟩

/-- **With both hotkey headers, only the key's owner acts.** -/
theorem deleteNode_signed {nodeId : String} {nodes nodes' : List Node} (huse : req.usesHotkeyAuth)
    (h : deleteNode w req nodeId nodes = .ok nodes') :
    Authentic w req (some "nodes") w.netuid :=
  (deleteNode_eq_ok h).1.elim fun _ => authenticate_signed huse

theorem releaseJob_signed {jobId : String} {jobs jobs' : List Job}
    (huse : req.usesHotkeyAuth) (h : releaseJob w req jobId jobs = .ok jobs') :
    Authentic w req (some "miner") w.netuid :=
  (releaseJob_eq_ok h).1.elim fun _ => authenticate_signed huse

/-- Without a signature or an authorization header, a dependency that does
not raise lets through. -/
theorem authenticate_unsigned (hs : req.signature = none) (ha : req.authorization = none) :
    authenticate w req purpose (some netuid) false allowApiKey = .ok { user := none } := by
  have huse : ¬req.usesHotkeyAuth := by simp [Request.usesHotkeyAuth, hs, truthy]
  rw [authenticate, if_neg huse]
  simp [authenticateCredential, ha, truthy, ensure]

/-- **An endpoint acts for a hotkey nobody signed for.** With a hotkey
header, and neither a signature nor an authorization header, any node of
that hotkey is deleted. -/
theorem deleteNode_unsigned {node : Node} {nodes : List Node}
    (hh : req.hotkey = some node.minerHotkey) (hs : req.signature = none)
    (ha : req.authorization = none) (hf : req.forwardedFor = none) (hnode : node ∈ nodes)
    (huuid : (nodes.map Node.uuid).Nodup) :
    deleteNode w req node.uuid nodes = .ok (nodes.erase node) := by
  have hfilter : nodes.filter (fun n => some n.minerHotkey == req.hotkey && n.uuid == node.uuid) =
      [node] := by
    have hcongr : ∀ n ∈ nodes,
        (some n.minerHotkey == req.hotkey && n.uuid == node.uuid) = (n == node) := by
      intro n hn
      rw [Bool.eq_iff_iff]
      simp only [hh, Bool.and_eq_true, beq_iff_eq, Option.some.injEq]
      constructor
      · rintro ⟨-, hid⟩
        exact List.inj_on_of_nodup_map huuid hn hnode hid
      · rintro rfl
        exact ⟨rfl, rfl⟩
    rw [List.filter_congr hcongr, List.filter_beq, List.count_eq_one_of_mem huuid.of_map hnode]
    rfl
  simp only [deleteNode, authenticate_unsigned hs ha, hfilter, hf, scalarOneOrNone]
  rfl

end Auth

end ChutesApi
