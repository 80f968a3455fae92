import ChutesApi.Auth.Model.Keypair
import ChutesApi.Python.Exc
import ChutesApi.Python.Str
import ChutesApi.User.Model
import Mathlib.Data.List.Forall2
/-!
# `change_fingerprint`

The endpoint takes a hotkey, a coldkey or both, and selects the account by
the first of the two whose check passes. The check builds the message from
the header it is given but verifies it under the hotkey header's key, in
both cases: whoever sends a hotkey of their own with another's coldkey gets
that account (`changeFingerprint_authorized_iff`).
-/

namespace ChutesApi

open Python

namespace Fingerprint

/-- The headers and the body of a request. -/
structure Request where
  hotkey : Option String
  coldkey : Option String
  nonce : String
  signature : String
  fingerprint : String

/-- What the handler reads of the world. -/
structure Env where
  /-- `int(time.time())`. -/
  now : ℤ
  keypair : KeypairLib
  /-- `hashlib.blake2b(fingerprint.encode()).hexdigest()`. -/
  blake2b : String → String

variable (env : Env) (req : Request)

/-- The nonce check, which raises on a digit that `int` refuses. -/
def validNonce : Except Exc Bool :=
  if isDigit req.nonce then
    match int req.nonce with
    | none => .error (.raised .valueError)
    | some nonceVal => .ok (decide (env.now - 300 ≤ nonceVal ∧ (nonceVal : ℤ) ≤ env.now + 300))
  else .ok false

/-- `f"{header}:{fingerprint}:{nonce}"`. -/
def signingMessage (header : String) : String := s!"{header}:{req.fingerprint}:{req.nonce}"

/-- `_check(header)`. The key pair is the hotkey's, whatever the header. -/
def check (signatureHex : List UInt8) : Option String → Except Exc Bool
  | none => .ok false
  | some header =>
    if header = "" then .ok false
    else
      match env.keypair req.hotkey with
      | .error e => .error (.raised e)
      | .ok verify =>
        match verify (signingMessage req header) signatureHex with
        | .ok b => .ok b
        | .error _ => .ok false

/-- By which header the account is selected. -/
inductive Selector
  | coldkey (key : String)
  | hotkey (key : String)
  deriving DecidableEq, Repr

def Selector.key : Selector → String
  | .coldkey key => key
  | .hotkey key => key

/-- The `where` of the query. -/
def Selector.selects : Selector → User → Bool
  | .coldkey key, user => user.coldkey == key
  | .hotkey key, user => user.hotkey == some key

/-- The `if` and `elif` that choose the query. -/
def selector (signatureHex : List UInt8) : Except Exc (Option Selector) := do
  if ← check env req signatureHex req.coldkey then
    return req.coldkey.map .coldkey
  if ← check env req signatureHex req.hotkey then
    return req.hotkey.map .hotkey
  return none

/-- The query, and the user it finds. -/
def findUser (users : Users) : Option Selector → Except Exc (Option User)
  | none => .ok none
  | some sel => scalarOneOrNone (users.rows.filter sel.selects)

/-- The assignment and its commit, which the uniqueness of the hash may
refuse. -/
def replaceHash (users : Users) (user : User) : Except Exc Users :=
  if h : ∀ u ∈ users.rows, u.userId ≠ user.userId → u.fingerprintHash ≠ env.blake2b req.fingerprint
  then .ok (users.setFingerprintHash user.userId (env.blake2b req.fingerprint) h)
  else .error (.raised .integrityError)

/-- **The handler**: the selector of the changed row, and the table after
the commit. -/
def changeFingerprint (users : Users) : Except Exc (Option Selector × Users) := do
  let signatureHex ← (fromHex req.signature).mapError fun _ => Exc.http 401 "Invalid signature"
  let valid ← validNonce env req
  ensure (valid = true) (.http 401 s!"Invalid nonce: {req.nonce}")
  ensure (¬((truthy req.coldkey = false ∧ truthy req.hotkey = false) ∨ req.signature = ""))
    (.http 401 "You must provide either coldkey or hotkey along with a signature and nonce.")
  let sel ← selector env req signatureHex
  match ← findUser users sel with
  | none => throw (.http 401 "No user found with the provided hotkey/coldkey")
  | some user =>
    let users' ← replaceHash env req users user
    return (sel, users')

variable {env req} {users users' : Users} {sig : List UInt8} {sel : Option Selector}

/-! ## What each part of the handler let through -/

/-- The key that signed is the hotkey header's. -/
theorem check_eq_true {header : Option String} :
    check env req sig header = .ok true ↔
      ∃ key verify, header = some key ∧ key ≠ "" ∧ env.keypair req.hotkey = .ok verify ∧
        verify (signingMessage req key) sig = .ok true := by
  cases header with
  | none => simp [check]
  | some key =>
    by_cases hkey : key = ""
    · simp [check, hkey]
    · cases hk : env.keypair req.hotkey with
      | error e => simp [check, hkey, hk]
      | ok verify =>
        cases hv : verify (signingMessage req key) sig <;> simp [check, hkey, hk, hv]

theorem selector_eq_some {s : Selector} :
    selector env req sig = .ok (some s) ↔
      (check env req sig req.coldkey = .ok true ∧ req.coldkey.map .coldkey = some s) ∨
        (check env req sig req.coldkey = .ok false ∧ check env req sig req.hotkey = .ok true ∧
          req.hotkey.map .hotkey = some s) := by
  unfold selector
  rcases hc : check env req sig req.coldkey with e | _ | _
  · simp [bind, Except.bind]
  · rcases hh : check env req sig req.hotkey with e | _ | _ <;>
      simp [bind, Except.bind, pure, Except.pure]
  · simp [bind, Except.bind, pure, Except.pure]

theorem replaceHash_eq_ok {user : User} :
    replaceHash env req users user = .ok users' ↔
      ∃ h : ∀ u ∈ users.rows, u.userId ≠ user.userId →
          u.fingerprintHash ≠ env.blake2b req.fingerprint,
        users.setFingerprintHash user.userId (env.blake2b req.fingerprint) h = users' := by
  unfold replaceHash
  split
  · next h => exact ⟨fun he => ⟨h, Except.ok.inj he⟩, fun ⟨_, he⟩ => congrArg Except.ok he⟩
  · next h =>
    refine ⟨fun he => by simp at he, ?_⟩
    rintro ⟨h', -⟩
    exact absurd h' h

/-- **The handler's run**: the checks that passed, the query it chose, the
one row the query found, and the update of that row. -/
theorem changeFingerprint_eq_ok :
    changeFingerprint env req users = .ok (sel, users') ↔
      ∃ sig s user, fromHex req.signature = .ok sig ∧ validNonce env req = .ok true ∧
        (truthy req.coldkey ∨ truthy req.hotkey) ∧ req.signature ≠ "" ∧ sel = some s ∧
        selector env req sig = .ok (some s) ∧ users.rows.filter s.selects = [user] ∧
        replaceHash env req users user = .ok users' := by
  unfold changeFingerprint
  simp only [bind_eq_ok, mapError_eq_ok, ensure_eq_ok]
  constructor
  · rintro ⟨sig, hsig, valid, hvalid, -, rfl, -, hpass, sel', hsel, user, huser, h⟩
    cases user with
    | none => simp [throw, throwThe, MonadExceptOf.throw] at h
    | some user =>
      simp only [bind_eq_ok] at h
      obtain ⟨users₁, hrep, h⟩ := h
      obtain ⟨rfl, rfl⟩ : sel' = sel ∧ users₁ = users' := by simpa [pure, Except.pure] using h
      cases sel' with
      | none => simp [findUser] at huser
      | some s =>
        refine ⟨sig, s, user, hsig, hvalid, ?_, fun h => hpass (.inr h), rfl, hsel,
          scalarOneOrNone_eq_some.1 huser, hrep⟩
        by_contra hno
        simp only [not_or, Bool.not_eq_true] at hno
        exact hpass (.inl hno)
  · rintro ⟨sig, s, user, hsig, hvalid, hhdr, hne, rfl, hsel, huser, hrep⟩
    refine ⟨sig, hsig, true, hvalid, (), rfl, (), ?_, some s, hsel, some user,
      scalarOneOrNone_eq_some.2 huser, ?_⟩
    · rintro (⟨hc, hh⟩ | h)
      · simp [hc, hh] at hhdr
      · exact hne h
    · simp only [bind_eq_ok]
      exact ⟨users', hrep, rfl⟩

/-- **Only the selected row changes**, and in it only the hash. -/
theorem changeFingerprint_frame {s : Selector}
    (h : changeFingerprint env req users = .ok (some s, users')) :
    List.Forall₂ (fun u u' => u' = u ∨
      s.selects u ∧ u' = { u with fingerprintHash := env.blake2b req.fingerprint })
      users.rows users'.rows := by
  obtain ⟨sig, s', user, -, -, -, -, hs, -, hfilter, hrep⟩ := changeFingerprint_eq_ok.1 h
  obtain rfl := Option.some.inj hs
  obtain ⟨hfree, rfl⟩ := replaceHash_eq_ok.1 hrep
  have huser : user ∈ users.rows ∧ s.selects user :=
    mem_of_scalarOneOrNone (scalarOneOrNone_eq_some.2 hfilter)
  simp only [Users.setFingerprintHash, List.forall₂_map_right_iff, List.forall₂_same]
  intro u hu
  split
  · next hid =>
    obtain rfl : u = user := users.eq_of_userId hu huser.1 hid
    exact .inr ⟨huser.2, rfl⟩
  · exact .inl rfl

/-! ## Who may change a fingerprint -/

variable (env req users)

/-- The signature verifies under a key, as one of the message for it. -/
def SignedBy (key : String) : Prop :=
  ∃ sig, fromHex req.signature = .ok sig ∧ env.keypair.Verifies key (signingMessage req key) sig

/-- **Authorization**: a fingerprint is replaced only when the key by which
the row was selected signed. -/
def Authorized : Prop :=
  ∀ s users', changeFingerprint env req users = .ok (some s, users') → SignedBy env req s.key

/-- The coldkey header names one account, the request is otherwise in
order, and what signed for the coldkey is the hotkey header's key. -/
def ColdkeySignedByHotkey (coldkey : String) : Prop :=
  ∃ sig verify user, req.coldkey = some coldkey ∧ coldkey ≠ "" ∧ req.signature ≠ "" ∧
    fromHex req.signature = .ok sig ∧ validNonce env req = .ok true ∧
    env.keypair req.hotkey = .ok verify ∧ verify (signingMessage req coldkey) sig = .ok true ∧
    users.rows.filter (·.coldkey == coldkey) = [user] ∧
    ∀ u ∈ users.rows, u.userId ≠ user.userId → u.fingerprintHash ≠ env.blake2b req.fingerprint

/-- **Exactly when the handler is authorized**: the coldkey header's key
signed whenever the hotkey header's key signed for it. -/
theorem changeFingerprint_authorized_iff :
    Authorized env req users ↔
      ∀ coldkey, ColdkeySignedByHotkey env req users coldkey → SignedBy env req coldkey := by
  constructor
  · rintro h coldkey ⟨sig, verify, user, hc, hne, hsig, hhex, hnonce, hkp, hv, hfilter, hfree⟩
    have hcheck : check env req sig req.coldkey = .ok true :=
      check_eq_true.2 ⟨coldkey, verify, hc, hne, hkp, hv⟩
    have hsel : selector env req sig = .ok (some (.coldkey coldkey)) :=
      selector_eq_some.2 (.inl ⟨hcheck, by rw [hc]; rfl⟩)
    refine h (.coldkey coldkey) _ (changeFingerprint_eq_ok.2 ⟨sig, _, user, hhex, hnonce, ?_, hsig,
      rfl, hsel, hfilter, replaceHash_eq_ok.2 ⟨hfree, rfl⟩⟩)
    exact .inl (by simp [hc, truthy, hne])
  · intro h s users' hrun
    obtain ⟨sig, s', user, hhex, hnonce, -, hsig, hs, hsel, hfilter, hrep⟩ :=
      changeFingerprint_eq_ok.1 hrun
    obtain rfl := Option.some.inj hs
    rcases selector_eq_some.1 hsel with ⟨hcheck, hmap⟩ | ⟨-, hcheck, hmap⟩
    · obtain ⟨key, verify, hc, hne, hkp, hv⟩ := check_eq_true.1 hcheck
      obtain rfl : Selector.coldkey key = s := by simpa [hc] using hmap
      obtain ⟨hfree, -⟩ := replaceHash_eq_ok.1 hrep
      exact h key ⟨sig, verify, user, hc, hne, hsig, hhex, hnonce, hkp, hv, hfilter, hfree⟩
    · -- in this branch the key of the check is the key of the query
      obtain ⟨key, verify, hh, -, hkp, hv⟩ := check_eq_true.1 hcheck
      obtain rfl : Selector.hotkey key = s := by simpa [hh] using hmap
      rw [hh] at hkp
      exact ⟨sig, hhex, verify, hkp, hv⟩

/-- A key's signature of any message is the key's own name. -/
private def namedKeys : KeypairLib
  | none => .error .other
  | some key => .ok fun _ signature => .ok (signature.map UInt8.toNat == key.toList.map Char.toNat)

private def attack : Env where
  now := 1000
  keypair := namedKeys
  blake2b fingerprint := fingerprint

/-- The hotkey header is the attacker's, who signs, and the coldkey header
the victim's. -/
private def attackRequest : Request where
  hotkey := some "A"
  coldkey := some "V"
  nonce := "1000"
  signature := "41"
  fingerprint := "mine"

private def victim : Users where
  rows := [{ userId := "u", hotkey := some "H", coldkey := "V", fingerprintHash := "theirs" }]
  distinct := by simp

/-- **An account taken over.** -/
theorem not_changeFingerprint_authorized :
    ¬ ∀ (env : Env) (req : Request) (users : Users), Authorized env req users := by
  intro h
  have hrun : changeFingerprint attack attackRequest victim = .ok (some (.coldkey "V"), _) := rfl
  obtain ⟨sig, hsig, verify, hverify, hv⟩ := h attack attackRequest victim _ _ hrun
  have hhex : fromHex attackRequest.signature = .ok [0x41] := by decide +kernel
  obtain rfl := Except.ok.inj (hhex.symm.trans hsig)
  obtain rfl := Except.ok.inj hverify
  exact absurd hv (by decide)

end Fingerprint

end ChutesApi
