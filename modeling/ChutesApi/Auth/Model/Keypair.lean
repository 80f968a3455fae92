import ChutesApi.Python.Exc
/-!
# Key pairs

The signature library, as what the handlers call of it.
-/

namespace ChutesApi

/-- `Keypair(ss58_address)`, which may raise, and the `verify` of what it
returns, which may raise too. -/
abbrev KeypairLib :=
  Option String → Except Python.PyError (String → List UInt8 → Except Python.PyError Bool)

/-- **The signature verifies under the key**, as one of the message. -/
def KeypairLib.Verifies (keypair : KeypairLib) (key message : String)
    (signature : List UInt8) : Prop :=
  ∃ verify, keypair (some key) = .ok verify ∧ verify message signature = .ok true

end ChutesApi
