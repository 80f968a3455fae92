import ChutesApi.Common.BlockCipher
import ChutesApi.Python.Bytes
/-!
# What is encrypted

`aes_encrypt` and `aes_decrypt` stand between the API and an instance: a
request's body and path, an instance's answer, the answer of an open port
and that of the proof of work. `encrypt_wallet_secret` keeps the mnemonics
of the wallets. The block cipher of the library is a parameter, a
permutation of the blocks for each key.
-/

namespace ChutesApi

namespace Crypto

open Python

/-- A key of one of AES's three sizes. -/
abbrev AesKey := {k : List UInt8 // k.length = 16 ∨ k.length = 24 ∨ k.length = 32}

/-- The block cipher under each key. -/
abbrev Aes := AesKey → Equiv.Perm (Block UInt8 16)

/-- `algorithms.AES(key)` with the check of the mode, which excludes the
size that is no key of CBC. -/
def aesKey (key : List UInt8) : Except Exc AesKey :=
  if h : key.length = 16 ∨ key.length = 24 ∨ key.length = 32 then .ok ⟨key, h⟩
  else .error (.raised .valueError)

/-- `modes.CBC(iv)`, with the check of its length. -/
def cbcIv (iv : List UInt8) : Except Exc (Block UInt8 16) :=
  if h : iv.length = 16 then .ok ⟨iv, h⟩ else .error (.raised .valueError)

/-- What the library returns, or its `ValueError`. -/
def orValueError {α : Type} : Option α → Except Exc α
  | some a => .ok a
  | none => .error (.raised .valueError)

/-- `if not iv: iv = secrets.token_bytes(16)`. -/
def chooseIv (iv : Option (List UInt8)) (token : List UInt8) : List UInt8 :=
  match iv with
  | some (b :: bs) => b :: bs
  | _ => token

/-- The bytes `aes_encrypt` writes, with the vector in front of them.
`token` is what `secrets` gives. -/
def aesEncryptBytes (aes : Aes) (token : List UInt8) (plaintext key : Data)
    (iv : Option (List UInt8)) : Except Exc (List UInt8 × List UInt8) := do
  let key ← key.unhexed
  let plaintext ← plaintext.encoded
  let iv := chooseIv iv token
  let key ← aesKey key
  let v ← cbcIv iv
  let encrypted ← orValueError (encryptCbc (aes key) v plaintext)
  return (iv, encrypted)

/-- **`aes_encrypt`.** -/
def aesEncrypt (aes : Aes) (token : List UInt8) (plaintext key : Data) (iv : Option (List UInt8))
    (hexEncode : Bool) : Except Exc String := do
  let (iv, encrypted) ← aesEncryptBytes aes token plaintext key iv
  return hex iv ++ if hexEncode then hex encrypted else b64encode encrypted

/-- **`aes_decrypt`.** -/
def aesDecrypt (aes : Aes) (ciphertext key iv : Data) : Except Exc (List UInt8) := do
  let key ← key.unhexed
  let ciphertext ← ciphertext.encoded
  let iv ← iv.unhexed
  let key ← aesKey key
  let v ← cbcIv iv
  let cipherBytes ← b64decode ciphertext
  orValueError (decryptCbc (aes key) v cipherBytes)

/-- `s[n:]`. -/
def sliceFrom (s : String) (n : ℕ) : String := .ofList (s.toList.drop n)

/-! ## An open port -/

/-- The part of `verify_port_map` behind the socket: what came back is
checked. -/
def verifyResponse (aes : Aes) (symmetricKey : Data) (proto : String) (internalPort : ℕ)
    (response : String) : Except Exc Bool :=
  -- `split("|", 1)`: the first bar divides the text
  match response.toList.dropWhile (· ≠ '|') with
  | [] => .ok false
  | _ :: encryptedResponse => do
    let ivHex := response.toList.takeWhile (· ≠ '|')
    let decrypted ← aesDecrypt aes (.str (Text.ofString (.ofList encryptedResponse))) symmetricKey
      (.str (Text.ofString (.ofList ivHex)))
    let decrypted ← decodeUtf8 decrypted
    return decrypted = s!"response from {lower proto} {internalPort}"

/-- **`verify_port_map`**, with what the socket received. Every exception is
caught. -/
def verifyPortMap (aes : Aes) (symmetricKey : Data) (proto : String) (internalPort : ℕ)
    (received : Except Exc (List UInt8)) : Bool :=
  match received >>= decodeUtf8 >>= verifyResponse aes symmetricKey proto internalPort with
  | .ok verified => verified
  | .error _ => false

/-! ## The proof of work's answer -/

/-- The check of `verify_launch_config_instance`: the answer is the secret
of the config. -/
def checkPovwResponse (aes : Aes) (symmetricKey : Data) (configId seed : String)
    (ciphertext iv : Data) : Except Exc Unit := do
  let response ← aesDecrypt aes ciphertext symmetricKey iv
  let secret ← (Text.ofString s!"secret is {configId} {seed}").bytes
  ensure (response = secret) (.raised .other)

/-! ## Wallet secrets -/

/-- The symmetric functions of `pgcrypto`. -/
structure Pgp where
  /-- `pgp_sym_encrypt(:data, :key)`. -/
  encrypt : String → String → List UInt8
  /-- `pgp_sym_decrypt(:encrypted_data, :key)`, or a database error. -/
  decrypt : List UInt8 → String → Option String

/-- `settings`: the keys of the wallets. -/
structure WalletSettings where
  walletKey : String
  pgEncryptionKey : String

/-- `s.split(sep)`, on characters, for a separator that is not empty. -/
def splitSeq (sep : List Char) : ℕ → List Char → List (List Char)
  | 0, s => [s]
  | _ + 1, [] => [[]]
  | n + 1, c :: cs =>
    if sep.isPrefixOf (c :: cs) then [] :: splitSeq sep n ((c :: cs).drop sep.length)
    else (splitSeq sep n cs).modifyHead (c :: ·)

/-- **`encrypt_wallet_secret`.** `token` is what `secrets` gives. -/
def encryptWalletSecret (aes : Aes) (pgp : Pgp) (settings : WalletSettings) (token : List UInt8)
    (secret : Text) : Except Exc String := do
  let key ← (fromHex settings.walletKey).mapError fun _ => Exc.raised .valueError
  let key ← aesKey key
  let v ← cbcIv token
  let secret ← secret.bytes
  let encrypted ← orValueError (encryptCbc (aes key) v secret)
  return hex (pgp.encrypt (hex token ++ "::::" ++ hex encrypted) settings.pgEncryptionKey)

/-- **`decrypt_wallet_secret`.** -/
def decryptWalletSecret (aes : Aes) (pgp : Pgp) (settings : WalletSettings)
    (encryptedSecret : String) : Except Exc String := do
  let encryptedSecret ← (fromHex encryptedSecret).mapError fun _ => Exc.raised .valueError
  match pgp.decrypt encryptedSecret settings.pgEncryptionKey with
  | none => .error (.raised .other)
  | some decrypted =>
    match splitSeq "::::".toList decrypted.toList.length decrypted.toList with
    | [iv, ciphertext] =>
      let key ← (fromHex settings.walletKey).mapError fun _ => Exc.raised .valueError
      let key ← aesKey key
      let iv ← (fromHex (.ofList iv)).mapError fun _ => Exc.raised .valueError
      let v ← cbcIv iv
      let cipherBytes ← (fromHex (.ofList ciphertext)).mapError fun _ => Exc.raised .valueError
      let secret ← orValueError (decryptCbc (aes key) v cipherBytes)
      decodeUtf8 secret
    | _ => .error (.raised .valueError)

end Crypto

end ChutesApi
