import ChutesApi.Crypto.Model
import Mathlib.Data.List.TakeWhile
/-!
# What is encrypted is read again

A text written by `aes_encrypt` is cut by its readers into the vector, its
first 32 characters, and the rest; `aes_decrypt` gives back the plaintext,
also when bytes outside the alphabet, such as line ends, were put in
between (`aes_roundTrip`). And it gives back nothing else: what is
decrypted to a plaintext is what `aes_encrypt` writes for it
(`aesDecrypt_eq_ok_iff`), which is what an open port and the proof of work
are checked by. A wallet's secret is read as it was stored.
-/

namespace ChutesApi

namespace Crypto

open Python

variable {aes : Aes} {token m : List UInt8} {plaintext ciphertext key : Data}
variable {k : AesKey} {v : Block UInt8 16}

@[simp] theorem aesKey_val (k : AesKey) : aesKey k.val = .ok k := dif_pos k.2

theorem aesKey_eq_ok {b : List UInt8} : aesKey b = .ok k ↔ b = k.val := by
  constructor
  · intro h
    unfold aesKey at h
    split_ifs at h
    exact congrArg Subtype.val (Except.ok.inj h)
  · rintro rfl
    exact aesKey_val k

@[simp] theorem cbcIv_val (v : Block UInt8 16) : cbcIv v.val = .ok v := dif_pos v.2

theorem cbcIv_eq_ok {b : List UInt8} : cbcIv b = .ok v ↔ b = v.val := by
  constructor
  · intro h
    unfold cbcIv at h
    split_ifs at h
    exact congrArg Subtype.val (Except.ok.inj h)
  · rintro rfl
    exact cbcIv_val v

@[simp] theorem orValueError_eq_ok {α : Type} {x : Option α} {a : α} :
    orValueError x = .ok a ↔ x = some a := by
  cases x <;> simp [orValueError]

/-! ## What each function returns -/

/-- The vector that is used: the one given, or the token. -/
def IsIv (iv : Option (List UInt8)) (token : List UInt8) (v : Block UInt8 16) : Prop :=
  iv = some v.val ∨ (iv = none ∨ iv = some []) ∧ token = v.val

theorem chooseIv_eq {iv : Option (List UInt8)} : chooseIv iv token = v.val ↔ IsIv iv token v := by
  have hv : v.val ≠ [] := fun h => by
    have := v.2
    rw [h] at this
    cases this
  rcases iv with _ | _ | ⟨b, bs⟩
  · simp [chooseIv, IsIv]
  · simp [chooseIv, IsIv, hv.symm]
  · simp [chooseIv, IsIv]

/-- **What is written**: of keys and vectors of a length the library takes,
the cipher of the plaintext. -/
theorem aesEncryptBytes_eq_ok {iv : Option (List UInt8)} {w c : List UInt8} :
    aesEncryptBytes aes token plaintext key iv = .ok (w, c) ↔
      ∃ k v m, key.unhexed = .ok k.val ∧ plaintext.encoded = .ok m ∧ IsIv iv token v ∧
        w = v.val ∧ encryptCbc (aes k) v m = some c := by
  simp only [aesEncryptBytes, bind_eq_ok, return_eq_ok, aesKey_eq_ok, cbcIv_eq_ok,
    orValueError_eq_ok, Prod.mk.injEq]
  constructor
  · rintro ⟨_, hkey, m, hm, k, rfl, v, hv, c', hc, hw, rfl⟩
    exact ⟨k, v, m, hkey, hm, chooseIv_eq.1 hv, hw.symm.trans hv, hc⟩
  · rintro ⟨k, v, m, hkey, hm, hv, rfl, hc⟩
    exact ⟨_, hkey, m, hm, k, rfl, v, chooseIv_eq.2 hv, c, hc, chooseIv_eq.2 hv, rfl⟩

/-- **What is read**: the message whose cipher the decoded bytes are. -/
theorem aesDecrypt_eq_ok {iv : Data} :
    aesDecrypt aes ciphertext key iv = .ok m ↔
      ∃ k v t c, key.unhexed = .ok k.val ∧ ciphertext.encoded = .ok t ∧ iv.unhexed = .ok v.val ∧
        b64decode t = .ok c ∧ encryptCbc (aes k) v m = some c := by
  simp only [aesDecrypt, bind_eq_ok, aesKey_eq_ok, cbcIv_eq_ok, orValueError_eq_ok,
    decryptCbc_eq_some (n := 16) (by decide) (by decide)]
  constructor
  · rintro ⟨_, hkey, t, ht, _, hiv, k, rfl, v, rfl, c, hc, henc⟩
    exact ⟨k, v, t, c, hkey, ht, hiv, hc, henc⟩
  · rintro ⟨k, v, t, c, hkey, ht, hiv, hc, henc⟩
    exact ⟨_, hkey, t, ht, _, hiv, k, rfl, v, rfl, c, hc, henc⟩

/-! ## The round trip -/

/-- The text that is written, in its two forms. -/
theorem aesEncrypt_eq_ok {iv : Option (List UInt8)} {hexEncode : Bool} {w : String} :
    aesEncrypt aes token plaintext key iv hexEncode = .ok w ↔
      ∃ u c, aesEncryptBytes aes token plaintext key iv = .ok (u, c) ∧
        w = hex u ++ if hexEncode then hex c else b64encode c := by
  simp only [aesEncrypt, bind_eq_ok, return_eq_ok, Prod.exists]
  simp only [eq_comm]

/-- The vector stands in the first 32 characters. -/
theorem slice_hex (v : Block UInt8 16) (s : String) :
    slice (hex v.val ++ s) 0 32 = hex v.val ∧ sliceFrom (hex v.val ++ s) 32 = s := by
  have hlength : (hex v.val).toList.length = 32 := by rw [length_hex, v.2]
  rw [slice, sliceFrom, String.toList_append, List.take_left' hlength, List.drop_left' hlength,
    List.drop_zero, String.ofList_toList, String.ofList_toList]
  exact ⟨rfl, rfl⟩

theorem ascii_of_b64encode {b : List UInt8} : ∀ c ∈ (b64encode b).toList, c.toNat < 128 := by
  intro c hc
  rw [b64encode, String.toList_ofList] at hc
  exact of_mem_b64Chars hc

/-- **A text that is read again**: the vector stands in front, and the rest
decrypts to the plaintext, under the vector's bytes and under its characters
alike, also with bytes outside the alphabet put in anywhere. -/
structure Readable (aes : Aes) (key : Data) (v : Block UInt8 16) (m : List UInt8) (w : String) :
    Prop where
  vector : fromHex (slice w 0 32) = .ok v.val
  whole : aesDecrypt aes (.str (Text.ofString (sliceFrom w 32))) key (.bytes v.val) = .ok m
  wrapped : ∀ t : List UInt8,
    t.filter isBase64 = ((sliceFrom w 32).toList.map asciiByte).filter isBase64 →
    aesDecrypt aes (.bytes t) key (.bytes v.val) = .ok m ∧
      aesDecrypt aes (.bytes t) key (.str (Text.ofString (slice w 0 32))) = .ok m

/-- The same in digits. -/
structure ReadableHex (aes : Aes) (k : AesKey) (v : Block UInt8 16) (m : List UInt8)
    (w : String) : Prop where
  vector : fromHex (slice w 0 32) = .ok v.val
  cipher : ∃ c, fromHex (sliceFrom w 32) = .ok c ∧ decryptCbc (aes k) v c = some m

theorem readable_of_encryptCbc {c : List UInt8} (hkey : key.unhexed = .ok k.val)
    (hc : encryptCbc (aes k) v m = some c) :
    Readable aes key v m (hex v.val ++ b64encode c) := by
  obtain ⟨hslice, hrest⟩ := slice_hex v (b64encode c)
  have hsent : (Data.str (Text.ofString (b64encode c))).encoded =
      .ok ((b64encode c).toList.map asciiByte) := by
    rw [Data.encoded, Text.bytes_ofString, utf8_of_ascii ascii_of_b64encode]
  have hchars : (Data.str (Text.ofString (hex v.val))).unhexed = .ok v.val := by
    rw [Data.unhexed, Text.fromHex_ofString, fromHex_hex]
    rfl
  refine ⟨by rw [hslice, fromHex_hex], ?_, fun t ht => ?_⟩
  · rw [hrest]
    exact aesDecrypt_eq_ok.2 ⟨k, v, _, c, hkey, hsent, rfl, b64decode_b64encode c, hc⟩
  · -- the decoder passes over what was put in
    rw [hrest] at ht
    have hdecode : b64decode t = .ok c := by
      rw [← b64decode_filter, ht, b64decode_filter, b64decode_b64encode]
    rw [hslice]
    exact ⟨aesDecrypt_eq_ok.2 ⟨k, v, t, c, hkey, rfl, rfl, hdecode, hc⟩,
      aesDecrypt_eq_ok.2 ⟨k, v, t, c, hkey, rfl, hchars, hdecode, hc⟩⟩

/-- **The round trip.** For every key and vector of a length the library
takes, and every plaintext that is encoded, `aes_encrypt` returns a text
that is read again, in both its forms. -/
theorem aes_roundTrip {iv : Option (List UInt8)} (hkey : key.unhexed = .ok k.val)
    (hplain : plaintext.encoded = .ok m) (hiv : IsIv iv token v) :
    ∃ w w', aesEncrypt aes token plaintext key iv false = .ok w ∧ Readable aes key v m w ∧
      aesEncrypt aes token plaintext key iv true = .ok w' ∧ ReadableHex aes k v m w' := by
  obtain ⟨c, hc⟩ := exists_encryptCbc (E := aes k) (v := v) (m := m) (by decide)
  have hbytes : aesEncryptBytes aes token plaintext key iv = .ok (v.val, c) :=
    aesEncryptBytes_eq_ok.2 ⟨k, v, m, hkey, hplain, hiv, rfl, hc⟩
  obtain ⟨hslice, hrest⟩ := slice_hex v (hex c)
  refine ⟨_, _, aesEncrypt_eq_ok.2 ⟨v.val, c, hbytes, rfl⟩, readable_of_encryptCbc hkey hc,
    aesEncrypt_eq_ok.2 ⟨v.val, c, hbytes, rfl⟩, ?_⟩
  simp only [if_true]
  refine ⟨by rw [hslice, fromHex_hex], c, by rw [hrest, fromHex_hex], ?_⟩
  exact (decryptCbc_eq_some (by decide) (by decide)).2 hc

/-- The key `00 … 0f`, and AES under it as far as one block: `00 11 … ff`. -/
def sampleKey : String := "000102030405060708090a0b0c0d0e0f"

def sampleAesKey : AesKey := ⟨[0, 1, 2, 3, 4, 5, 6, 7, 8, 9, 10, 11, 12, 13, 14, 15], .inl rfl⟩

def sampleAes : Aes := fun _ =>
  Equiv.swap
    ⟨[0x00, 0x11, 0x22, 0x33, 0x44, 0x55, 0x66, 0x77, 0x88, 0x99, 0xaa, 0xbb, 0xcc, 0xdd, 0xee,
      0xff], rfl⟩
    ⟨[0x69, 0xc4, 0xe0, 0xd8, 0x6a, 0x7b, 0x04, 0x30, 0xd8, 0xcd, 0xb7, 0x80, 0x70, 0xb4, 0xc5,
      0x5a], rfl⟩

/-- A vector that mixes with the padded `"testing"` to that block. -/
def sampleIv : Block UInt8 16 :=
  ⟨[116, 116, 81, 71, 45, 59, 1, 126, 129, 144, 163, 178, 197, 212, 231, 246], rfl⟩

theorem aes_roundTrip_testing :
    ∃ w w', aesEncrypt sampleAes sampleIv.val (.str (Text.ofString "testing"))
        (.str (Text.ofString sampleKey)) none false = .ok w ∧
      Readable sampleAes (.str (Text.ofString sampleKey)) sampleIv (utf8 "testing") w ∧
      aesEncrypt sampleAes sampleIv.val (.str (Text.ofString "testing"))
        (.str (Text.ofString sampleKey)) none true = .ok w' ∧
      ReadableHex sampleAes sampleAesKey sampleIv (utf8 "testing") w' :=
  aes_roundTrip (by decide) (Text.bytes_ofString _) (.inr ⟨.inl rfl, rfl⟩)

/-! ## Nothing else is read -/

/-- **What is decrypted was encrypted.** A text decrypts to a plaintext
exactly when its bytes are what `aes_encrypt` writes for the plaintext under
the same key and vector. -/
theorem aesDecrypt_eq_ok_iff {iv : Data} :
    aesDecrypt aes ciphertext key iv = .ok m ↔
      ∃ t u c, ciphertext.encoded = .ok t ∧ iv.unhexed = .ok u ∧ b64decode t = .ok c ∧
        aesEncryptBytes aes [] (.bytes m) key (some u) = .ok (u, c) := by
  rw [aesDecrypt_eq_ok]
  simp only [aesEncryptBytes_eq_ok]
  constructor
  · rintro ⟨k, v, t, c, hkey, ht, hiv, hc, henc⟩
    exact ⟨t, v.val, c, ht, hiv, hc, k, v, m, hkey, rfl, .inl rfl, rfl, henc⟩
  · rintro ⟨t, u, c, ht, hiv, hc, k, v, m', hkey, hm, -, rfl, henc⟩
    obtain rfl := Except.ok.inj hm
    exact ⟨k, v, t, c, hkey, ht, hiv, hc, henc⟩

/-- Where the first bar stands. -/
theorem dropWhile_eq_cons {s rest : List Char} {c : Char} :
    s.dropWhile (· ≠ '|') = c :: rest ↔ c = '|' ∧ s = s.takeWhile (· ≠ '|') ++ '|' :: rest := by
  constructor
  · intro h
    have hc : c = '|' := by
      have hhead := List.head?_dropWhile_not (· ≠ '|') s
      rw [h] at hhead
      simpa using hhead
    refine ⟨hc, ?_⟩
    rw [← hc] at h ⊢
    rw [← h, List.takeWhile_append_dropWhile]
  · rintro ⟨rfl, h⟩
    have hsplit := List.takeWhile_append_dropWhile (p := (· ≠ '|')) (l := s)
    exact List.append_cancel_left (hsplit.trans h)

theorem takeWhile_bar {iv rest : List Char} (h : '|' ∉ iv) :
    (iv ++ '|' :: rest).takeWhile (· ≠ '|') = iv := by
  rw [List.takeWhile_append_of_pos]
  · simp
  · intro c hc
    simpa using fun hcb : c = '|' => h (hcb ▸ hc)

theorem verifyResponse_eq_true {proto : String} {internalPort : ℕ} {response : String} :
    verifyResponse aes key proto internalPort response = .ok true ↔
      ∃ ivHex sent : String, '|' ∉ ivHex.toList ∧ response = ivHex ++ "|" ++ sent ∧
        aesDecrypt aes (.str (Text.ofString sent)) key (.str (Text.ofString ivHex)) =
          .ok (utf8 s!"response from {lower proto} {internalPort}") := by
  have hbar : "|".toList = ['|'] := by decide
  constructor
  · intro h
    unfold verifyResponse at h
    split at h
    · cases h
    · next c rest hdrop =>
      obtain ⟨-, hs⟩ := dropWhile_eq_cons.1 hdrop
      simp only [bind_eq_ok, return_eq_ok, decide_eq_true_eq] at h
      obtain ⟨decrypted, hdecrypted, text, htext, rfl⟩ := h
      refine ⟨.ofList (response.toList.takeWhile (· ≠ '|')), .ofList rest, fun hmem => ?_, ?_, ?_⟩
      · rw [String.toList_ofList] at hmem
        simpa using List.mem_takeWhile_imp hmem
      · refine String.toList_injective ?_
        simp only [String.toList_append, String.toList_ofList, hbar, List.append_assoc,
          List.singleton_append]
        exact hs
      · rw [hdecrypted, decodeUtf8_eq_ok.1 htext]
  · rintro ⟨ivHex, sent, hiv, rfl, hdecrypted⟩
    have hlist : (ivHex ++ "|" ++ sent).toList = ivHex.toList ++ '|' :: sent.toList := by
      rw [String.toList_append, String.toList_append, hbar, List.append_assoc,
        List.singleton_append]
    have htake : (ivHex.toList ++ '|' :: sent.toList).takeWhile (· ≠ '|') = ivHex.toList :=
      takeWhile_bar hiv
    have hdrop : (ivHex.toList ++ '|' :: sent.toList).dropWhile (· ≠ '|') = '|' :: sent.toList :=
      dropWhile_eq_cons.2 ⟨rfl, by rw [htake]⟩
    unfold verifyResponse
    simp only [hlist, hdrop, htake, String.ofList_toList, hdecrypted, bind_eq_ok, return_eq_ok]
    exact ⟨_, rfl, _, decodeUtf8_eq_ok.2 rfl, decide_eq_true rfl⟩

/-- **An open port.** The check gets through exactly when what was received
is a vector, a bar and a text whose bytes are what `aes_encrypt` writes for
the expected answer under the instance's key and that vector. -/
theorem verifyPortMap_iff {proto : String} {internalPort : ℕ}
    {received : Except Exc (List UInt8)} :
    verifyPortMap aes key proto internalPort received = true ↔
      ∃ ivHex sent : String, ∃ u c, '|' ∉ ivHex.toList ∧
        received = .ok (utf8 (ivHex ++ "|" ++ sent)) ∧ fromHex ivHex = .ok u ∧
        b64decode (utf8 sent) = .ok c ∧
        aesEncryptBytes aes [] (.bytes (utf8 s!"response from {lower proto} {internalPort}")) key
          (some u) = .ok (u, c) := by
  have hreceived : verifyPortMap aes key proto internalPort received = true ↔
      ∃ response, received = .ok (utf8 response) ∧
        verifyResponse aes key proto internalPort response = .ok true := by
    have hok : verifyPortMap aes key proto internalPort received = true ↔
        received >>= decodeUtf8 >>= verifyResponse aes key proto internalPort = .ok true := by
      unfold verifyPortMap
      split
      · next hr => rw [hr, Except.ok.injEq]
      · next hr => simp [hr]
    simp only [hok, bind_eq_ok, decodeUtf8_eq_ok]
    constructor
    · rintro ⟨response, ⟨b, hb, rfl⟩, h⟩
      exact ⟨response, hb, h⟩
    · rintro ⟨response, hr, h⟩
      exact ⟨response, ⟨_, hr, rfl⟩, h⟩
  rw [hreceived]
  simp only [verifyResponse_eq_true, aesDecrypt_eq_ok_iff, Data.encoded, Data.unhexed,
    Text.bytes_ofString, Text.fromHex_ofString, mapError_eq_ok]
  constructor
  · rintro ⟨_, hr, ivHex, sent, hiv, rfl, t, u, c, ht, hu, hc, henc⟩
    obtain rfl := Except.ok.inj ht
    exact ⟨ivHex, sent, u, c, hiv, hr, hu, hc, henc⟩
  · rintro ⟨ivHex, sent, u, c, hiv, hr, hu, hc, henc⟩
    exact ⟨_, hr, ivHex, sent, hiv, rfl, _, u, c, rfl, hu, hc, henc⟩

/-- **The proof of work's answer.** It is accepted exactly when its bytes
are what `aes_encrypt` writes for the config's secret. -/
theorem checkPovwResponse_iff {configId seed : String} {iv : Data} :
    checkPovwResponse aes key configId seed ciphertext iv = .ok () ↔
      ∃ t u c, ciphertext.encoded = .ok t ∧ iv.unhexed = .ok u ∧ b64decode t = .ok c ∧
        aesEncryptBytes aes [] (.bytes (utf8 s!"secret is {configId} {seed}")) key (some u) =
          .ok (u, c) := by
  simp only [checkPovwResponse, bind_eq_ok, ensure_eq_ok, Text.bytes_ofString,
    Except.ok.injEq, exists_eq_left', ← aesDecrypt_eq_ok_iff]
  constructor
  · rintro ⟨m, h, rfl⟩
    exact h
  · intro h
    exact ⟨_, h, rfl⟩

/-! ## Wallet secrets -/

/-- The parts of a text with one separator, where the first part has no
character of it. -/
theorem splitSeq_append {c : Char} {sep a b : List Char} {n : ℕ} (ha : c ∉ a) (hb : c ∉ b)
    (hn : (a ++ (c :: sep) ++ b).length ≤ n) :
    splitSeq (c :: sep) n (a ++ (c :: sep) ++ b) = [a, b] := by
  -- a text without the first character of the separator is one part
  have hrest : ∀ (b : List Char) (n : ℕ), c ∉ b → splitSeq (c :: sep) n b = [b] := by
    intro b
    induction b with
    | nil => intro n _; cases n <;> rfl
    | cons d b ih =>
      intro n hd
      rw [List.mem_cons, not_or] at hd
      cases n with
      | zero => rfl
      | succ n =>
        have hpre : (c :: sep).isPrefixOf (d :: b) = false := by
          simp [List.isPrefixOf, hd.1]
        rw [splitSeq, hpre, ih n hd.2]
        rfl
  induction a generalizing n with
  | nil =>
    cases n with
    | zero => simp at hn
    | succ n =>
      have hpre : (c :: sep).isPrefixOf (c :: sep ++ b) = true := by
        rw [List.isPrefixOf_iff_prefix]
        exact List.prefix_append ..
      rw [List.nil_append, List.cons_append, splitSeq, ← List.cons_append, hpre, if_pos rfl,
        List.drop_left, hrest b n hb]
  | cons d a ih =>
    rw [List.mem_cons, not_or] at ha
    cases n with
    | zero => simp at hn
    | succ n =>
      have hpre : (c :: sep).isPrefixOf (d :: (a ++ (c :: sep) ++ b)) = false := by
        simp [List.isPrefixOf, ha.1]
      rw [List.cons_append, List.cons_append, splitSeq, hpre, if_neg Bool.false_ne_true,
        ih ha.2 (by simpa using hn)]
      rfl

/-- **A wallet's secret is read as it was stored**: for every key of a
length the library takes, every vector and every text without surrogates,
where `pgp_sym_decrypt` gives back what `pgp_sym_encrypt` was given. -/
theorem walletSecret_roundTrip {pgp : Pgp} {settings : WalletSettings} {secret : String}
    (hpgp : ∀ data, pgp.decrypt (pgp.encrypt data settings.pgEncryptionKey)
      settings.pgEncryptionKey = some data)
    (hkey : fromHex settings.walletKey = .ok k.val) (htoken : token.length = 16) :
    ∃ stored, encryptWalletSecret aes pgp settings token (Text.ofString secret) = .ok stored ∧
      decryptWalletSecret aes pgp settings stored = .ok secret := by
  obtain ⟨v, hv⟩ : ∃ v : Block UInt8 16, v.val = token := ⟨⟨token, htoken⟩, rfl⟩
  obtain ⟨c, hc⟩ := exists_encryptCbc (E := aes k) (v := v) (m := utf8 secret) (by decide)
  have hcolon : ∀ b : List UInt8, ':' ∉ (hex b).toList := fun b h => (of_mem_hex h).2 rfl
  have hsplit : splitSeq "::::".toList (hex token ++ "::::" ++ hex c).toList.length
      (hex token ++ "::::" ++ hex c).toList = [(hex token).toList, (hex c).toList] := by
    rw [String.toList_append, String.toList_append]
    exact splitSeq_append (hcolon token) (hcolon c) le_rfl
  have hcbc : cbcIv token = .ok v := hv ▸ cbcIv_val v
  have hclear : decryptCbc (aes k) v c = some (utf8 secret) :=
    (decryptCbc_eq_some (by decide) (by decide)).2 hc
  refine ⟨hex (pgp.encrypt (hex token ++ "::::" ++ hex c) settings.pgEncryptionKey), ?_, ?_⟩
  · simp only [encryptWalletSecret, bind_eq_ok, mapError_eq_ok, return_eq_ok, orValueError_eq_ok,
      Text.bytes_ofString]
    exact ⟨_, hkey, k, aesKey_val k, v, hcbc, _, rfl, c, hc, rfl⟩
  · simp only [decryptWalletSecret, bind_eq_ok, mapError_eq_ok, fromHex_hex]
    refine ⟨_, rfl, ?_⟩
    simp only [hpgp, hsplit, bind_eq_ok, mapError_eq_ok, String.ofList_toList, fromHex_hex,
      orValueError_eq_ok]
    exact ⟨_, hkey, k, aesKey_val k, token, rfl, v, hcbc, c, rfl, _, hclear,
      decodeUtf8_eq_ok.2 rfl⟩

/-- A message that `pgp_sym_encrypt` writes under `"pgkey"` for the secret
`"testing"` under the sample key and vector. -/
def sampleMessage : List UInt8 :=
  [195, 13, 4, 7, 3, 2, 1, 2, 3, 4, 5, 6, 7, 8, 96, 210, 117, 1, 35, 158, 227, 244, 7, 188,
    24, 171, 162, 140, 106, 191, 147, 58, 24, 142, 6, 183, 43, 140, 163, 248, 65, 100, 215,
    221, 146, 66, 1, 84, 238, 62, 23, 67, 225, 90, 237, 38, 21, 102, 170, 108, 13, 133, 59,
    45, 186, 215, 242, 211, 94, 189, 174, 226, 36, 240, 166, 126, 236, 114, 64, 118, 35, 3,
    30, 157, 212, 138, 26, 41, 5, 77, 38, 177, 83, 61, 154, 32, 19, 170, 210, 140, 101, 14,
    128, 83, 131, 58, 38, 241, 20, 134, 227, 71, 187, 192, 170, 233, 181, 170, 200, 0, 211,
    203, 213, 54, 148, 206, 0, 118, 206, 111, 50, 24, 130, 43]

def sampleData : String := "747451472d3b017e8190a3b2c5d4e7f6::::69c4e0d86a7b0430d8cdb78070b4c55a"

/-- `pgcrypto` as far as that message. -/
def samplePgp : Pgp where
  encrypt data _ := if data = sampleData then sampleMessage else 0 :: utf8 data
  decrypt b _ :=
    if b = sampleMessage then some sampleData
    else if b.head? = some 0 then (decodeUtf8 b.tail).toOption
    else none

theorem samplePgp_decrypt_encrypt (data key : String) :
    samplePgp.decrypt (samplePgp.encrypt data key) key = some data := by
  simp only [samplePgp]
  split
  · next h => rw [if_pos rfl, h]
  · have hne : ¬0 :: utf8 data = sampleMessage := fun h =>
      absurd (List.cons.inj h).1 (by decide)
    rw [if_neg hne, List.head?_cons, if_pos rfl, List.tail_cons, decodeUtf8_eq_ok.2 rfl]
    rfl

theorem walletSecret_roundTrip_testing :
    ∃ stored, encryptWalletSecret sampleAes samplePgp ⟨sampleKey, "pgkey"⟩ sampleIv.val
        (Text.ofString "testing") = .ok stored ∧
      decryptWalletSecret sampleAes samplePgp ⟨sampleKey, "pgkey"⟩ stored = .ok "testing" :=
  walletSecret_roundTrip (k := sampleAesKey) (fun data => samplePgp_decrypt_encrypt data "pgkey")
    (by decide) rfl

end Crypto

end ChutesApi
