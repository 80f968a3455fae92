import Mathlib.Data.List.OfFn
import Mathlib.Data.UInt
import Mathlib.Logic.Equiv.Defs
/-!
# Chaining, blocks and padding

A block cipher is a permutation of blocks. Chaining it over a list of
blocks, each mixed with the cipher of the one in front of it, is inverted by
the chaining of its inverse (`chain_unchain`). A message is cut into blocks after it is
padded with bytes that say how many they are; cutting and padding are
inverted exactly (`toBlocks_eq_some`, `unpad_eq_some`), so that whatever is
taken as the cipher of a message is the cipher of that message
(`decryptCbc_eq_some`).
-/

namespace ChutesApi

/-! ## Chaining -/

section Chaining

variable {β : Type*}

/-- The blocks, each mixed with the cipher of the one in front and
enciphered. -/
def chain (E : Equiv.Perm β) (mix : β → β → β) : β → List β → List β
  | _, [] => []
  | v, b :: bs => E (mix b v) :: chain E mix (E (mix b v)) bs

/-- The blocks again. -/
def unchain (E : Equiv.Perm β) (mix : β → β → β) : β → List β → List β
  | _, [] => []
  | v, c :: cs => mix (E.symm c) v :: unchain E mix c cs

variable {E : Equiv.Perm β} {mix : β → β → β}

theorem unchain_chain (hmix : ∀ a b, mix (mix a b) b = a) (v : β) (bs : List β) :
    unchain E mix v (chain E mix v bs) = bs := by
  induction bs generalizing v with
  | nil => rfl
  | cons b bs ih => rw [chain, unchain, ih, E.symm_apply_apply, hmix]

theorem chain_unchain (hmix : ∀ a b, mix (mix a b) b = a) (v : β) (cs : List β) :
    chain E mix v (unchain E mix v cs) = cs := by
  induction cs generalizing v with
  | nil => rfl
  | cons c cs ih => rw [unchain, chain, hmix, E.apply_symm_apply, ih]

@[simp] theorem length_chain (v : β) (bs : List β) : (chain E mix v bs).length = bs.length := by
  induction bs generalizing v with
  | nil => rfl
  | cons b bs ih => rw [chain, List.length_cons, ih, List.length_cons]

end Chaining

/-! ## Blocks -/

/-- A list of `n` things. -/
abbrev Block (α : Type*) (n : ℕ) := {l : List α // l.length = n}

section Blocks

variable {α : Type*} {n : ℕ}

/-- `k` blocks that make up the list. -/
def takeBlocks (n : ℕ) : ℕ → List α → Option (List (Block α n))
  | 0, [] => some []
  | 0, _ :: _ => none
  | k + 1, l =>
    if h : n ≤ l.length then
      (takeBlocks n k (l.drop n)).map (⟨l.take n, by rw [List.length_take, min_eq_left h]⟩ :: ·)
    else none

/-- **The blocks of a list**, whose length they must divide. -/
def toBlocks (n : ℕ) (l : List α) : Option (List (Block α n)) := takeBlocks n (l.length / n) l

/-- The list that blocks make up. -/
def ofBlocks (bs : List (Block α n)) : List α := (bs.map Subtype.val).flatten

@[simp] theorem ofBlocks_nil : ofBlocks ([] : List (Block α n)) = [] := rfl

@[simp] theorem ofBlocks_cons (b : Block α n) (bs : List (Block α n)) :
    ofBlocks (b :: bs) = b.val ++ ofBlocks bs := rfl

@[simp] theorem length_ofBlocks (bs : List (Block α n)) :
    (ofBlocks bs).length = n * bs.length := by
  induction bs with
  | nil => rfl
  | cons b bs ih =>
    rw [ofBlocks_cons, List.length_append, b.2, ih, List.length_cons, Nat.mul_succ, Nat.add_comm]

theorem ofBlocks_of_takeBlocks {k : ℕ} {l : List α} {bs : List (Block α n)}
    (h : takeBlocks n k l = some bs) : ofBlocks bs = l := by
  induction k generalizing l bs with
  | zero =>
    cases l with
    | nil => exact Option.some.inj h ▸ rfl
    | cons a l => cases h
  | succ k ih =>
    rw [takeBlocks] at h
    split_ifs at h with hn
    obtain ⟨cs, hcs, rfl⟩ := Option.map_eq_some_iff.1 h
    rw [ofBlocks_cons, ih hcs]
    exact List.take_append_drop n l

theorem takeBlocks_ofBlocks (bs : List (Block α n)) :
    takeBlocks n bs.length (ofBlocks bs) = some bs := by
  induction bs with
  | nil => rfl
  | cons b bs ih =>
    have hlength : n ≤ (b.val ++ ofBlocks bs).length := by rw [List.length_append, b.2]; omega
    rw [List.length_cons, takeBlocks, ofBlocks_cons, dif_pos hlength, List.drop_left' b.2, ih]
    simp only [Option.map_some, Option.some.injEq, List.cons.injEq, and_true]
    exact Subtype.ext (List.take_left' b.2)

/-- **A list is cut into the blocks it is made up of**, and no others. -/
theorem toBlocks_eq_some (hn : 0 < n) {l : List α} {bs : List (Block α n)} :
    toBlocks n l = some bs ↔ ofBlocks bs = l := by
  refine ⟨ofBlocks_of_takeBlocks, ?_⟩
  rintro rfl
  rw [toBlocks, length_ofBlocks, Nat.mul_div_cancel_left _ hn]
  exact takeBlocks_ofBlocks bs

/-- When a list can be cut. -/
theorem exists_toBlocks (hn : 0 < n) {l : List α} :
    (∃ bs, toBlocks n l = some bs) ↔ n ∣ l.length := by
  constructor
  · rintro ⟨bs, h⟩
    rw [← (toBlocks_eq_some hn).1 h, length_ofBlocks]
    exact ⟨_, rfl⟩
  · rintro ⟨k, hk⟩
    induction k generalizing l with
    | zero => exact ⟨[], by simp [toBlocks_eq_some hn, List.length_eq_zero_iff.1 hk]⟩
    | succ k ih =>
      rw [Nat.mul_succ] at hk
      obtain ⟨bs, hbs⟩ := @ih (l.drop n) (by rw [List.length_drop]; omega)
      have hb : (l.take n).length = n := by rw [List.length_take]; omega
      refine ⟨⟨l.take n, hb⟩ :: bs, (toBlocks_eq_some hn).2 ?_⟩
      rw [ofBlocks_cons, (toBlocks_eq_some hn).1 hbs]
      exact List.take_append_drop n l

end Blocks

/-! ## Padding -/

section Padding

variable {n : ℕ} {l m : List UInt8}

/-- How many bytes fill the last block, at least one. -/
def padding (n : ℕ) (m : List UInt8) : ℕ := n - m.length % n

/-- **PKCS #7**: bytes up to the next block, each of them their number. -/
def pad (n : ℕ) (m : List UInt8) : List UInt8 :=
  m ++ List.replicate (padding n m) (UInt8.ofNat (padding n m))

/-- The message in front of the padding, of which every byte is checked. -/
def unpad (n : ℕ) (l : List UInt8) : Option (List UInt8) :=
  l.getLast?.bind fun c =>
    let k := c.toNat
    if n ∣ l.length ∧ 0 < k ∧ k ≤ n ∧ l.drop (l.length - k) = List.replicate k c then
      some (l.take (l.length - k))
    else none

theorem padding_pos (hn : 0 < n) : 0 < padding n m := by
  have := Nat.mod_lt m.length hn
  rw [padding]
  omega

theorem padding_le : padding n m ≤ n := Nat.sub_le ..

theorem length_pad : (pad n m).length = m.length + padding n m := by
  rw [pad, List.length_append, List.length_replicate]

theorem dvd_length_pad (hn : 0 < n) : n ∣ (pad n m).length := by
  have hlt := Nat.mod_lt m.length hn
  have hdiv := Nat.div_add_mod m.length n
  refine ⟨m.length / n + 1, ?_⟩
  rw [length_pad, padding, Nat.mul_succ]
  omega

/-- The padding is read off its bytes. -/
theorem toNat_ofNat_padding (hn : n < 256) : (UInt8.ofNat (padding n m)).toNat = padding n m := by
  have : padding n m ≤ n := padding_le
  rw [UInt8.toNat_ofNat', Nat.mod_eq_of_lt]
  omega

/-- **What is unpadded is what was padded**, and is so only from its padded
form. -/
theorem unpad_eq_some (h0 : 0 < n) (hn : n < 256) : unpad n l = some m ↔ pad n m = l := by
  constructor
  · intro h
    obtain ⟨c, hc, h⟩ := Option.bind_eq_some_iff.1 h
    simp only at h
    split_ifs at h with hcond
    obtain ⟨hdvd, hpos, hle, hdrop⟩ := hcond
    obtain rfl := Option.some.inj h
    have hlength : c.toNat ≤ l.length := by
      have := congrArg List.length hdrop
      rw [List.length_drop, List.length_replicate] at this
      omega
    -- the length of the message is what the padding leaves of the blocks
    have hpadding : padding n (l.take (l.length - c.toNat)) = c.toNat := by
      obtain ⟨k, hk⟩ := hdvd
      rw [padding, List.length_take, min_eq_left (Nat.sub_le ..), hk]
      rcases eq_or_lt_of_le hle with heq | hlt
      · rw [heq, ← Nat.mul_sub_one, Nat.mul_mod_right, Nat.sub_zero]
      · have hk0 : 0 < k := Nat.pos_of_ne_zero fun h0 => by rw [h0] at hk; omega
        have hsplit : n * k - c.toNat = n * (k - 1) + (n - c.toNat) := by
          obtain ⟨j, rfl⟩ := Nat.exists_eq_succ_of_ne_zero hk0.ne'
          rw [Nat.succ_sub_one, Nat.mul_succ]
          omega
        rw [hsplit, Nat.mul_add_mod, Nat.mod_eq_of_lt (by omega)]
        omega
    rw [pad, hpadding, UInt8.ofNat_toNat, ← hdrop]
    exact List.take_append_drop ..
  · rintro rfl
    have hpos : 0 < padding n m := padding_pos h0
    have hlast : (pad n m).getLast? = some (UInt8.ofNat (padding n m)) := by
      rw [pad, List.getLast?_append, List.getLast?_replicate, if_neg hpos.ne', Option.some_or]
    have hsub : (pad n m).length - padding n m = m.length := by rw [length_pad]; omega
    have hdrop : (pad n m).drop m.length =
        List.replicate (padding n m) (UInt8.ofNat (padding n m)) := by
      rw [pad, List.drop_left]
    have htake : (pad n m).take m.length = m := by rw [pad, List.take_left]
    rw [unpad, hlast, Option.bind_some]
    simp only [toNat_ofNat_padding hn, hsub, htake]
    rw [if_pos ⟨dvd_length_pad h0, hpos, padding_le, hdrop⟩]

end Padding

/-! ## Messages -/

section Messages

variable {n : ℕ} {E : Equiv.Perm (Block UInt8 n)} {v : Block UInt8 n} {m c : List UInt8}

/-- The bytes of two blocks, one by one. -/
def xorBlock (a b : Block UInt8 n) : Block UInt8 n :=
  ⟨List.zipWith (· ^^^ ·) a.val b.val, by rw [List.length_zipWith, a.2, b.2, min_self]⟩

theorem xorBlock_xorBlock (a b : Block UInt8 n) : xorBlock (xorBlock a b) b = a := by
  obtain ⟨a, rfl⟩ := a
  obtain ⟨b, hb⟩ := b
  refine Subtype.ext (List.ext_getElem ?_ fun i h1 h2 => ?_)
  · simp [xorBlock, hb]
  · simp only [xorBlock, List.getElem_zipWith]
    rw [UInt8.xor_assoc, UInt8.xor_self, UInt8.xor_zero]

/-- **A message enciphered**: padded, cut into blocks and chained. -/
def encryptCbc (E : Equiv.Perm (Block UInt8 n)) (v : Block UInt8 n) (m : List UInt8) :
    Option (List UInt8) :=
  (toBlocks n (pad n m)).map fun bs => ofBlocks (chain E xorBlock v bs)

/-- **And deciphered**; `none` for bytes that are no blocks, or whose last
bytes are no padding. -/
def decryptCbc (E : Equiv.Perm (Block UInt8 n)) (v : Block UInt8 n) (c : List UInt8) :
    Option (List UInt8) :=
  (toBlocks n c).bind fun bs => unpad n (ofBlocks (unchain E xorBlock v bs))

/-- Every message is enciphered. -/
theorem exists_encryptCbc (hn : 0 < n) : ∃ c, encryptCbc E v m = some c := by
  obtain ⟨bs, hbs⟩ := (exists_toBlocks hn).2 (dvd_length_pad (m := m) hn)
  exact ⟨_, Option.map_eq_some_iff.2 ⟨bs, hbs, rfl⟩⟩

/-- **Bytes are deciphered to the message whose cipher they are**, and to
nothing if they are the cipher of none. -/
theorem decryptCbc_eq_some (h0 : 0 < n) (hn : n < 256) :
    decryptCbc E v c = some m ↔ encryptCbc E v m = some c := by
  rw [decryptCbc, encryptCbc, Option.bind_eq_some_iff, Option.map_eq_some_iff]
  simp only [toBlocks_eq_some h0, unpad_eq_some h0 hn]
  constructor
  · rintro ⟨cs, rfl, hm⟩
    exact ⟨_, hm.symm, by rw [chain_unchain xorBlock_xorBlock]⟩
  · rintro ⟨bs, hbs, rfl⟩
    exact ⟨_, rfl, by rw [unchain_chain xorBlock_xorBlock, hbs]⟩

end Messages

end ChutesApi
