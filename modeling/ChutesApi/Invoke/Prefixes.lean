import ChutesApi.Python.Text
import Mathlib.Logic.Embedding.Basic
import Mathlib.Order.Lattice.Nat
import Mathlib.Tactic.Ring
/-!
# The prefixes of a prompt

`get_prompt_prefix_hashes` hashes the prefixes of a prompt whose sizes are
1024 and its doubles, for the routing to instances that have one in their
cache. The prompt is what a user sent, of any shape. `prefixFaithful_iff`
says on which requests nothing is raised; there the hashes are of the sizes
they should be, and tell the prefixes apart.
-/

namespace ChutesApi

namespace Invoke

open Python

/-- A request body, without what no key is looked up for. -/
abbrev PromptPayload := List (Text × Document)

/-! ## The hashes -/

/-- `v["content"]` of a message that is a `dict` with a text there. -/
def content? : Document → Option Text
  | .object entries =>
    match Document.get entries "content" with
    | .text s => some s
    | _ => none
  | _ => none

/-- The prompt, else the texts of the messages. -/
def promptOf (payload : PromptPayload) : Except Exc (Option Document) :=
  match Document.get payload "prompt" with
  | .null =>
    match Document.get payload "messages" with
    | .null => .ok none
    | messages => do
      let items ← messages.iterate
      if items.all fun v => (content? v).isSome then
        return some (.text (items.filterMap content?).flatten)
      return none
  | prompt => .ok (some prompt)

/-- `prompt[:size].encode()`: a list has no `encode`, and a slice is no key of
a `dict`. -/
def encodePrefix (prompt : Document) (size : ℕ) : Except Exc ByteArray :=
  match prompt with
  | .text s => Text.encode (s.take size)
  | .array _ => .error (.raised .attributeError)
  | .object _ => .error (.raised .keyError)
  | .null | .bool _ | .number _ => .error (.raised .typeError)

variable (md5 : ByteArray → String)

/-- The loop over the sizes. -/
def hashesFrom (prompt : Document) (length size : ℕ) (hsize : 0 < size) :
    Except Exc (List (ℕ × String)) :=
  if size < length then do
    let bytes ← encodePrefix prompt size
    let hashes ← hashesFrom prompt length (size * 2) (by omega)
    return (size, md5 bytes) :: hashes
  else return []
termination_by length - size

/-- The hashes of a prompt that is not `None`. -/
def hashPrompt (prompt : Document) : Except Exc (List (ℕ × String)) :=
  if !prompt.truthy then return []
  else do
    let length ← prompt.len
    if length ≤ 1024 then return []
    else
      let hashes ← hashesFrom md5 prompt length 1024 (by decide)
      return hashes.reverse

/-- **`get_prompt_prefix_hashes`**, where `md5` gives the hex digits. -/
def getPromptPrefixHashes (payload : PromptPayload) : Except Exc (List (ℕ × String)) := do
  match ← promptOf payload with
  | none => return []
  | some prompt => hashPrompt md5 prompt

/-! ## What the hashes should be -/

/-- The request has this text for a prompt, its own or that of its messages. -/
def TextPrompt (payload : PromptPayload) (s : Text) : Prop :=
  promptOf payload = .ok (some (.text s))

/-- A size that is hashed, of a prompt of this length. -/
def IsSize (length n : ℕ) : Prop := ∃ k, n = 1024 * 2 ^ k ∧ n < length

/-- **The hashes are listed**: nothing is raised, and a text prompt has one for
each size, the largest first. -/
def Listed (payload : PromptPayload) : Prop :=
  ∃ hashes, getPromptPrefixHashes md5 payload = .ok hashes ∧ ∀ s, TextPrompt payload s →
    (hashes.map Prod.fst).Pairwise (· > ·) ∧ ∀ n, n ∈ hashes.map Prod.fst ↔ IsSize s.length n

/-- **The hashes are faithful** to the prefixes of two requests. -/
structure PrefixFaithful (payload payload' : PromptPayload) : Prop where
  first : Listed md5 payload
  second : Listed md5 payload'
  agree : ∀ hashes hashes' s s' n h h', getPromptPrefixHashes md5 payload = .ok hashes →
    getPromptPrefixHashes md5 payload' = .ok hashes' → TextPrompt payload s →
      TextPrompt payload' s' →
    (n, h) ∈ hashes → (n, h') ∈ hashes' → (h = h' ↔ s.take n = s'.take n)

/-- The prefixes that are hashed have no surrogate. -/
def TextHashable (s : Text) : Prop := ∀ n, IsSize s.length n → Text.Encodable (s.take n)

/-- The condition on a prompt: it is a text, is falsy, or is a list or an
object of at most 1024 entries. -/
def HashablePrompt : Document → Prop
  | .null => True
  | .bool b => b = false
  | .number x => x = .finite 0
  | .text s => TextHashable s
  | .array items => items.length ≤ 1024
  | .object entries => entries.length ≤ 1024

/-- **The condition on a request.** Without a prompt of its own, it has no
messages, or some that can be gone through, and the texts of these, where all
have one, are together a text that is hashed. -/
def Hashable (payload : PromptPayload) : Prop :=
  match Document.get payload "prompt" with
  | .null => Document.get payload "messages" = .null ∨
      ∃ items, (Document.get payload "messages").iterate = .ok items ∧
        ((∀ v ∈ items, (content? v).isSome) → TextHashable (items.filterMap content?).flatten)
  | prompt => HashablePrompt prompt

/-! ## The loop -/

variable {md5} {prompt : Document} {length size n : ℕ} {hsize : 0 < size} {h : String}
variable {hashes : List (ℕ × String)} {payload payload' : PromptPayload} {s : Text}

/-- The sizes from a size on: itself, and those from its double. -/
theorem forall_sizes {p : ℕ → Prop} :
    (∀ k, p (size * 2 ^ k)) ↔ p size ∧ ∀ k, p (size * 2 * 2 ^ k) := by
  constructor
  · intro hp
    refine ⟨by simpa using hp 0, fun k => ?_⟩
    have hsucc : size * 2 * 2 ^ k = size * 2 ^ (k + 1) := by ring
    rw [hsucc]
    exact hp (k + 1)
  · rintro ⟨hzero, hrest⟩ k
    cases k with
    | zero => simpa using hzero
    | succ k =>
      have hsucc : size * 2 ^ (k + 1) = size * 2 * 2 ^ k := by ring
      rw [hsucc]
      exact hrest k

theorem le_mul_two_pow (size k : ℕ) : size ≤ size * 2 ^ k :=
  Nat.le_mul_of_pos_right size (by positivity)

/-- **When the loop returns**: every prefix is encoded. -/
theorem exists_hashesFrom : (∃ hashes, hashesFrom md5 prompt length size hsize = .ok hashes) ↔
    ∀ k, size * 2 ^ k < length → ∃ bytes, encodePrefix prompt (size * 2 ^ k) = .ok bytes := by
  induction size, hsize using hashesFrom.induct length with
  | case1 size hsize hlt ih =>
    rw [hashesFrom, if_pos hlt]
    rw [forall_sizes (p := fun n => n < length → ∃ bytes, encodePrefix prompt n = .ok bytes), ← ih]
    simp only [hlt, forall_true_left, bind_eq_ok, return_eq_ok]
    constructor
    · rintro ⟨_, bytes, hbytes, hashes, hhashes, -⟩
      exact ⟨⟨bytes, hbytes⟩, hashes, hhashes⟩
    · rintro ⟨⟨bytes, hbytes⟩, hashes, hhashes⟩
      exact ⟨_, bytes, hbytes, hashes, hhashes, rfl⟩
  | case2 size hsize hge =>
    rw [hashesFrom, if_neg hge]
    refine ⟨fun _ k hk => absurd ((le_mul_two_pow size k).trans_lt hk) hge, fun _ => ⟨[], rfl⟩⟩

/-- **What the loop returns**: a hash for each size, in order. -/
theorem hashesFrom_spec (hok : hashesFrom md5 prompt length size hsize = .ok hashes) :
    (hashes.map Prod.fst).Pairwise (· < ·) ∧ ∀ n h, (n, h) ∈ hashes ↔
      (∃ k, n = size * 2 ^ k ∧ n < length) ∧
        ∃ bytes, encodePrefix prompt n = .ok bytes ∧ h = md5 bytes := by
  induction size, hsize using hashesFrom.induct length generalizing hashes with
  | case1 size hsize hlt ih =>
    rw [hashesFrom, if_pos hlt] at hok
    simp only [bind_eq_ok, return_eq_ok] at hok
    obtain ⟨bytes, hbytes, rest, hrest, rfl⟩ := hok
    obtain ⟨hsorted, hmem⟩ := ih hrest
    constructor
    · rw [List.map_cons, List.pairwise_cons]
      refine ⟨fun m hm => ?_, hsorted⟩
      obtain ⟨⟨m, h⟩, hin, rfl⟩ := List.mem_map.1 hm
      obtain ⟨⟨k, rfl, -⟩, -⟩ := (hmem m h).1 hin
      have hle := le_mul_two_pow (size * 2) k
      simp only
      omega
    · intro n h
      rw [List.mem_cons, hmem, Prod.mk.injEq]
      constructor
      · rintro (⟨rfl, rfl⟩ | ⟨⟨k, rfl, hk⟩, hbytes'⟩)
        · exact ⟨⟨0, by simp, hlt⟩, bytes, hbytes, rfl⟩
        · exact ⟨⟨k + 1, by ring, hk⟩, hbytes'⟩
      · rintro ⟨⟨k, rfl, hk⟩, bytes', hbytes', rfl⟩
        cases k with
        | zero =>
          rw [pow_zero, mul_one, hbytes, Except.ok.injEq] at hbytes'
          exact .inl ⟨by simp, by rw [hbytes']⟩
        | succ k =>
          have hsucc : size * 2 ^ (k + 1) = size * 2 * 2 ^ k := by ring
          exact .inr ⟨⟨k, hsucc, hk⟩, bytes', hbytes', rfl⟩
  | case2 size hsize hge =>
    rw [hashesFrom, if_neg hge, return_eq_ok] at hok
    subst hok
    refine ⟨List.Pairwise.nil, fun n h => iff_of_false List.not_mem_nil ?_⟩
    rintro ⟨⟨k, rfl, hk⟩, -⟩
    exact absurd ((le_mul_two_pow size k).trans_lt hk) hge

/-! ## The prompt -/

theorem not_isSize (hlength : length ≤ 1024) : ¬IsSize length n := by
  rintro ⟨k, rfl, hk⟩
  exact absurd ((le_mul_two_pow 1024 k).trans_lt hk) (by omega)

/-- What is not a text has no prefix that is encoded. -/
theorem not_exists_hashesFrom (hprompt : ∀ bytes, encodePrefix prompt size ≠ .ok bytes)
    (hlt : size < length) : ¬∃ hashes, hashesFrom md5 prompt length size hsize = .ok hashes := by
  rw [exists_hashesFrom]
  intro hall
  obtain ⟨bytes, hbytes⟩ := hall 0 (by simpa using hlt)
  rw [pow_zero, mul_one] at hbytes
  exact hprompt bytes hbytes

/-- A prompt with a length, of which one over the limit has no hashes. -/
theorem exists_hashPrompt_of_len (hlen : prompt.len = .ok length)
    (hprompt : ∀ bytes, encodePrefix prompt 1024 ≠ .ok bytes)
    (hfalsy : prompt.truthy = false → length ≤ 1024) :
    (∃ hashes, hashPrompt md5 prompt = .ok hashes) ↔ length ≤ 1024 := by
  unfold hashPrompt
  cases htruthy : prompt.truthy with
  | false => simp [hfalsy htruthy]
  | true =>
    by_cases hle : length ≤ 1024
    · simp [hlen, bind_eq_ok, hle]
    · have hnone : ¬∃ hashes, hashesFrom md5 prompt length 1024 (by decide) = .ok hashes :=
        not_exists_hashesFrom hprompt (Nat.lt_of_not_le hle)
      simp only [Bool.not_true, Bool.false_eq_true, if_false, hlen, bind_eq_ok, Except.ok.injEq,
        exists_eq_left', hle, return_eq_ok, iff_false, not_exists, not_and]
      intro _ hashes hok
      exact absurd ⟨hashes, hok⟩ hnone

/-- **A text prompt.** -/
theorem exists_hashPrompt_text :
    (∃ hashes, hashPrompt md5 (.text s) = .ok hashes) ↔ TextHashable s := by
  have hdef : hashPrompt md5 (.text s) = if s.length ≤ 1024 then .ok [] else do
      let hashes ← hashesFrom md5 (.text s) s.length 1024 (by decide)
      return hashes.reverse := by
    unfold hashPrompt
    cases s with
    | nil => rfl
    | cons c s => rfl
  rw [hdef]
  by_cases hle : s.length ≤ 1024
  · rw [if_pos hle]
    exact ⟨fun _ n hn => absurd hn (not_isSize hle), fun _ => ⟨[], rfl⟩⟩
  · rw [if_neg hle]
    have hreturns : (∃ hashes, hashesFrom md5 (.text s) s.length 1024 (by decide) = .ok hashes) ↔
        TextHashable s := by
      rw [exists_hashesFrom]
      simp only [encodePrefix, Text.exists_encode]
      constructor
      · rintro hall n ⟨k, rfl, hk⟩
        exact hall k hk
      · exact fun hall k hk => hall _ ⟨k, rfl, hk⟩
    rw [← hreturns]
    simp only [bind_eq_ok, return_eq_ok]
    constructor
    · rintro ⟨_, hashes, hok, -⟩
      exact ⟨hashes, hok⟩
    · rintro ⟨hashes, hok⟩
      exact ⟨_, hashes, hok, rfl⟩

theorem hashPrompt_text_spec (hok : hashPrompt md5 (.text s) = .ok hashes) :
    (hashes.map Prod.fst).Pairwise (· > ·) ∧ ∀ n h, (n, h) ∈ hashes ↔
      IsSize s.length n ∧ ∃ bytes, Text.encode (s.take n) = .ok bytes ∧ h = md5 bytes := by
  have hempty (hle : s.length ≤ 1024) : (([] : List (ℕ × String)).map Prod.fst).Pairwise (· > ·) ∧
      ∀ n h, (n, h) ∈ ([] : List (ℕ × String)) ↔
        IsSize s.length n ∧ ∃ bytes, Text.encode (s.take n) = .ok bytes ∧ h = md5 bytes :=
    ⟨List.Pairwise.nil, fun n h => ⟨nofun, fun hn => absurd hn.1 (not_isSize hle)⟩⟩
  unfold hashPrompt at hok
  split at hok
  · next hfalsy =>
    have hnil : s = [] := by simpa [Document.truthy] using hfalsy
    rw [return_eq_ok] at hok
    subst hok
    exact hempty (by simp [hnil])
  · simp only [Document.len, bind_eq_ok, Except.ok.injEq, exists_eq_left'] at hok
    split at hok
    · next hle =>
      rw [return_eq_ok] at hok
      subst hok
      exact hempty hle
    · simp only [bind_eq_ok, return_eq_ok] at hok
      obtain ⟨ascending, hloop, rfl⟩ := hok
      obtain ⟨hsorted, hmem⟩ := hashesFrom_spec hloop
      refine ⟨?_, fun n h => ?_⟩
      · rw [List.map_reverse, List.pairwise_reverse]
        exact hsorted
      · rw [List.mem_reverse]
        exact hmem n h

variable (md5) in
/-- **A prompt.** -/
theorem exists_hashPrompt :
    (∃ hashes, hashPrompt md5 prompt = .ok hashes) ↔ HashablePrompt prompt := by
  cases prompt with
  | null => simp [hashPrompt, Document.truthy, HashablePrompt]
  | bool b => cases b <;> simp [hashPrompt, Document.truthy, Document.len, HashablePrompt,
      bind_eq_ok]
  | number x =>
    have htruthy : x.truthy = false ↔ x = .finite 0 := by
      cases x <;> simp [PyFloat.truthy]
    have hreturns : (∃ hashes, hashPrompt md5 (.number x) = .ok hashes) ↔ x.truthy = false := by
      unfold hashPrompt
      cases hx : x.truthy <;> simp [Document.truthy, hx, Document.len, bind_eq_ok]
    exact hreturns.trans htruthy
  | text s => exact exists_hashPrompt_text
  | array items =>
    refine exists_hashPrompt_of_len rfl (fun _ h => by cases h) fun hfalsy => ?_
    have hnil : items = [] := by simpa [Document.truthy] using hfalsy
    simp [hnil]
  | object entries =>
    refine exists_hashPrompt_of_len rfl (fun _ h => by cases h) fun hfalsy => ?_
    have hnil : entries = [] := by simpa [Document.truthy] using hfalsy
    simp [hnil]

/-- Without a prompt, what the messages come to. -/
theorem promptOf_messages {items : List Document} (hprompt : Document.get payload "prompt" = .null)
    (hitems : (Document.get payload "messages").iterate = .ok items) : promptOf payload =
      .ok (if items.all fun v => (content? v).isSome then
        some (.text (items.filterMap content?).flatten) else none) := by
  have hne : Document.get payload "messages" ≠ .null := fun hnull => by
    rw [hnull] at hitems
    exact nomatch hitems
  unfold promptOf
  rw [hprompt]
  dsimp only
  split
  · next hnull => exact absurd hnull hne
  · rw [hitems]
    change (if _ then _ else _) = _
    split <;> rfl

variable (md5) in
/-- **When the hashes are returned.** -/
theorem exists_getPromptPrefixHashes :
    (∃ hashes, getPromptPrefixHashes md5 payload = .ok hashes) ↔ Hashable payload := by
  unfold getPromptPrefixHashes
  by_cases hprompt : Document.get payload "prompt" = .null
  · unfold Hashable
    rw [hprompt]
    dsimp only
    by_cases hmessages : Document.get payload "messages" = .null
    · have hnone : promptOf payload = .ok none := by simp [promptOf, hprompt, hmessages]
      simp [hnone, hmessages, bind_eq_ok]
    · simp only [hmessages, false_or]
      cases hitems : (Document.get payload "messages").iterate with
      | error e =>
        have herror : promptOf payload = .error e := by
          unfold promptOf
          rw [hprompt]
          dsimp only
          split
          · next hnull => exact absurd hnull hmessages
          · rw [hitems]
            rfl
        simp [herror, bind_eq_ok]
      | ok items =>
        rw [promptOf_messages hprompt hitems]
        simp only [bind_eq_ok, Except.ok.injEq, exists_eq_left']
        by_cases hall : items.all fun v => (content? v).isSome
        · have hall' := List.all_eq_true.1 hall
          rw [if_pos hall]
          exact exists_hashPrompt_text.trans ⟨fun hs _ => hs, fun hs => hs hall'⟩
        · rw [if_neg hall]
          rw [List.all_eq_true] at hall
          exact ⟨fun _ hs => absurd hs hall, fun _ => ⟨[], rfl⟩⟩
  · have hown : promptOf payload = .ok (some (Document.get payload "prompt")) := by
      unfold promptOf
      split
      · next hnull => exact absurd hnull hprompt
      · rfl
    have hhashable : Hashable payload ↔ HashablePrompt (Document.get payload "prompt") := by
      unfold Hashable
      split
      · next hnull => exact absurd hnull hprompt
      · rfl
    rw [hhashable, hown, ← exists_hashPrompt md5]
    rfl

theorem getPromptPrefixHashes_of_text (h : TextPrompt payload s) :
    getPromptPrefixHashes md5 payload = hashPrompt md5 (.text s) := by
  unfold getPromptPrefixHashes
  rw [h]
  rfl

theorem listed_iff : Listed md5 payload ↔ Hashable payload := by
  rw [← exists_getPromptPrefixHashes md5]
  constructor
  · rintro ⟨hashes, hok, -⟩
    exact ⟨hashes, hok⟩
  · rintro ⟨hashes, hok⟩
    refine ⟨hashes, hok, fun s hs => ?_⟩
    rw [getPromptPrefixHashes_of_text hs] at hok
    obtain ⟨hsorted, hmem⟩ := hashPrompt_text_spec hok
    have hreturns := exists_hashPrompt_text.1 ⟨hashes, hok⟩
    refine ⟨hsorted, fun n => ?_⟩
    simp only [List.mem_map, Prod.exists, hmem, exists_and_right, exists_eq_right]
    constructor
    · rintro ⟨h, hn, -⟩
      exact hn
    · intro hn
      obtain ⟨bytes, hbytes⟩ := Text.exists_encode.2 (hreturns n hn)
      exact ⟨md5 bytes, hn, bytes, hbytes, rfl⟩

/-- **The hashes are faithful exactly on requests that meet the condition**,
for a hash that does not collide. -/
theorem prefixFaithful_iff (md5 : ByteArray ↪ String) (payload payload' : PromptPayload) :
    PrefixFaithful md5 payload payload' ↔ Hashable payload ∧ Hashable payload' := by
  constructor
  · intro h
    exact ⟨listed_iff.1 h.first, listed_iff.1 h.second⟩
  · rintro ⟨hfirst, hsecond⟩
    refine ⟨listed_iff.2 hfirst, listed_iff.2 hsecond, ?_⟩
    intro hashes hashes' s s' n h h' hok hok' hs hs' hn hn'
    rw [getPromptPrefixHashes_of_text hs] at hok
    rw [getPromptPrefixHashes_of_text hs'] at hok'
    obtain ⟨-, bytes, hbytes, rfl⟩ := ((hashPrompt_text_spec hok).2 n h).1 hn
    obtain ⟨-, bytes', hbytes', rfl⟩ := ((hashPrompt_text_spec hok').2 n h').1 hn'
    rw [md5.injective.eq_iff]
    exact Text.encode_inj hbytes hbytes'

/-- A request with the ids of 1025 tokens. -/
def tokenIds : PromptPayload :=
  [(Text.ofString "prompt", .array (List.replicate 1025 (.number (.finite 1))))]

/-- **The hashes of some requests raise**: a list has no `encode`. -/
theorem not_prefixFaithful : ¬∃ md5 : ByteArray ↪ String, PrefixFaithful md5 tokenIds tokenIds := by
  rintro ⟨md5, h⟩
  have hlength : (List.replicate 1025 (Document.number (.finite 1))).length ≤ 1024 :=
    listed_iff.1 h.first
  rw [List.length_replicate] at hlength
  exact absurd hlength (by decide)

end Invoke

end ChutesApi
