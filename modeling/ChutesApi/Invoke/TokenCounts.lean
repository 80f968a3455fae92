import ChutesApi.Invoke.Model.Attempt
import Mathlib.Tactic.Linarith
/-!
# The token counts of the two modes

A streamed answer and a plain one carry the same `usage` object, and each
accounting weighs it against the estimates in its own way: the streamed one
lowers the prompt to what is claimed, never raises it, and counts nothing
below zero, the plain one takes every claim that is not absurd, and neither
has an estimate for a prompt of no tokens. `tokenCounts_agree_iff` has the
claims on which they come to the same counts.
-/

namespace ChutesApi

namespace Invoke

/-! ## The counts -/

/-- The usage in the last chunk, if it can be read. -/
def usageOf (codec : Codec) (lastChunk : Option String) : UsageField :=
  match lastChunk with
  | none => .absent
  | some bytes =>
    if !Python.contains bytes "\"usage\"" then .absent
    else
      let object := Python.slice bytes 6 bytes.length
      match (codec.decode object).bind fun _ => codec.loads object with
      | some object => object.usage
      | none => .absent

/-- `metrics["it"]` and `metrics["ot"]` of a streamed answer. -/
def streamedCounts (codec : Codec) (lastChunk : Option String) (prompt completion : ℚ) :
    Except Failure (ℚ × ℚ) :=
  if prompt = 0 then .error noEstimate
  else
    let (prompt, completion) := streamedTokens codec lastChunk prompt completion
    .ok (max 0 prompt, max 0 completion)

/-- `metrics["it"]` and `metrics["ot"]` of a plain answer. -/
def plainCounts (usage : UsageField) (prompt completion : ℚ) : Except Failure (ℚ × ℚ) :=
  if prompt = 0 then .error noEstimate else plainTokens usage prompt completion

section Accounting

variable {req : Request} {codec : Codec} {target : Target} {response : Response} {m : LlmMetrics}

/-- The accounting after the loop counts `streamedCounts`. -/
theorem accountStream_eq {s : Sending} (hllm : req.isLlm) (hany : s.anyChunks)
    (hm : s.metrics = some (.llm m)) :
    accountStream req codec response s =
      match streamedCounts codec s.lastChunk m.it m.tokens with
      | .error f => (s.metrics, some f)
      | .ok (it, ot) =>
        let (m, f) := { m with it, ot }.rates response
        (some (.llm m), f) := by
  unfold accountStream streamedCounts
  by_cases h0 : m.it = 0
  · simp [hm, hllm, hany, h0]
  · simp [hm, hllm, hany, h0]

/-- The accounting of a plain answer counts `plainCounts`. -/
theorem accountPlain_eq {body : Body} {answer : Answer} (hllm : req.isLlm)
    (hjson : body.json = some answer) :
    accountPlain req target response body (some (.llm m)) =
      match plainCounts answer.usage m.it answer.outputTokens with
      | .error f => (some (.llm m), some f)
      | .ok (it, ot) =>
        let (m, f) := { m with tokens := ot, it, ot }.rates response
        (some (.llm m), f) := by
  unfold accountPlain plainCounts
  by_cases h0 : m.it = 0
  · simp [hllm, hjson, h0]
  · cases hplain : plainTokens answer.usage m.it answer.outputTokens with
    | error f => simp [hllm, hjson, h0, hplain]
    | ok counts => simp [hllm, hjson, h0, hplain]

end Accounting

/-- **The two modes agree** on the usage in the last chunk: neither raises,
and they come to the same counts, which are not negative. -/
def CountsAgree (codec : Codec) (lastChunk : Option String) (prompt completion : ℚ) : Prop :=
  ∃ counts : ℚ × ℚ, streamedCounts codec lastChunk prompt completion = .ok counts ∧
    plainCounts (usageOf codec lastChunk) prompt completion = .ok counts ∧
    0 ≤ counts.1 ∧ 0 ≤ counts.2

/-- A claim of prompt tokens on which they do. -/
def Claim.AgreesPrompt (prompt : ℚ) : Claim → Prop
  | .null | .empty => True
  | .number a => 0 < a ∧ a ≤ prompt ∨ prompt * 10 < a
  | .other => False

/-- The check of the claim does not raise. -/
def Claim.IsNumber : Claim → Prop
  | .number _ => True
  | _ => False

instance (claim : Claim) : Decidable claim.IsNumber :=
  match claim with
  | .number _ => isTrue trivial
  | .null | .empty | .other => isFalse id

/-- A claim of completion tokens on which they do, if the streamed
accounting reads it, or does not. -/
def Claim.AgreesCompletion (read : Prop) (completion : ℚ) : Claim → Prop
  | .null | .empty => True
  | .number b =>
    read ∧ (0 < b ∨ b = 0 ∧ completion = 0) ∨
      ¬read ∧ (b = 0 ∨ completion * 10 < b ∨ b = completion)
  | .other => False

/-- A usage on which they do. -/
def Agreed (usage : UsageField) (prompt completion : ℚ) : Prop :=
  match usage with
  | .absent => True
  | .object usage =>
    usage.promptTokens.AgreesPrompt prompt ∧
      usage.completionTokens.AgreesCompletion usage.promptTokens.IsNumber completion
  | .malformed => False

variable {p c a b : ℚ}

/-! ## One claim -/

/-- What the streamed accounting makes of a claim of prompt tokens. -/
def Claim.readPrompt (estimate : ℚ) : Claim → ℚ
  | .number a => if a > estimate * 10 then estimate else min a estimate
  | _ => estimate

/-- What it makes of a claim of completion tokens. -/
def Claim.readCompletion (estimate : ℚ) : Claim → ℚ
  | .number b => if b > estimate * 10 then estimate else b
  | _ => estimate

/-- What the plain accounting makes of either. -/
def Claim.counted (estimate : ℚ) (claim : Claim) : Except Failure ℚ :=
  claim.tokens.map (believed estimate)

theorem Claim.counted_number (q e : ℚ) :
    (Claim.number q).counted e = .ok (if q = 0 ∨ e * 10 < q then e else q) := by
  by_cases h0 : q = 0
  · simp [counted, tokens, h0, believed, Except.map]
  · simp [counted, tokens, h0, believed, Except.map]

/-- Both keep the estimate. -/
theorem eq_max_zero_iff : c = max 0 c ↔ 0 ≤ c :=
  eq_comm.trans max_eq_right_iff

/-- Both accountings count a number of prompt tokens. -/
theorem prompt_agrees_iff (hp : p ≠ 0) :
    (if a = 0 ∨ p * 10 < a then p else a) = max 0 (if a > p * 10 then p else min a p) ↔
      0 < p ∧ (0 < a ∧ a ≤ p ∨ p * 10 < a) := by
  by_cases habsurd : p * 10 < a
  · simp only [gt_iff_lt, habsurd, if_true, or_true, and_true]
    rw [eq_max_zero_iff]
    exact ⟨fun h => lt_of_le_of_ne h hp.symm, le_of_lt⟩
  · simp only [gt_iff_lt, habsurd, if_false, or_false]
    constructor
    · intro heq
      by_cases ha : a = 0
      · -- the plain count is the estimate, the streamed one is zero
        rw [if_pos ha, ha, max_eq_left (min_le_left 0 p)] at heq
        exact absurd heq hp
      · rw [if_neg ha] at heq
        have h0 : 0 ≤ a := heq ▸ le_max_left 0 (min a p)
        have hmin : a = min a p := by
          rcases max_choice 0 (min a p) with h | h
          · exact absurd (heq.trans h) ha
          · exact heq.trans h
        have hap : a ≤ p := min_eq_left_iff.1 hmin.symm
        have hpos : 0 < a := lt_of_le_of_ne h0 (Ne.symm ha)
        exact ⟨hpos.trans_le hap, hpos, hap⟩
    · rintro ⟨-, hpos, hap⟩
      rw [if_neg hpos.ne', min_eq_left hap, max_eq_right hpos.le]

/-- Both count a number of completion tokens. -/
theorem completion_agrees_iff :
    (if b = 0 ∨ c * 10 < b then c else b) = max 0 (if b > c * 10 then c else b) ↔
      0 ≤ c ∧ (0 < b ∨ b = 0 ∧ c = 0) := by
  by_cases habsurd : c * 10 < b
  · simp only [gt_iff_lt, habsurd, if_true, or_true]
    rw [eq_max_zero_iff]
    refine ⟨fun h => ⟨h, Or.inl ?_⟩, And.left⟩
    linarith
  · have hle : b ≤ c * 10 := not_lt.1 habsurd
    simp only [gt_iff_lt, habsurd, if_false, or_false]
    by_cases hb : b = 0
    · -- the plain count is the estimate, the streamed one is zero
      simp only [hb, if_true, max_self, lt_irrefl, false_or, true_and]
      exact ⟨fun h => ⟨h.ge, h⟩, And.right⟩
    · simp only [hb, if_false, false_and, or_false]
      constructor
      · intro heq
        have h0 : 0 ≤ b := heq ▸ le_max_left 0 b
        have hpos : 0 < b := lt_of_le_of_ne h0 (Ne.symm hb)
        exact ⟨by linarith, hpos⟩
      · rintro ⟨-, hpos⟩
        exact (max_eq_right hpos.le).symm

/-- Only the plain accounting counts a number of completion tokens. -/
theorem unread_agrees_iff :
    (if b = 0 ∨ c * 10 < b then c else b) = max 0 c ↔
      0 ≤ c ∧ (b = 0 ∨ c * 10 < b ∨ b = c) := by
  by_cases hkept : b = 0 ∨ c * 10 < b
  · rw [if_pos hkept, eq_max_zero_iff]
    exact ⟨fun h => ⟨h, hkept.imp_right Or.inl⟩, And.left⟩
  · rw [if_neg hkept]
    constructor
    · intro heq
      have hbc : b = c := by
        rcases max_choice 0 c with h | h
        · exact absurd (Or.inl (heq.trans h)) hkept
        · exact heq.trans h
      have h0 : 0 ≤ b := heq ▸ le_max_left 0 c
      exact ⟨hbc ▸ h0, Or.inr (Or.inr hbc)⟩
    · rintro ⟨h0, h⟩
      have hbc : b = c := by tauto
      rw [hbc, eq_max_zero_iff]
      exact h0

/-- A claim of prompt tokens comes to one count. -/
theorem Claim.agreesPrompt_iff (claim : Claim) (hp : p ≠ 0) :
    claim.counted p = .ok (max 0 (claim.readPrompt p)) ↔ 0 < p ∧ claim.AgreesPrompt p := by
  have hestimate : p = max 0 p ↔ 0 < p :=
    eq_max_zero_iff.trans ⟨fun h => lt_of_le_of_ne h hp.symm, le_of_lt⟩
  cases claim with
  | null => simpa [counted, tokens, believed, Except.map, readPrompt, AgreesPrompt] using hestimate
  | number a =>
    rw [counted_number, Except.ok.injEq]
    exact prompt_agrees_iff hp
  | empty => simpa [counted, tokens, believed, Except.map, readPrompt, AgreesPrompt] using hestimate
  | other => simp [counted, tokens, Except.map, AgreesPrompt]

/-- A claim of completion tokens comes to one count. -/
theorem Claim.agreesCompletion_iff (claim : Claim) (read : Prop) [Decidable read] :
    claim.counted c = .ok (max 0 (if read then claim.readCompletion c else c)) ↔
      0 ≤ c ∧ claim.AgreesCompletion read c := by
  cases claim with
  | null => simp [counted, tokens, believed, Except.map, readCompletion, AgreesCompletion]
  | number b =>
    rw [counted_number, Except.ok.injEq]
    by_cases hread : read
    · simpa [hread, readCompletion, AgreesCompletion] using completion_agrees_iff
    · simpa [hread, readCompletion, AgreesCompletion] using unread_agrees_iff
  | empty => simp [counted, tokens, believed, Except.map, readCompletion, AgreesCompletion]
  | other => simp [counted, tokens, Except.map, AgreesCompletion]

/-! ## A usage object -/

/-- The streamed counts, by the usage in the last chunk. -/
theorem streamedTokens_eq (codec : Codec) (lastChunk : Option String) (p c : ℚ) :
    streamedTokens codec lastChunk p c =
      match usageOf codec lastChunk with
      | .object ⟨prompt, completion⟩ =>
        (prompt.readPrompt p, if prompt.IsNumber then completion.readCompletion c else c)
      | _ => (p, c) := by
  unfold streamedTokens usageOf
  cases lastChunk with
  | none => rfl
  | some bytes =>
    dsimp only
    split_ifs with husage
    · rfl
    · cases (codec.decode (Python.slice bytes 6 bytes.length)).bind fun _ =>
          codec.loads (Python.slice bytes 6 bytes.length) with
      | none => rfl
      | some object =>
        -- the checks of the prompt come first, and raise unless it is a number
        rcases object with ⟨_, _, _, _ | ⟨⟨_ | _ | _ | _, ⟨_ | _ | _ | _⟩⟩⟩ | _⟩ <;> rfl

/-- A plain answer with a usage object comes to the counts `x` and `y`. -/
theorem plainTokens_object (prompt completion : Claim) (x y : ℚ) :
    plainTokens (.object ⟨prompt, completion⟩) p c = .ok (x, y) ↔
      prompt.counted p = .ok x ∧ completion.counted c = .ok y := by
  simp only [plainTokens, Claim.counted]
  cases prompt.tokens <;> cases completion.tokens <;>
    simp [bind, Except.bind, pure, Except.pure, Except.map]

/-- **The usage on which the two modes agree**: there is an estimate, the
claimed prompt is no more than it or absurd, and no claim stands for a count
in one mode only. -/
theorem tokenCounts_agree_iff (codec : Codec) (lastChunk : Option String) (p c : ℚ) :
    CountsAgree codec lastChunk p c ↔
      0 < p ∧ 0 ≤ c ∧ Agreed (usageOf codec lastChunk) p c := by
  unfold CountsAgree streamedCounts plainCounts
  by_cases hp : p = 0
  · simp [hp]
  rw [streamedTokens_eq]
  simp only [if_neg hp, Except.ok.injEq, exists_eq_left', le_max_left, and_true]
  cases usageOf codec lastChunk with
  | absent =>
    simp only [plainTokens, Agreed, Except.ok.injEq, Prod.mk.injEq, eq_max_zero_iff, and_true]
    exact and_congr_left' ⟨fun h => lt_of_le_of_ne h (Ne.symm hp), le_of_lt⟩
  | object usage =>
    rw [plainTokens_object, usage.promptTokens.agreesPrompt_iff hp,
      usage.completionTokens.agreesCompletion_iff]
    exact and_and_and_comm.trans and_assoc
  | malformed => simp [plainTokens, Agreed]

/-- An answer whose last chunk has a usage object with these claims. -/
def claiming (prompt completion : Claim) : Codec where
  decode bytes := some bytes
  loads _ := some ⟨true, true, false, .object ⟨prompt, completion⟩⟩

/-- A claim of 200 prompt tokens where 100 are estimated: the streamed answer
counts 100 and the plain one 200. -/
theorem not_countsAgree :
    ¬CountsAgree (claiming (.number 200) (.number 10))
      (some "data: \x7b\"usage\":\x7b") 100 10 := by
  rintro ⟨counts, hstream, hplain, -⟩
  have hcounts : streamedCounts (claiming (.number 200) (.number 10))
      (some "data: \x7b\"usage\":\x7b") 100 10 = .ok (100, 10) := by decide +kernel
  have hplain' : plainCounts (usageOf (claiming (.number 200) (.number 10))
      (some "data: \x7b\"usage\":\x7b")) 100 10 = .ok (200, 10) := by decide +kernel
  rw [hcounts, Except.ok.injEq] at hstream
  rw [hplain', Except.ok.injEq] at hplain
  rw [← hstream] at hplain
  exact absurd hplain (by decide)

end Invoke

end ChutesApi
