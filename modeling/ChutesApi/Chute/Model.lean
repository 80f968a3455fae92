import ChutesApi.Python.Num
import ChutesApi.Python.Str
import ChutesApi.User.Model
/-!
# Chutes

The columns of `chutes` that an invocation reads, and what it makes of them.
-/

namespace ChutesApi

/-- `standard_template`, where there is one. -/
inductive Template
  | vllm
  | diffusion
  | tei
  deriving DecidableEq, Repr

/-- A row of `chutes`. Times are in seconds. -/
structure Chute where
  chuteId : ChuteId
  userId : UserId
  name : String
  isPublic : Bool
  standardTemplate : Option Template
  concurrency : Option ℕ
  discount : Option Python.PyFloat
  createdAt : ℕ
  deriving DecidableEq

/-- The tenth of September 2025, 16:00. -/
def legacyBillingEnds : ℕ := 1757520000

/-- `has_legacy_private_billing`. -/
def hasLegacyPrivateBilling (chute : Chute) : Bool :=
  if chute.isPublic || Python.contains (Python.lower chute.name) "/affine" then false
  else chute.createdAt < legacyBillingEnds

/-- The discount of the chute that counts: one over -3 and up to 1. -/
def Chute.discounted (chute : Chute) : ℚ :=
  match chute.discount with
  | some (.finite d) => if d ≠ 0 ∧ -3 < d ∧ d ≤ 1 then d else 0
  | _ => 0

/-- `chute.concurrency or 1`. -/
def Chute.slots (chute : Chute) : ℚ :=
  match chute.concurrency with
  | some 0 => 1
  | some n => n
  | none => 1

/-- What a low concurrency multiplies the prices of tokens by. -/
def Chute.scarcity (chute : Chute) : ℚ :=
  if chute.slots < 16 then 16 / chute.slots else 1

end ChutesApi
