import ChutesApi.Common.Lts
import Mathlib.Algebra.Order.Floor.Ring
import Mathlib.Data.Rat.Floor
import Mathlib.Logic.Function.Basic
/-!
# The bounty of a chute

A bounty is a key in Redis. It is created while a chute has no instance, and
the next invocation that gets its answer claims it and writes it on its row,
in the session that completes the row. The two stores are seen here from the
calls of `invoke` that run side by side.
-/

namespace ChutesApi

namespace Bounty

/-- `bounty_data`, and which creation it is of. -/
structure Data where
  createdAt : ℚ
  number : ℕ
  deriving DecidableEq, Repr

/-- What `claim_bounty` returns, and of which bounty it is. -/
structure Claimed where
  number : ℕ
  amount : ℤ
  deriving DecidableEq, Repr

/-- What becomes of a call to Redis: it is answered, its answer is lost, or it
is not made. -/
inductive Reply
  | answered
  | lost
  | refused
  deriving DecidableEq, Repr

/-! ## The key -/

/-- `CREATE_BOUNTY_LUA`. -/
def createBountyIfNotExists (key : Option Data) (data : Data) : Option Data × Bool :=
  match key with
  | none => (some data, true)
  | some old => (some old, false)

/-- `int(q)`. -/
def int (q : ℚ) : ℤ := if 0 ≤ q then ⌊q⌋ else ⌈q⌉

/-- `bounty_amount`. -/
def bountyAmount (now createdAt : ℚ) : ℤ := min (3 * int (now - createdAt) + 100) 86400

/-- **`claim_bounty`**: the key, popped by `CLAIM_BOUNTY_LUA`, and the amount.
Where the answer is lost the exception is caught, and the amount is `None`. -/
def claimBounty (now : ℚ) (key : Option Data) : Reply → Option Data × Option Claimed
  | .answered => (none, key.map fun data => ⟨data.number, bountyAmount now data.createdAt⟩)
  | .lost => (none, none)
  | .refused => (key, none)

/-! ## The row of an attempt -/

/-- A row of `invocations`. -/
structure Row where
  /-- `completed_at` is not null. -/
  completed : Bool := false
  errorMessage : Option String := none
  /-- The column `bounty` has the amount, and 0 where nothing was claimed. -/
  claimed : Option Claimed := none
  deriving DecidableEq, Repr

/-- `UPDATE_INVOCATION`. -/
def Row.update (row : Row) (bounty : Option Claimed) : Row :=
  { row with completed := true, claimed := bounty }

/-- `UPDATE_INVOCATION_ERROR`. -/
def Row.updateError (row : Row) (errorMessage : String) : Row :=
  { row with completed := true, errorMessage := some errorMessage }

/-- The row is completed, and not by an error. -/
def Row.Complete (row : Row) : Prop := row.completed = true ∧ row.errorMessage = none

/-! ## The calls -/

/-- Where a call of `invoke` is in an attempt. -/
inductive Phase
  /-- Before the insertion of the row. -/
  | routing
  /-- The row is inserted; `_invoke_one` is under way or done. -/
  | invoking
  /-- `claim_bounty` has returned. -/
  | claimed (bounty : Option Claimed)
  /-- The row is updated in the session that is still open. -/
  | updated (bounty : Option Claimed)
  /-- The session is committed. -/
  | committed
  /-- An exception is caught, and the session rolled back. -/
  | failed (errorMessage : String)
  | ended
  deriving DecidableEq, Repr

/-- A call, with `attempt_idx`. -/
structure Call where
  attempt : ℕ := 0
  phase : Phase := .routing
  deriving DecidableEq, Repr

/-- An exception is caught here. -/
def Phase.catches : Phase → Bool
  | .invoking => true
  | .claimed _ => true
  | .updated _ => true
  | .committed => true
  | _ => false

/-- The bounty that a call has claimed and not committed. -/
def Call.hand (call : Call) : Option Claimed :=
  match call.phase with
  | .claimed bounty => bounty
  | .updated bounty => bounty
  | _ => none

/-- The call after the error is recorded: a bad request is not tried again,
and anything else at most five times. -/
def Call.next (call : Call) (errorMessage : String) : Call :=
  if errorMessage ≠ "BAD_REQUEST" ∧ call.attempt + 1 < 5 then ⟨call.attempt + 1, .routing⟩
  else { call with phase := .ended }

/-- What happens on a chute, with the number of the call it happens to. -/
inductive Event
  | create (now : ℚ)
  | delete
  | expire
  /-- The row is inserted and committed. -/
  | track (call : ℕ)
  | claim (call : ℕ) (now : ℚ) (reply : Reply)
  | update (call : ℕ)
  | commit (call : ℕ)
  /-- The session is committed, but the call learns of an error. -/
  | commitLost (call : ℕ) (errorMessage : String)
  | raise (call : ℕ) (errorMessage : String)
  /-- The row gets the error, and the next attempt begins. -/
  | recordError (call : ℕ)
  /-- The generator ends: it returns, is closed or cancelled, or raises. -/
  | leave (call : ℕ)
  deriving DecidableEq

/-- **A chute's bounty, invocation rows and calls.** A row is known by its call
and attempt. -/
structure State where
  key : Option Data := none
  rows : ℕ × ℕ → Option Row := fun _ => none
  calls : ℕ → Call := fun _ => {}
  /-- How many bounties were created, and which of them `invoke` removed. -/
  created : ℕ := 0
  removed : List ℕ := []

namespace State

open Function

variable (s : State)

def setPhase (c : ℕ) (phase : Phase) : State :=
  { s with calls := update s.calls c { s.calls c with phase } }

/-- The row of a call's attempt. -/
def rowOf (c : ℕ) : ℕ × ℕ := (c, (s.calls c).attempt)

def setRow (c : ℕ) (row : Row) : State :=
  { s with rows := update s.rows (s.rowOf c) (some row) }

/-- The session's update reaches the row. -/
def complete (c : ℕ) (bounty : Option Claimed) : State :=
  s.setRow c (((s.rows (s.rowOf c)).getD {}).update bounty)

def claim (c : ℕ) (now : ℚ) (reply : Reply) : State :=
  let (key, bounty) := claimBounty now s.key reply
  { s.setPhase c (.claimed bounty) with
    key
    removed := s.removed ++ if key = none then (s.key.map Data.number).toList else [] }

def recordError (c : ℕ) (errorMessage : String) : State :=
  { s.setRow c (((s.rows (s.rowOf c)).getD {}).updateError errorMessage) with
    calls := update s.calls c ((s.calls c).next errorMessage) }

def step : Event → Option State
  | .create now =>
    let (key, created) := createBountyIfNotExists s.key ⟨now, s.created⟩
    some { s with key, created := s.created + created.toNat }
  | .delete => some { s with key := none }
  | .expire => some { s with key := none }
  | .track c => if (s.calls c).phase = .routing then some ((s.setRow c {}).setPhase c .invoking)
      else none
  | .claim c now reply => if (s.calls c).phase = .invoking then some (s.claim c now reply) else none
  | .update c =>
    match (s.calls c).phase with
    | .claimed bounty => some (s.setPhase c (.updated bounty))
    | _ => none
  | .commit c =>
    match (s.calls c).phase with
    | .updated bounty => some ((s.complete c bounty).setPhase c .committed)
    | _ => none
  | .commitLost c errorMessage =>
    match (s.calls c).phase with
    | .updated bounty => some ((s.complete c bounty).setPhase c (.failed errorMessage))
    | _ => none
  | .raise c errorMessage =>
    if (s.calls c).phase.catches then some (s.setPhase c (.failed errorMessage)) else none
  | .recordError c =>
    match (s.calls c).phase with
    | .failed errorMessage => some (s.recordError c errorMessage)
    | _ => none
  | .leave c => if (s.calls c).phase ≠ .ended then some (s.setPhase c .ended) else none

end State

/-- The bounty of a chute as a system. -/
def system : Lts State Event := ⟨(· = {}), State.step⟩

end Bounty

end ChutesApi
