import ChutesApi.Common.Lts
import ChutesApi.Payment.Balance
import ChutesApi.Payment.MonitorLock
/-!
# The payment watcher

One monitor follows the chain. It loads the saved block number, skipping
ahead if it is too far behind, and processes blocks one after the other,
always one behind the head: for each transfer to a known address a
transaction, then the save. It may crash at any point, and then its memory
is lost: the block it is at, the addresses it knows, the calls still to
make.

A credit is recorded in `payments` under an id that is made of the block,
the two addresses and the amount, and a transfer whose id is recorded
already is skipped. The users' balances stand here as the watcher's credits
alone change them.
-/

namespace ChutesApi

namespace Watcher

/-- An address in its textual form, which has no colon. -/
structure Address where
  text : String
  noColon : ':' ∉ text.toList
  deriving DecidableEq

/-- The two accounts of a transfer, which the node gives either in their
textual form or as bytes. -/
inductive Accounts
  | ss58 (sender receiver : Address)
  | raw (sender receiver : List UInt8)

/-- An event of a block. A transfer has a sender, a receiver and an amount
among its attributes. -/
structure RawEvent where
  moduleId : String
  eventId : String
  accounts : Option Accounts
  amount : Option ℕ
  extrinsicIdx : Option ℕ

/-- A transfer as the watcher reads it. -/
structure Transfer where
  sender : Address
  receiver : Address
  amount : ℕ
  extrinsicIdx : Option ℕ
  deriving DecidableEq

/-- A row of `payments`. -/
structure Payment where
  paymentId : String
  userId : UserId
  sourceAddress : Address
  block : ℕ
  raoAmount : ℕ
  usdAmount : ℚ
  fmv : ℚ
  extrinsicIdx : Option ℕ
  developer : Bool

/-- A user with the address they pay to, and how many blocks there were when
they registered. -/
structure Payee where
  userId : UserId
  born : ℕ

/-- The libraries and the settings. -/
structure Config where
  /-- `uuid.uuid5(uuid.NAMESPACE_OID, name)`. -/
  uuid5 : String → String
  /-- `ss58_encode`, of the bytes of an account. -/
  ss58Encode : List UInt8 → Address
  maxRecoveryBlocks : ℕ
  developerDeposit : ℚ

variable (cfg : Config)

/-- The filter of `monitor_transfers`. -/
def RawEvent.transfer (e : RawEvent) : Option Transfer :=
  if e.moduleId = "Balances" ∧ e.eventId = "Transfer" then
    match e.accounts, e.amount with
    | some (.ss58 sender receiver), some amount => some ⟨sender, receiver, amount, e.extrinsicIdx⟩
    | some (.raw sender receiver), some amount =>
      some ⟨cfg.ss58Encode sender, cfg.ss58Encode receiver, amount, e.extrinsicIdx⟩
    | _, _ => none
  else none

/-- The name a payment id is made of. -/
def paymentName (block : ℕ) (t : Transfer) : String :=
  s!"{block}:{t.receiver.text}:{t.sender.text}:{t.amount}"

def paymentId (block : ℕ) (t : Transfer) : String := cfg.uuid5 (paymentName block t)

/-! ## The state -/

/-- One transaction of the block's loop, with the event it is for. -/
inductive Call
  | handlePayment (index : ℕ) (t : Transfer)
  | handleDeveloperDeposit (index : ℕ) (t : Transfer)

/-- Where the monitor is. -/
inductive Phase
  | down
  /-- After `_get_state`. -/
  | loaded (current : ℕ)
  /-- To refresh the addresses, before the loop. -/
  | fetched (current latest : ℕ)
  /-- At the head of the inner loop. -/
  | loop (current latest : ℕ)
  | polling (current : ℕ)
  /-- To refresh the addresses, as the block has advanced. -/
  | advanced (current latest : ℕ)
  /-- To read the block's events. -/
  | reading (current latest : ℕ)
  /-- The transactions still to run for the block. -/
  | handling (current latest : ℕ) (calls : List Call)

/-- A credit: the event it is for, and what it added. -/
structure Credit where
  block : ℕ
  index : ℕ
  transfer : Transfer
  userId : UserId
  usdAmount : ℚ

structure State where
  /-- The blocks so far, of which the last is the head. -/
  chain : List (List RawEvent)
  /-- The users by payment address. Each address is a new key pair's. -/
  payee : Address → Option Payee
  /-- The users by developer payment address. -/
  developer : Address → Option UserId
  isDeveloper : UserId → Bool
  balance : UserId → ℚ
  walletBalance : Address → ℕ
  payments : List Payment
  /-- `payment_monitor_state.block_number`. -/
  blockNumber : ℕ
  phase : Phase
  isRunning : Bool
  paymentAddresses : Address → Bool
  developerPaymentAddresses : Address → Bool
  fmv : ℚ
  /-- The credits made, in their order. -/
  credits : List Credit
  /-- The block that the monitor has come to, at its farthest. -/
  reached : ℕ

/-- A block number's events. -/
def State.events (s : State) (n : ℕ) : List RawEvent := s.chain.getD n []

/-- The transfer at an index of a block. -/
def State.transferAt (s : State) (n i : ℕ) : Option Transfer :=
  (s.events n)[i]?.bind (RawEvent.transfer cfg)

def State.head (s : State) : ℕ := s.chain.length - 1

/-- The calls of the block's loop. -/
def State.calls (s : State) (n : ℕ) : List Call :=
  (s.events n).zipIdx.flatMap fun (e, i) =>
    match e.transfer cfg with
    | none => []
    | some t =>
      (if s.paymentAddresses t.receiver then [.handlePayment i t] else []) ++
        if s.developerPaymentAddresses t.receiver then [.handleDeveloperDeposit i t] else []

/-- The payment's row. -/
def State.row (s : State) (n : ℕ) (t : Transfer) (userId : UserId) (developer : Bool) :
    Payment where
  paymentId := paymentId cfg n t
  userId := userId
  sourceAddress := t.sender
  block := n
  raoAmount := t.amount
  usdAmount := Balance.usdAmount t.amount s.fmv
  fmv := s.fmv
  extrinsicIdx := t.extrinsicIdx
  developer := developer

/-- The primary key of `payments` refuses the insertion. -/
def State.Duplicate (s : State) (n : ℕ) (t : Transfer) : Prop :=
  paymentId cfg n t ∈ s.payments.map Payment.paymentId

instance (s : State) (n : ℕ) (t : Transfer) : Decidable (s.Duplicate cfg n t) := by
  unfold State.Duplicate
  infer_instance

/-- `_handle_payment`, one transaction. -/
def State.handlePayment (s : State) (n i : ℕ) (t : Transfer) : State :=
  match s.payee t.receiver with
  | none => s
  | some user =>
    if t.amount < Balance.minPayment ∨ s.Duplicate cfg n t then s
    else
      { s with
        payments := s.row cfg n t user.userId false :: s.payments
        balance := Function.update s.balance user.userId
          (s.balance user.userId + Balance.usdAmount t.amount s.fmv)
        walletBalance := Function.update s.walletBalance t.receiver
          (s.walletBalance t.receiver + t.amount)
        credits := s.credits ++ [⟨n, i, t, user.userId, Balance.usdAmount t.amount s.fmv⟩] }

/-- `_handle_developer_deposit`, one transaction. -/
def State.handleDeveloperDeposit (s : State) (n : ℕ) (t : Transfer) : State :=
  match s.developer t.receiver with
  | none => s
  | some userId =>
    if s.Duplicate cfg n t then s
    else
      let totalPayments :=
        ((s.payments.filter fun p => p.userId == userId && p.developer).map Payment.usdAmount).sum
      let newTotal := totalPayments + Balance.usdAmount t.amount s.fmv
      { s with
        payments := s.row cfg n t userId true :: s.payments
        isDeveloper :=
          if newTotal ≥ cfg.developerDeposit then Function.update s.isDeveloper userId true
          else s.isDeveloper }

def State.call (s : State) (n : ℕ) : Call → State
  | .handlePayment i t => s.handlePayment cfg n i t
  | .handleDeveloperDeposit _ t => s.handleDeveloperDeposit cfg n t

/-- `_refresh_addresses`, which only adds. -/
def State.refreshAddresses (s : State) : State :=
  { s with
    paymentAddresses := fun a => s.paymentAddresses a || (s.payee a).isSome
    developerPaymentAddresses := fun a => s.developerPaymentAddresses a || (s.developer a).isSome }

/-! ## The steps -/

inductive Action
  /-- The chain gets a block. -/
  | produce (block : List RawEvent)
  /-- A user registers, with two new key pairs. -/
  | register (userId : UserId) (paymentAddress developerPaymentAddress : Address)
  /-- The monitor starts and loads its state. -/
  | load
  | getLatestBlock
  /-- The addresses and the price. -/
  | refresh (fmv : ℚ)
  /-- The tests at the head of the inner loop. -/
  | loop
  | poll
  | getEvents
  /-- The next transaction of the block. -/
  | handle
  /-- `_save_state`, which swallows its exceptions. -/
  | save (committed : Bool)
  | stop
  /-- A crash, or an exception that ends the monitor. -/
  | crash

/-- The monitor goes to a block. -/
def State.goto (s : State) (current : ℕ) (phase : Phase) : State :=
  { s with phase, reached := max s.reached current }

def step (s : State) : Action → Option State
  | .produce block => some { s with chain := s.chain ++ [block] }
  | .register userId a b =>
    if a ≠ b ∧ s.payee a = none ∧ s.developer a = none ∧
        s.payee b = none ∧ s.developer b = none then
      some { s with
        payee := Function.update s.payee a (some ⟨userId, s.chain.length⟩)
        developer := Function.update s.developer b (some userId) }
    else none
  | .load =>
    match s.phase with
    | .down =>
      let current := MonitorLock.getState cfg.maxRecoveryBlocks s.blockNumber s.head
      some { s.goto current (.loaded current) with isRunning := true }
    | _ => none
  | .getLatestBlock =>
    match s.phase with
    | .loaded current => some { s with phase := .fetched current s.head }
    | _ => none
  | .refresh fmv =>
    match s.phase with
    | .fetched current latest =>
      some { s.refreshAddresses with fmv, phase := .loop current latest }
    | .advanced current latest =>
      some { s.refreshAddresses with fmv, phase := .reading current latest }
    | _ => none
  | .loop =>
    match s.phase with
    | .loop current latest =>
      some { s with
        phase := if s.isRunning = false then .down
          else if current = latest then .polling current else .reading current latest }
    | _ => none
  | .poll =>
    match s.phase with
    | .polling current =>
      some { s with
        phase := if s.isRunning = false then .advanced current current
          else if s.head = current then .polling current else .advanced current s.head }
    | _ => none
  | .getEvents =>
    match s.phase with
    | .reading current latest =>
      some { s with phase := .handling current latest (s.calls cfg current) }
    | _ => none
  | .handle =>
    match s.phase with
    | .handling current latest (c :: calls) =>
      some { s.call cfg current c with phase := .handling current latest calls }
    | _ => none
  | .save committed =>
    match s.phase with
    | .handling current latest [] =>
      some { s.goto (current + 1) (.loop (current + 1) latest) with
        blockNumber := if committed then current else s.blockNumber }
    | _ => none
  | .stop => some { s with isRunning := false }
  | .crash =>
    some { s with
      phase := .down
      isRunning := false
      paymentAddresses := fun _ => false
      developerPaymentAddresses := fun _ => false }

/-- **The state in which the monitor is initialized**: it is to watch the
chain from the head on, for the users there are. -/
structure Initial (s : State) : Prop where
  chain : s.chain.length = s.blockNumber + 1
  reached : s.reached = s.blockNumber
  down : s.phase = .down
  payments : s.payments = []
  credits : s.credits = []
  born : ∀ a user, s.payee a = some user → user.born ≤ s.blockNumber
  disjoint : ∀ a, (s.payee a).isSome → s.developer a = none

/-- What the monitor does of itself, when nothing fails. -/
def Action.own : Action → Bool
  | .getLatestBlock | .refresh _ | .loop | .poll | .getEvents | .handle | .save true => true
  | _ => false

/-- The watcher over a chain, from an initial state. -/
def system (s₀ : State) : Lts State Action where
  init s := s = s₀
  step := step cfg

end Watcher

end ChutesApi
