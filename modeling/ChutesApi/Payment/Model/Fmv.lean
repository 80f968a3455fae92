import ChutesApi.Common.Expiring
import ChutesApi.Common.Lts
import ChutesApi.Python.Str
import Mathlib.Data.List.MinMax
/-!
# The price of a ticker

`get_price` looks in the cache, then in `fmv_history` for a price of the last
hour, then asks Kraken and CoinGecko, and at last takes whatever price is in
the table. Any number of calls run side by side, and each may stop between
two of its steps for as long as it likes, or raise. The cache may lose an
entry, and each of its operations may fail, which the code only logs.

What the two sources are asked for and how their answers are read is left to
the action: an answer is a price, or none. Beside what the code keeps, the
state has the record of what the sources have said.
-/

namespace ChutesApi

namespace Fmv

open Function Python

variable {P : Type*}

/-- A row of `fmv_history`. -/
structure FMV (P : Type*) where
  ticker : String
  timestamp : ℕ
  price : P

/-- A source named a price. -/
structure Quote (P : Type*) where
  ticker : String
  price : P
  time : ℕ
  deriving DecidableEq

/-- Neither source named one. -/
structure Failure where
  ticker : String
  time : ℕ
  deriving DecidableEq

/-- A call has returned a price. -/
structure Answer (P : Type*) where
  ticker : String
  price : P
  time : ℕ
  deriving DecidableEq

/-- Where a call is. A price in hand stands beside the time from which the
call has had it. -/
inductive Phase (P : Type*)
  /-- At `get_cached_price`. -/
  | cache
  /-- At `get_last_stored_price` with a limit. -/
  | recent
  | kraken
  | coingecko
  /-- At `get_last_stored_price` without one. -/
  | last (failedAt : ℕ)
  /-- To be cached and returned, from the last hour. -/
  | fresh (price : P) (readAt : ℕ)
  /-- To be cached and returned, from the table. -/
  | database (price : P) (failedAt : ℕ)
  /-- To be cached, from a source. -/
  | quoted (price : P) (quotedAt : ℕ)
  /-- To be stored and returned, from a source. -/
  | store (price : P) (quotedAt : ℕ)

/-- The time from which a call has had its price, and where it is one from the
table, of any age, the time at which the sources had failed. -/
def Phase.since : Phase P → Option ℕ
  | .fresh _ readAt => some readAt
  | .database _ failedAt => some failedAt
  | .quoted _ quotedAt => some quotedAt
  | .store _ quotedAt => some quotedAt
  | _ => none

structure State (P : Type*) where
  now : ℕ
  /-- `fmv_history`. -/
  history : List (FMV P)
  /-- The keys `price:{ticker}`. -/
  cached : Expiring String fun _ => P
  calls : ℕ → Option (String × Phase P)
  quotes : List (Quote P)
  failures : List Failure
  answers : List (Answer P)

/-! ## What a call does to the state -/

def State.goto (s : State P) (call : ℕ) (ticker : String) (phase : Phase P) : State P :=
  { s with calls := update s.calls call (some (ticker, phase)) }

/-- The call returns, or raises. -/
def State.leave (s : State P) (call : ℕ) : State P := { s with calls := update s.calls call none }

def State.answer (s : State P) (call : ℕ) (ticker : String) (price : P) : State P :=
  { s.leave call with answers := ⟨ticker, price, s.now⟩ :: s.answers }

/-- `set_cached_price`, whose exception is logged. -/
def State.setCachedPrice (s : State P) (ticker : String) (price : P) (ttl : ℕ) (fails : Bool) :
    State P :=
  { s with cached := if fails then s.cached else s.cached.set ticker price (s.now + ttl) }

/-- `get_cached_price`, whose exception is logged. -/
def State.getCachedPrice (s : State P) (ticker : String) (fails : Bool) : Option P :=
  if fails then none else s.cached.get s.now ticker

/-- `get_last_stored_price`. -/
def State.getLastStoredPrice (s : State P) (ticker : String) (notOlderThan : Option ℕ) :
    Option P :=
  ((s.history.filter fun row =>
    row.ticker = ticker ∧ ∀ age ∈ notOlderThan, s.now ≤ row.timestamp + age).argmax
      FMV.timestamp).map FMV.price

/-- A source names a price. -/
def State.quote (s : State P) (ticker : String) (price : P) : State P :=
  { s with quotes := ⟨ticker, price, s.now⟩ :: s.quotes }

/-- Neither source has named one. -/
def State.fail (s : State P) (ticker : String) : State P :=
  { s with failures := ⟨ticker, s.now⟩ :: s.failures }

/-- The primary key refuses the insertion. -/
def State.Duplicate (s : State P) (ticker : String) (timestamp : ℕ) : Prop :=
  ∃ row ∈ s.history, row.ticker = ticker ∧ row.timestamp = timestamp

instance (s : State P) (ticker : String) (timestamp : ℕ) :
    Decidable (s.Duplicate ticker timestamp) :=
  inferInstanceAs (Decidable (∃ row ∈ s.history, row.ticker = ticker ∧ row.timestamp = timestamp))

/-- `store_price`, in a transaction that began at the timestamp. -/
def State.storePrice (s : State P) (ticker : String) (price : P) (timestamp : ℕ) : State P :=
  { s with history := ⟨ticker, timestamp, price⟩ :: s.history }

/-! ## The steps -/

inductive Action (P : Type*)
  | tick (seconds : ℕ)
  /-- The cache loses an entry. -/
  | lose (ticker : String)
  | enter (call : ℕ) (ticker : String)
  /-- `get_cached_price` -/
  | readCache (call : ℕ) (fails : Bool)
  /-- `get_last_stored_price` with a limit. -/
  | readRecent (call : ℕ)
  /-- `get_kraken_price` -/
  | askKraken (call : ℕ) (price : Option P)
  /-- `get_coingecko_price` -/
  | askCoingecko (call : ℕ) (price : Option P)
  /-- `get_last_stored_price` without a limit. -/
  | readLast (call : ℕ)
  /-- `set_cached_price` -/
  | setCache (call : ℕ) (fails : Bool)
  /-- `store_price`, in a transaction that began at a time. -/
  | store (call : ℕ) (begun : ℕ)
  /-- The call raises. -/
  | leave (call : ℕ)

/-- **The steps of `get_price`.** `truthy` is the truth of a price: a zero
from CoinGecko is no price to be cached, but it is stored and returned. -/
def step (truthy : P → Bool) (s : State P) : Action P → Option (State P)
  | .tick seconds => some { s with now := s.now + seconds }
  | .lose ticker => some { s with cached := s.cached.delete ticker }
  | .enter call ticker =>
    match s.calls call with
    | none => some (s.goto call (lower ticker) .cache)
    | some _ => none
  | .readCache call fails =>
    match s.calls call with
    | some (ticker, .cache) =>
      match s.getCachedPrice ticker fails with
      | some price => some (s.answer call ticker price)
      | none => some (s.goto call ticker .recent)
    | _ => none
  | .readRecent call =>
    match s.calls call with
    | some (ticker, .recent) =>
      match (s.getLastStoredPrice ticker (some 3600)).filter truthy with
      | some price => some (s.goto call ticker (.fresh price s.now))
      | none => some (s.goto call ticker .kraken)
    | _ => none
  | .askKraken call price =>
    match s.calls call with
    | some (ticker, .kraken) =>
      match price with
      | some price => some ((s.quote ticker price).goto call ticker (.quoted price s.now))
      | none => some (s.goto call ticker .coingecko)
    | _ => none
  | .askCoingecko call price =>
    match s.calls call with
    | some (ticker, .coingecko) =>
      match price with
      | some price =>
        some ((s.quote ticker price).goto call ticker
          (if truthy price then .quoted price s.now else .store price s.now))
      | none => some ((s.fail ticker).goto call ticker (.last s.now))
    | _ => none
  | .readLast call =>
    match s.calls call with
    | some (ticker, .last failedAt) =>
      match s.getLastStoredPrice ticker none with
      | some price => some (s.goto call ticker (.database price failedAt))
      | none => some (s.leave call)
    | _ => none
  | .setCache call fails =>
    match s.calls call with
    | some (ticker, .fresh price _) =>
      some ((s.setCachedPrice ticker price 60 fails).answer call ticker price)
    | some (ticker, .database price _) =>
      some ((s.setCachedPrice ticker price 60 fails).answer call ticker price)
    | some (ticker, .quoted price quotedAt) =>
      some ((s.setCachedPrice ticker price 3600 fails).goto call ticker (.store price quotedAt))
    | _ => none
  | .store call begun =>
    match s.calls call with
    | some (ticker, .store price quotedAt) =>
      if quotedAt ≤ begun ∧ begun ≤ s.now then
        if s.Duplicate ticker begun then some (s.leave call)
        else some ((s.storePrice ticker price begun).answer call ticker price)
      else none
    | _ => none
  | .leave call => some (s.leave call)

/-- Nothing is known of any price. -/
def initial : State P := ⟨0, [], .empty, fun _ => none, [], [], []⟩

def fetcher (truthy : P → Bool) : Lts (State P) (Action P) where
  init s := s = initial
  step := step truthy

/-- The call of an action that passes a price on. -/
def Action.passing : Action P → Option ℕ
  | .setCache call _ => some call
  | .store call _ => some call
  | _ => none

/-- A call that has a price passes it on before long, and one for which the
sources have failed reads the table and passes that on before long. -/
def Prompt (delay : ℕ) (s : State P) (a : Action P) : Prop :=
  ∀ call ∈ a.passing, ∀ ticker_phase ∈ s.calls call, ∀ since ∈ ticker_phase.2.since,
    s.now ≤ since + delay

instance (delay : ℕ) (s : State P) (a : Action P) : Decidable (Prompt delay s a) :=
  inferInstanceAs (Decidable (∀ call ∈ a.passing, ∀ ticker_phase ∈ s.calls call,
    ∀ since ∈ ticker_phase.2.since, s.now ≤ since + delay))

end Fmv

end ChutesApi
