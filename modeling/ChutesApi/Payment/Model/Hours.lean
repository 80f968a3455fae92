import ChutesApi.Payment.Model.Usage
import ChutesApi.Common.Lts
/-!
# The hours of usage, from an event to a row

Invocations and deployment fees increment the hashes, and set the timestamp
of the hash of who pays; the credit of an owner adds an amount alone. A pass
of the tracker lists keys, reads their hashes, deletes the keys and commits
a row for each, in the hour of the timestamp. What an abandoned pass has
read is not written.

The events that are in a hash, and those that are in a row, are kept beside
what the code keeps.
-/

namespace ChutesApi

namespace Hours

open Usage

/-! ## The events -/

/-- What `_deploy_chute` knows when it ships a fee. -/
structure DeploymentFee where
  userId : UserId
  chuteId : ChuteId
  deploymentFee : ℚ
  freeAccount : Bool
  timestamp : ℕ
  deriving DecidableEq

/-- The commands of its pipeline. -/
def DeploymentFee.increments (f : DeploymentFee) : List Increment :=
  if f.deploymentFee ≠ 0 ∧ !f.freeAccount then
    [⟨(f.userId, f.chuteId), amountOnly f.deploymentFee, some f.timestamp⟩]
  else []

inductive Event
  | invocation (i : Invocation)
  | deployment (f : DeploymentFee)
  deriving DecidableEq

namespace Event

/-- When it takes place. -/
def time : Event → ℕ
  | invocation i => i.timestamp
  | deployment f => f.timestamp

def increments : Event → List Increment
  | invocation i => i.increments
  | deployment f => f.increments

/-- It adds to the key. -/
def Adds (e : Event) (k : Key) : Prop := ∃ c ∈ e.increments, c.key = k

/-- It sets the timestamp of the key. -/
def Stamps (e : Event) (k : Key) : Prop := ∃ c ∈ e.increments, c.key = k ∧ c.timestamp.isSome

instance (e : Event) (k : Key) : Decidable (e.Adds k) := by unfold Adds; infer_instance

instance (e : Event) (k : Key) : Decidable (e.Stamps k) := by unfold Stamps; infer_instance

end Event

/-! ## The tracker -/

/-- A hash that was read, with the events that are in it. -/
structure Read where
  key : Key
  hash : Hash
  events : List Event

inductive Stage
  /-- It lists the keys. -/
  | listing
  /-- It reads the hashes. -/
  | reading
  /-- It has deleted the keys. -/
  | deleted
  deriving DecidableEq

/-- A pass of `process_balance_changes`: the keys it has still to read, and
what it has read. -/
structure Pass where
  todo : List Key
  reads : List Read
  stage : Stage

/-- A row that was written, with the events that are in it. -/
structure Write where
  row : UsageData
  events : List Event

/-- The stores, with the open passes. `pending` has the events of each hash,
and `writes` what the passes have written. -/
structure State (τ : Type*) where
  redis : Redis
  usageData : List UsageData
  passes : τ → Option Pass
  pending : Key → List Event
  writes : List Write

inductive Action (τ : Type*)
  | event (e : Event)
  | begin (t : τ)
  /-- A `SCAN` that returns these keys. -/
  | scan (t : τ) (keys : List Key)
  /-- The scan is over. -/
  | listed (t : τ)
  /-- `HGETALL` of the next key, and its insertion. -/
  | read (t : τ)
  /-- The pipeline that deletes the listed keys. -/
  | delete (t : τ)
  | commit (t : τ)
  /-- An exception ends the pass. -/
  | abandon (t : τ)

variable (users : UserId → Option User)

/-- What a pass has written when it commits: a row for each key that it read,
of a user who exists. -/
def Read.write (r : Read) : Option Write :=
  if (users r.key.1).isSome then
    some ⟨⟨r.key.1, hourBucket r.hash.timestamp, r.key.2, r.hash.value⟩, r.events⟩
  else none

variable {τ : Type*} [DecidableEq τ]

def step (s : State τ) : Action τ → Option (State τ)
  | .event e => some { s with
      redis := e.increments.foldl Redis.increment s.redis
      pending := fun k => s.pending k ++ if e.Adds k then [e] else [] }
  | .begin t =>
    if (s.passes t).isNone then
      some { s with passes := Function.update s.passes t (some ⟨[], [], .listing⟩) }
    else none
  | .scan t keys =>
    match s.passes t with
    | some ⟨todo, reads, .listing⟩ =>
      if ∀ k ∈ keys, (s.redis k).isSome then
        some { s with
          passes := Function.update s.passes t (some ⟨todo ++ keys, reads, .listing⟩) }
      else none
    | _ => none
  | .listed t =>
    match s.passes t with
    | some ⟨todo, reads, .listing⟩ =>
      some { s with passes := Function.update s.passes t (some ⟨todo, reads, .reading⟩) }
    | _ => none
  | .read t =>
    match s.passes t with
    | some ⟨k :: todo, reads, .reading⟩ =>
      some { s with
        passes := Function.update s.passes t
          (some ⟨todo, reads ++ [⟨k, s.redis.hgetall k, s.pending k⟩], .reading⟩) }
    | _ => none
  | .delete t =>
    match s.passes t with
    | some ⟨[], reads, .reading⟩ =>
      some { s with
        redis := s.redis.delete (reads.map Read.key)
        pending := fun k => if k ∈ reads.map Read.key then [] else s.pending k
        passes := Function.update s.passes t (some ⟨[], reads, .deleted⟩) }
    | _ => none
  | .commit t =>
    match s.passes t with
    | some ⟨_, reads, .deleted⟩ =>
      some { s with
        usageData := (reads.map fun r => (r.key, r.hash)).foldl (insertUsage users) s.usageData
        passes := Function.update s.passes t none
        writes := s.writes ++ reads.filterMap (Read.write users) }
    | _ => none
  | .abandon t => some { s with passes := Function.update s.passes t none }

/-- Trackers `τ`, over stores that are empty. -/
def system (τ : Type*) [DecidableEq τ] : Lts (State τ) (Action τ) where
  init s := s = ⟨fun _ => none, [], fun _ => none, fun _ => [], []⟩
  step := step users

end Hours

end ChutesApi
