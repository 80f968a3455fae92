import ChutesApi.Common.Lts
import ChutesApi.Common.SortedSet
import ChutesApi.Instance.Model.Routing
import Mathlib.Data.Rat.Floor
/-!
# The connections of a chute, in Redis

Every request that is sent to an instance adds a connection to a sorted set
with the time as its score, and removes it in the end; connections that were
not removed are purged when they are old. The steps are those that Redis
executes: a request has read its clock at some time before. `registered`
and `total` are what a reader of the run knows, not the program.
-/

namespace ChutesApi

namespace Tracking

/-- `connection_expiry`. -/
def connectionExpiry : ℚ := 600

/-- One use of `get_target`. -/
structure Request where
  /-- The time that `get_connection_counts` read. -/
  started : ℚ
  /-- The registrations there had been by then. -/
  mark : String → ℕ
  /-- The target, and what its connections are at most, if Redis gave them. -/
  routed : Option (String × Option ℕ)
  added : Bool
  removed : Bool
  /-- The score, while the connection is registered and not yet removed. -/
  held : Option ℤ

/-- **The connections of one chute.** -/
structure State where
  now : ℚ
  redis : SortedSets String String
  registered : String → Dict String ℤ
  total : String → ℕ
  request : String → Option Request

namespace State

variable (s : State)

def putRequest (connId : String) (q : Request) : State :=
  { s with request := Function.update s.request connId (some q) }

/-- `ZCOUNT` of every instance over the last ten minutes before `t`. -/
def zcount (t : ℚ) (iid : String) : ℕ := (s.redis.sets iid).countBetween (t - connectionExpiry) t

/-- `ZRANGEBYSCORE key 0 cutoff`, in the order of the scores. -/
def oldest (redis : SortedSets String String) (iid : String) (cutoff : ℚ) : List String :=
  (((redis.sets iid).items.filter fun e => 0 ≤ e.2 ∧ (e.2 : ℚ) ≤ cutoff).insertionSort
    fun a b => a.2 < b.2 ∨ a.2 = b.2 ∧ a.1 ≤ b.1).map Prod.fst

/-- The most connections a target has when it is selected. -/
def bound (m : LeastConnManager) (prefixes : Option (List (ℕ × String))) : ℕ :=
  if prefixes.isSome then m.concurrency + 1 else m.concurrency - 1

/-- `get_targets`, with the counts as they are when Redis executes the
pipeline, or without where it fails. -/
def route (connId : String) (answered : Bool) (m : LeastConnManager) (draws : Draws)
    (hasPrefix : String → Option (String → Bool)) (avoid : List String)
    (prefixes : Option (List (ℕ × String))) (q : Request) : Option State :=
  let zcount := if answered then some (s.zcount q.started) else none
  match m.getTargets draws ⟨zcount, hasPrefix⟩ avoid prefixes with
  | .ok (iid :: _) =>
    some (s.putRequest connId
      { q with routed := some (iid, if answered then some (bound m prefixes) else none) })
  | _ => none

/-- `lua_add_connection`, with `now` as the request read it. -/
def addConnection (connId iid : String) (now : ℤ) (q : Request) : State :=
  { s with
    redis := s.redis.add iid connId now (s.now + connectionExpiry)
    registered := Function.update s.registered iid ((s.registered iid).set connId now)
    total := Function.update s.total iid (s.total iid + 1)
    request := Function.update s.request connId (some { q with added := true, held := some now }) }

/-- `lua_remove_connection`. -/
def removeConnection (connId iid : String) (now : ℤ) (q : Request) : State :=
  let redis := s.redis.remove iid [connId]
  { s with
    redis := redis.remove iid ((oldest redis iid (now - connectionExpiry)).take 10)
    registered := Function.update s.registered iid
      ((s.registered iid).filter fun e => e.1 ∉ [connId])
    request := Function.update s.request connId (some { q with removed := true, held := none }) }

end State

/-- **What happens.** A request that ends without a removal, as where the
process is killed, takes no step. -/
inductive Action
  | tick (d : ℚ)
  /-- `get_connection_counts` reads the clock. -/
  | look (connId : String)
  /-- A target is selected. -/
  | route (connId : String) (answered : Bool) (m : LeastConnManager) (draws : Draws)
      (hasPrefix : String → Option (String → Bool)) (avoid : List String)
      (prefixes : Option (List (ℕ × String)))
  /-- The connection is added, with the clock read at `t`. -/
  | add (connId : String) (t : ℚ)
  /-- The connection is removed. -/
  | remove (connId : String) (t : ℚ)
  /-- `_cleanup_expired_connections` at one key. -/
  | cleanup (iid : String) (t : ℚ)
  /-- The key lapses. -/
  | lapse (iid : String)

/-- **One step.** -/
def step (s : State) : Action → Option State
  | .tick d => if 0 ≤ d then some { s with now := s.now + d } else none
  | .look connId =>
    match s.request connId with
    | none => some (s.putRequest connId ⟨s.now, s.total, none, false, false, none⟩)
    | some _ => none
  | .route connId answered m draws hasPrefix avoid prefixes =>
    match s.request connId with
    | some q =>
      if q.routed = none then s.route connId answered m draws hasPrefix avoid prefixes q else none
    | none => none
  | .add connId t =>
    match s.request connId with
    | some q =>
      match q.routed with
      | some (iid, _) =>
        if q.added = false ∧ q.started ≤ t ∧ t ≤ s.now then
          some (s.addConnection connId iid ⌊t⌋ q)
        else none
      | none => none
    | none => none
  | .remove connId t =>
    match s.request connId with
    | some q =>
      match q.routed with
      | some (iid, _) =>
        if q.removed = false ∧ q.started ≤ t ∧ t ≤ s.now then
          some (s.removeConnection connId iid ⌊t⌋ q)
        else none
      | none => none
    | none => none
  | .cleanup iid t =>
    if t ≤ s.now then
      some { s with redis := s.redis.remove iid (s.redis.old iid (t - connectionExpiry)) }
    else none
  | .lapse iid =>
    match s.redis.expireAt iid with
    | some e => if e < s.now then some { s with redis := s.redis.lapse iid } else none
    | none => none

/-- **The system**: nothing is connected at first. -/
def system : Lts State Action where
  init s := s.redis = .empty ∧ (s.registered = fun _ => .empty) ∧ (s.total = fun _ => 0) ∧
    s.request = fun _ => none
  step := step

end Tracking

end ChutesApi
