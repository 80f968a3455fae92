import ChutesApi.Common.LogStream
import ChutesApi.Common.Lts
import Mathlib.Logic.Function.Basic
/-!
# The stream of a build's logs

The forge appends the lines of a build to a Redis stream, and `"DONE"` in
the end. A client follows the stream through `stream_build_logs`: each line
comes with the offset to go on from, and a client whose request breaks off
makes another with the last offset it received. Lines that were sent and not
received are lost with the request. Who sends `DONE` deletes the stream.

A line stands with its place among all lines ever appended, and a `DONE`
with whether the stream had not been deleted before: both are for the
reader of a run.
-/

namespace ChutesApi

namespace BuildLog

/-- What the forge appends, `json.dumps` of a line or `"DONE"`. -/
inductive Entry
  | log (text : String)
  | done
  deriving DecidableEq

/-- What `_stream` yields. -/
inductive Line
  /-- `data: {"log": …, "offset": …}`. -/
  | data (offset : StreamId) (place : ℕ) (text : String)
  | done (place : ℕ) (first : Bool)
  /-- `.` for an empty result. -/
  | waiting
  deriving DecidableEq

/-- **A client** and its request. -/
structure Client where
  /-- The last offset received, and the lines. -/
  offset : Option StreamId
  received : List (ℕ × String)
  /-- The first `DONE` received, with the lines received by then. -/
  finished : Option (ℕ × Bool × List (ℕ × String))
  /-- `last_offset` and what is left of `stream_result`. -/
  lastOffset : Option StreamId
  streamResult : List (StreamId × ℕ × Entry)
  /-- The lines on their way to the client. -/
  wire : List Line

/-- A client that makes its first request. -/
def Client.fresh : Client := ⟨none, [], none, none, [], []⟩

/-- **The stream and its clients.** `produced` and `deletions` are for the
reader of a run. -/
structure State (κ : Type) where
  produced : List Entry
  stream : LogStream (ℕ × Entry)
  deletions : ℕ
  client : κ → Client

inductive Action (κ : Type)
  /-- The forge appends an entry, at a time. -/
  | xadd (ms : ℕ) (e : Entry)
  /-- `create_image` deletes the stream of a previous build. -/
  | reset
  /-- A request breaks off, and the client makes another. -/
  | reconnect (c : κ)
  /-- The loop reads the stream. -/
  | xrange (c : κ)
  /-- The loop goes on with the next entry it has read. -/
  | next (c : κ)
  /-- The client receives a line. -/
  | receive (c : κ)

section

variable {κ : Type} [DecidableEq κ]

namespace State

variable (s : State κ)

def put (c : κ) (cl : Client) : State κ :=
  { s with client := Function.update s.client c cl }

def xadd (ms : ℕ) (e : Entry) : State κ :=
  { s with
    produced := s.produced ++ [e]
    stream := s.stream.append ms (s.produced.length, e) }

/-- `redis_client.delete`. -/
def delete : State κ := { s with stream := .empty, deletions := s.deletions + 1 }

end State

namespace Client

variable (cl : Client)

def reconnect : Client := { cl with lastOffset := cl.offset, streamResult := [], wire := [] }

def xrange (stream : LogStream (ℕ × Entry)) : Client :=
  match stream.range cl.lastOffset with
  | [] => { cl with wire := cl.wire ++ [.waiting] }
  | result => { cl with streamResult := result }

/-- A log entry is sent with the offset behind it. -/
def send (id : StreamId) (place : ℕ) (text : String) (rest : List (StreamId × ℕ × Entry)) :
    Client :=
  { cl with
    lastOffset := some id.next
    streamResult := rest
    wire := cl.wire ++ [.data id.next place text] }

/-- `DONE` is sent; the `break` leaves what was read behind it. -/
def sendDone (id : StreamId) (place : ℕ) (first : Bool) : Client :=
  { cl with
    lastOffset := some id.next
    streamResult := []
    wire := cl.wire ++ [.done place first] }

def receive (line : Line) (rest : List Line) : Client :=
  match line with
  | .data offset place text =>
    { cl with offset := some offset, received := cl.received ++ [(place, text)], wire := rest }
  | .done place first =>
    { cl with finished := cl.finished.or (some (place, first, cl.received)), wire := rest }
  | .waiting => { cl with wire := rest }

end Client

/-- **One step.** -/
def step (s : State κ) : Action κ → Option (State κ)
  | .xadd ms e => some (s.xadd ms e)
  | .reset => some s.delete
  | .reconnect c => some (s.put c (s.client c).reconnect)
  | .xrange c =>
    if (s.client c).streamResult = [] then some (s.put c ((s.client c).xrange s.stream)) else none
  | .next c =>
    match (s.client c).streamResult with
    | [] => none
    | (id, place, .log text) :: rest => some (s.put c ((s.client c).send id place text rest))
    | (id, place, .done) :: _ =>
      some (s.delete.put c ((s.client c).sendDone id place (s.deletions = 0)))
  | .receive c =>
    match (s.client c).wire with
    | [] => none
    | line :: rest => some (s.put c ((s.client c).receive line rest))

/-- **The system**: no line yet, and every client at its first request. -/
def system (κ : Type) [DecidableEq κ] : Lts (State κ) (Action κ) where
  init s := s = ⟨[], .empty, 0, fun _ => .fresh⟩
  step := step

end

end BuildLog

end ChutesApi
