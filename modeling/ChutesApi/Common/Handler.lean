import ChutesApi.Python.Exc
/-!
# Handlers over a session

A handler of a request runs its statements in a session, commits, publishes
events and may raise at any point. What it has committed and published
stays; what it has not committed goes with the rollback, if it raises, and
is committed for it if it returns (`Handler.run`). The order of a handler's
statements is what counts, so a handler is written in their order, and
`Post` takes it apart from the front.
-/

namespace ChutesApi

open Python

/-- The connection of a request: the database as committed and as its
session sees it, and the events published so far. -/
structure Conn (δ ν : Type) where
  committed : δ
  working : δ
  published : List ν

/-- **A handler**: what it makes of its connection, and what it returns or
raises. -/
def Handler (δ ν α : Type) : Type := Conn δ ν → Conn δ ν × Except Exc α

namespace Handler

variable {δ ν α β : Type}

instance : Monad (Handler δ ν) where
  pure a := fun c => (c, .ok a)
  bind h k := fun c =>
    match h c with
    | (c', .ok a) => k a c'
    | (c', .error e) => (c', .error e)

def raise (e : Exc) : Handler δ ν α := fun c => (c, .error e)

/-- What the session sees. -/
def read : Handler δ ν δ := fun c => (c, .ok c.working)

/-- A statement, or a change that the session is yet to flush. -/
def execute (f : δ → δ) : Handler δ ν Unit := fun c => ({ c with working := f c.working }, .ok ())

def commit : Handler δ ν Unit := fun c => ({ c with committed := c.working }, .ok ())

def publish (event : ν) : Handler δ ν Unit :=
  fun c => ({ c with published := c.published ++ [event] }, .ok ())

/-- What a request leaves behind. -/
structure Outcome (δ ν α : Type) where
  db : δ
  published : List ν
  response : Except Exc α

/-- The end of a request: the session commits if the handler returns, and
rolls back if it raises. -/
def close : Conn δ ν × Except Exc α → Outcome δ ν α
  | (c, .ok a) => ⟨c.working, c.published, .ok a⟩
  | (c, .error e) => ⟨c.committed, c.published, .error e⟩

/-- **`get_db_session`**: a request on a database. -/
def run (h : Handler δ ν α) (db : δ) : Outcome δ ν α := close (h ⟨db, db, []⟩)

/-! ## Postconditions -/

/-- **What holds of the outcome** of a handler from a connection. -/
def Post (h : Handler δ ν α) (c : Conn δ ν) (Q : Conn δ ν × Except Exc α → Prop) : Prop := Q (h c)

variable {c : Conn δ ν} {Q : Conn δ ν × Except Exc α → Prop}

@[simp] theorem post_pure {a : α} : Post (pure a) c Q ↔ Q (c, .ok a) := Iff.rfl

@[simp] theorem post_raise {e : Exc} : Post (raise e) c Q ↔ Q (c, .error e) := Iff.rfl

/-- **The rule of sequence**: the second part starts where the first
returns, and does not start where it raises. -/
theorem post_bind {h : Handler δ ν β} {k : β → Handler δ ν α} :
    Post (h >>= k) c Q ↔ Post h c fun
      | (c', .ok b) => Post (k b) c' Q
      | (c', .error e) => Q (c', .error e) := by
  unfold Post
  simp only [bind]
  rcases h c with ⟨c', e | b⟩ <;> rfl

/-- The rule of a conditional. -/
theorem post_ite {p : Prop} [Decidable p] {h k : Handler δ ν α} :
    Post (if p then h else k) c Q ↔ (p → Post h c Q) ∧ (¬ p → Post k c Q) := by
  split <;> simp [*]

@[simp] theorem post_read_bind {k : δ → Handler δ ν α} :
    Post (read >>= k) c Q ↔ Post (k c.working) c Q := Iff.rfl

@[simp] theorem post_execute_bind {f : δ → δ} {k : Unit → Handler δ ν α} :
    Post (execute f >>= k) c Q ↔ Post (k ()) { c with working := f c.working } Q := Iff.rfl

@[simp] theorem post_commit_bind {k : Unit → Handler δ ν α} :
    Post (commit >>= k) c Q ↔ Post (k ()) { c with committed := c.working } Q := Iff.rfl

@[simp] theorem post_publish_bind {event : ν} {k : Unit → Handler δ ν α} :
    Post (publish event >>= k) c Q ↔
      Post (k ()) { c with published := c.published ++ [event] } Q := Iff.rfl

@[simp] theorem post_raise_bind {e : Exc} {k : β → Handler δ ν α} :
    Post (raise e >>= k) c Q ↔ Q (c, .error e) := Iff.rfl

@[simp] theorem post_pure_bind {b : β} {k : β → Handler δ ν α} :
    Post (pure b >>= k) c Q ↔ Post (k b) c Q := Iff.rfl

/-- What holds of a request's outcome holds of the handler's end. -/
theorem run_of_post {h : Handler δ ν α} {db : δ} {P : Outcome δ ν α → Prop}
    (hpost : Post h ⟨db, db, []⟩ fun end' => P (close end')) : P (h.run db) := hpost

end Handler

end ChutesApi
