/-!
# Outbound queues

The messages of a connection that wait to be written. The queue outlives sessions, so
that what is sent while no session exists goes out once there is one. Callers append at
the back, up to a limit; the greeting and the farewell of a session are put at the front
and at the back whatever the limit. A session takes messages from the front, as long as
its phase lets it.
-/

namespace Backbox

/-- How the session that takes messages from a queue behaves. -/
inductive SessionPhase where
  /-- Takes messages as they come. -/
  | opened
  /-- Takes what there is and ends. -/
  | draining
  /-- Takes nothing any more. -/
  | closed
  deriving DecidableEq, Inhabited

/-- Messages waiting to be written, and how many a caller may make it. -/
structure OutboundQueue where
  limit : Nat
  messages : List String
  deriving DecidableEq

/-- What a session gets when it asks a queue for the next message. -/
inductive NextMessage where
  | message (text : String)
  /-- Nothing yet: the session waits. -/
  | waiting
  /-- Nothing any more: the session ends. -/
  | finished
  deriving DecidableEq

namespace OutboundQueue

/-- The most messages that callers may have waiting on a connection. -/
def pendingLimit : Nat := 4096

/-- An empty queue with a limit. -/
def withLimit (limit : Nat) : OutboundQueue := ⟨limit, []⟩

/-- The empty queue of a new connection. -/
def new : OutboundQueue := withLimit pendingLimit

/-- The number of waiting messages. -/
def size (q : OutboundQueue) : Nat := q.messages.length

/-- Appends a caller's message, unless the queue is full; tells whether it did. -/
def offer (q : OutboundQueue) (message : String) : Bool × OutboundQueue :=
  if q.limit ≤ q.size then (false, q)
  else (true, { q with messages := q.messages ++ [message] })

/-- Puts a message last. -/
def pushBack (q : OutboundQueue) (message : String) : OutboundQueue :=
  { q with messages := q.messages ++ [message] }

/-- Puts a message first. -/
def pushFront (q : OutboundQueue) (message : String) : OutboundQueue :=
  { q with messages := message :: q.messages }

/-- Takes the first message, if there is one. -/
def popFront (q : OutboundQueue) : Option String × OutboundQueue :=
  (q.messages.head?, { q with messages := q.messages.tail })

/-- Drops every message; tells how many there were. -/
def clear (q : OutboundQueue) : Nat × OutboundQueue :=
  (q.size, { q with messages := [] })

/-- What a session in this phase gets next, and the queue after it. -/
def next (q : OutboundQueue) (phase : SessionPhase) : NextMessage × OutboundQueue :=
  match phase, q.messages with
  | .closed, _ => (.finished, q)
  | _, message :: rest => (.message message, { q with messages := rest })
  | .draining, [] => (.finished, q)
  | .opened, [] => (.waiting, q)

/-- Everything that a session in this phase gets before it waits or ends, and the queue
after it. -/
def takeAll (q : OutboundQueue) (phase : SessionPhase) : List String × OutboundQueue :=
  match phase with
  | .closed => ([], q)
  | _ => (q.messages, { q with messages := [] })

/-- Taking everything is taking the next message until there is none. -/
theorem takeAll_of_next {q rest : OutboundQueue} {phase : SessionPhase} {message : String}
    (h : q.next phase = (.message message, rest)) :
    q.takeAll phase = (message :: (rest.takeAll phase).1, (rest.takeAll phase).2) := by
  obtain ⟨limit, messages⟩ := q
  match phase, messages with
  | .closed, _ => simp [next] at h
  | .opened, [] => simp [next] at h
  | .draining, [] => simp [next] at h
  | .opened, first :: later =>
    obtain ⟨rfl, rfl⟩ : first = message ∧ ⟨limit, later⟩ = rest := by simpa [next] using h
    rfl
  | .draining, first :: later =>
    obtain ⟨rfl, rfl⟩ : first = message ∧ ⟨limit, later⟩ = rest := by simpa [next] using h
    rfl

end OutboundQueue

end Backbox
