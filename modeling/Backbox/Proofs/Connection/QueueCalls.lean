import Backbox.Connection.Basic

/-!
# Calls on a queue, in any order

Callers and the sessions of a connection use its queue at the same time. Each call on it is one step
under its lock, so what happens to the queue is a list of calls, those of all callers and of all
sessions in the order in which they get the lock. An account of the messages is kept beside the
queue, from the calls and their answers alone: it tells which offer a message came with, and in
which order messages left. What a connection writes at once on a session is what the session gets
call by call.
-/

namespace Backbox

/-- A call on a queue. -/
inductive QueueCall where
  | offer (message : String)
  | pushFront (message : String)
  | pushBack (message : String)
  | popFront
  | clear
  /-- A session is told the phase in which it goes on. -/
  | signal (session : Nat) (phase : SessionPhase)
  /-- A session asks for the next message. -/
  | next (session : Nat)
  deriving DecidableEq

/-- What a call on a queue gives to its caller. -/
inductive QueueAnswer where
  | done
  | offered (accepted : Bool)
  | popped (message : Option String)
  | cleared (count : Nat)
  | next (message : NextMessage)
  deriving DecidableEq

namespace QueueCall

/-- Whether a call may take messages out of the queue. -/
def takes : QueueCall → Bool
  | popFront | clear | next _ => true
  | _ => false

/-- The session that a call tells its phase, if it tells one. -/
def told : QueueCall → Option Nat
  | signal session _ => some session
  | _ => none

end QueueCall

namespace OutboundQueue

variable {q : OutboundQueue} {phase : SessionPhase}

/-- A session that is not closed gets the first message that waits. -/
theorem next_of_waits {message : String} {rest : List String}
    (waits : q.messages = message :: rest) (more : phase ≠ .closed) :
    q.next phase = (.message message, ⟨q.limit, rest⟩) := by
  obtain ⟨limit, messages⟩ := q
  obtain rfl : messages = message :: rest := waits
  cases phase with
  | closed => exact absurd rfl more
  | opened | draining => rfl

/-- Where no message waits, a session gets none, and only one that is open waits for it. -/
theorem next_of_empty (empty : q.messages = []) :
    q.next phase = (if phase = .opened then .waiting else .finished, q) := by
  obtain ⟨limit, messages⟩ := q
  obtain rfl : messages = [] := empty
  cases phase <;> rfl

end OutboundQueue

namespace QueueAnswer

/-- The message that an answer hands over, if there is one. -/
def message? : QueueAnswer → Option String
  | popped message => message
  | next (.message message) => some message
  | _ => none

/-- How many messages an answer tells to have left. -/
def removed : QueueAnswer → Nat
  | popped (some _) | next (.message _) => 1
  | cleared count => count
  | _ => 0

end QueueAnswer

/-- A queue, and the phases that its sessions were told. -/
structure SignalledQueue where
  queue : OutboundQueue
  phase : Nat → SessionPhase

namespace SignalledQueue

/-- The queue of a new connection with this limit: all sessions are still to be told anything. -/
def start (limit : Nat) : SignalledQueue := ⟨.withLimit limit, fun _ => .opened⟩

/-- The answer to a call, and what it leaves. -/
def call (s : SignalledQueue) : QueueCall → QueueAnswer × SignalledQueue
  | .offer message =>
    ((.offered (s.queue.offer message).1), { s with queue := (s.queue.offer message).2 })
  | .pushFront message => (.done, { s with queue := s.queue.pushFront message })
  | .pushBack message => (.done, { s with queue := s.queue.pushBack message })
  | .popFront => (.popped s.queue.popFront.1, { s with queue := s.queue.popFront.2 })
  | .clear => (.cleared s.queue.clear.1, { s with queue := s.queue.clear.2 })
  | .signal session phase =>
    (.done, { s with phase := fun other => if other = session then phase else s.phase other })
  | .next session =>
    (.next (s.queue.next (s.phase session)).1,
      { s with queue := (s.queue.next (s.phase session)).2 })

/-- What calls leave, made in this order. -/
def run (s : SignalledQueue) (calls : List QueueCall) : SignalledQueue :=
  calls.foldl (fun s call => (s.call call).2) s

/-- The calls that are made in this order, each with its answer. -/
def log (s : SignalledQueue) : List QueueCall → List (QueueCall × QueueAnswer)
  | [] => []
  | call :: rest => (call, (s.call call).1) :: (s.call call).2.log rest

variable {s : SignalledQueue} {session : Nat}

/-- An offer to a full queue is refused, and changes nothing. -/
theorem call_offer_of_full {message : String} (full : s.queue.limit ≤ s.queue.size) :
    s.call (.offer message) = (.offered false, s) := by
  simp [call, OutboundQueue.offer, full]

/-- An offer to a queue with room puts the message last. -/
theorem call_offer_of_room {message : String} (room : ¬ s.queue.limit ≤ s.queue.size) :
    s.call (.offer message) = (.offered true, { s with queue := s.queue.pushBack message }) := by
  simp [call, OutboundQueue.offer, OutboundQueue.pushBack, room]

/-- A session that is closed takes nothing. -/
theorem call_next_of_closed (closed : s.phase session = .closed) :
    s.call (.next session) = (.next .finished, s) := by
  simp [call, OutboundQueue.next, closed]

/-- The first message that waits is handed over to every caller that takes one, but for a session
that is closed. -/
theorem call_of_waits {message : String} {rest : List String}
    (waits : s.queue.messages = message :: rest) :
    s.call .popFront = (.popped (some message), ⟨⟨s.queue.limit, rest⟩, s.phase⟩) ∧
    ∀ session, s.phase session ≠ .closed → s.call (.next session) =
      (.next (.message message), ⟨⟨s.queue.limit, rest⟩, s.phase⟩) := by
  refine ⟨?_, fun session more => ?_⟩
  · rw [call, OutboundQueue.popFront, waits]
    rfl
  · rw [call, OutboundQueue.next_of_waits waits more]

/-- Where no message waits, none is handed over. -/
theorem call_of_empty (empty : s.queue.messages = []) : s.call .popFront = (.popped none, s) ∧
    ∀ session, s.call (.next session) =
      (.next (if s.phase session = .opened then .waiting else .finished), s) := by
  refine ⟨?_, fun session => ?_⟩
  · rw [call, OutboundQueue.popFront, empty, List.head?_nil, List.tail_nil, ← empty]
  · rw [call, OutboundQueue.next_of_empty empty]

/-- A call for one message hands over the first one, or none and changes nothing. -/
theorem call_of_takes {call : QueueCall} (takes : call.takes = true) (one : call ≠ .clear) :
    (∃ message rest, s.queue.messages = message :: rest ∧
      (s.call call).1.message? = some message ∧ (s.call call).1.removed = 1 ∧
      (s.call call).2 = ⟨⟨s.queue.limit, rest⟩, s.phase⟩) ∨
    ((s.call call).1.message? = none ∧ (s.call call).1.removed = 0 ∧ (s.call call).2 = s) := by
  cases call with
  | offer message | pushFront message | pushBack message | signal session phase => cases takes
  | clear => exact absurd rfl one
  | popFront =>
    cases waits : s.queue.messages with
    | nil =>
      rw [(call_of_empty waits).1]
      exact .inr ⟨rfl, rfl, rfl⟩
    | cons message rest =>
      rw [(call_of_waits waits).1]
      exact .inl ⟨message, rest, rfl, rfl, rfl, rfl⟩
  | next session =>
    by_cases closed : s.phase session = .closed
    · rw [call_next_of_closed closed]
      exact .inr ⟨rfl, rfl, rfl⟩
    cases waits : s.queue.messages with
    | nil =>
      rw [(call_of_empty waits).2]
      refine .inr ⟨?_, ?_, rfl⟩ <;> split <;> rfl
    | cons message rest =>
      rw [(call_of_waits waits).2 session closed]
      exact .inl ⟨message, rest, rfl, rfl, rfl, rfl⟩

/-- What a call takes out of the queue are its first messages, as many as the answer tells. -/
theorem queue_call_of_takes {call : QueueCall} (takes : call.takes = true) :
    (s.call call).2.queue =
      { s.queue with messages := s.queue.messages.drop (s.call call).1.removed } := by
  by_cases all : call = .clear
  · subst all
    simp [SignalledQueue.call, OutboundQueue.clear, OutboundQueue.size, QueueAnswer.removed]
  rcases call_of_takes takes all with ⟨message, rest, waits, -, removed, left⟩ | ⟨-, removed, left⟩
  · rw [left, removed, waits]
    rfl
  · rw [left, removed]
    rfl

end SignalledQueue

/-- A message, and the number of the accepted offer that it came with, if it came with one. -/
structure Slip where
  text : String
  ticket : Option Nat
  deriving DecidableEq

/-- The message of an accepted offer, and the number of the offer. -/
def Slip.offered? (slip : Slip) : Option (String × Nat) :=
  slip.ticket.map (slip.text, ·)

/-- What is known of messages from the calls and their answers. -/
structure QueueAccount where
  /-- The messages of offers that were accepted, in the order in which they were. -/
  accepted : List String
  /-- The messages that wait, the first one first. -/
  waiting : List Slip
  /-- The messages that left, in the order in which they did. -/
  left : List Slip
  deriving DecidableEq

namespace QueueAccount

/-- The account of a queue that nothing was put into. -/
def empty : QueueAccount := ⟨[], [], []⟩

/-- The first messages leave. -/
def take (a : QueueAccount) (count : Nat) : QueueAccount :=
  { a with waiting := a.waiting.drop count, left := a.left ++ a.waiting.take count }

/-- Keeps account of a call and its answer. -/
def note (a : QueueAccount) : QueueCall × QueueAnswer → QueueAccount
  | (.offer message, .offered true) => { a with
      accepted := a.accepted ++ [message]
      waiting := a.waiting ++ [⟨message, some a.accepted.length⟩] }
  | (.pushFront message, _) => { a with waiting := ⟨message, none⟩ :: a.waiting }
  | (.pushBack message, _) => { a with waiting := a.waiting ++ [⟨message, none⟩] }
  | (_, answer) => a.take answer.removed

/-- The account knows what waits, and the messages of accepted offers left, and will leave, in the
order in which they were accepted, each of them once. -/
structure Agrees (a : QueueAccount) (q : OutboundQueue) : Prop where
  waiting : a.waiting.map (·.text) = q.messages
  in_order : (a.left ++ a.waiting).filterMap Slip.offered? = a.accepted.zipIdx

variable {a : QueueAccount} {q : OutboundQueue}

/-- The first messages leave both. -/
theorem Agrees.take (agrees : a.Agrees q) (count : Nat) :
    (a.take count).Agrees { q with messages := q.messages.drop count } := by
  refine ⟨?_, ?_⟩
  · rw [QueueAccount.take, List.map_drop, agrees.waiting]
  · rw [QueueAccount.take, List.append_assoc, List.take_append_drop]
    exact agrees.in_order

/-- The message of an accepted offer comes last. -/
theorem Agrees.accept (agrees : a.Agrees q) (message : String) :
    (a.note (.offer message, .offered true)).Agrees (q.pushBack message) := by
  refine ⟨?_, ?_⟩
  · simp [note, OutboundQueue.pushBack, agrees.waiting]
  · simp only [note]
    rw [← List.append_assoc, List.filterMap_append, agrees.in_order, List.zipIdx_append]
    simp [Slip.offered?]

/-- A message that no offer brought comes anywhere, without changing the order of the others. -/
theorem Agrees.push (agrees : a.Agrees q) (message : String) :
    (a.note (.pushFront message, .done)).Agrees (q.pushFront message) ∧
      (a.note (.pushBack message, .done)).Agrees (q.pushBack message) := by
  have unmarked : Slip.offered? ⟨message, none⟩ = none := rfl
  have in_order := agrees.in_order
  rw [List.filterMap_append] at in_order
  refine ⟨⟨?_, ?_⟩, ?_, ?_⟩
  · simp [note, OutboundQueue.pushFront, agrees.waiting]
  · simp only [note, List.filterMap_append]
    rw [List.filterMap_cons_none unmarked, in_order]
  · simp [note, OutboundQueue.pushBack, agrees.waiting]
  · simp only [note, List.filterMap_append]
    rw [List.filterMap_cons_none unmarked, List.filterMap_nil, List.append_nil, in_order]

/-- Every call keeps the account in agreement with the queue. -/
theorem Agrees.call {s : SignalledQueue} (agrees : a.Agrees s.queue) (call : QueueCall) :
    (a.note (call, (s.call call).1)).Agrees (s.call call).2.queue := by
  cases call with
  | offer message =>
    by_cases full : s.queue.limit ≤ s.queue.size
    · rw [SignalledQueue.call_offer_of_full full]
      exact agrees.take 0
    · rw [SignalledQueue.call_offer_of_room full]
      exact agrees.accept message
  | pushFront message => exact (agrees.push message).1
  | pushBack message => exact (agrees.push message).2
  | signal session phase => exact agrees.take 0
  | popFront | clear | next session =>
    rw [SignalledQueue.queue_call_of_takes rfl]
    exact agrees.take _

/-- Calls that are made one after the other keep the account in agreement with the queue. -/
theorem Agrees.run {s : SignalledQueue} (agrees : a.Agrees s.queue) (calls : List QueueCall) :
    ((s.log calls).foldl note a).Agrees (s.run calls).queue := by
  induction calls generalizing s a with
  | nil => exact agrees
  | cons call rest ih => exact ih (agrees.call call)

/-- A call that takes nothing leaves what left as it is. -/
theorem left_note {call : QueueCall} (keeps : call.takes = false) (s : SignalledQueue) :
    (a.note (call, (s.call call).1)).left = a.left := by
  cases call with
  | popFront | clear | next session => cases keeps
  | pushFront message | pushBack message => rfl
  | signal session phase => exact List.append_nil _
  | offer message =>
    by_cases full : s.queue.limit ≤ s.queue.size
    · rw [SignalledQueue.call_offer_of_full full]
      exact List.append_nil _
    · rw [SignalledQueue.call_offer_of_room full]
      rfl

end QueueAccount

namespace SignalledQueue

variable {s : SignalledQueue} {session : Nat}

end SignalledQueue

/-- A session that asks for one message after the other gets, until it gets none, all that it may
take at once, and leaves what is left then. -/
theorem SignalledQueue.log_takeAll (s : SignalledQueue) (session : Nat) :
    let all := s.queue.takeAll (s.phase session)
    let calls := List.replicate all.1.length (.next session)
    s.log calls = all.1.map (fun message => (.next session, .next (.message message))) ∧
      s.run calls = { s with queue := all.2 } ∧
      ((s.run calls).call (.next session)).1.message? = none := by
  intro all calls
  by_cases closed : s.phase session = .closed
  · have nothing : all = ([], s.queue) := by simp only [all, closed, OutboundQueue.takeAll]
    simp only [calls, nothing]
    refine ⟨rfl, rfl, ?_⟩
    exact congrArg (·.1.message?) (call_next_of_closed closed)
  obtain ⟨⟨limit, messages⟩, phase⟩ := s
  induction messages with
  | nil =>
    have nothing : all = ([], ⟨limit, []⟩) := by
      simp only [all]
      cases told : phase session with
      | closed => exact absurd told closed
      | opened | draining => rfl
    simp only [calls, nothing]
    refine ⟨rfl, rfl, ?_⟩
    have none := (call_of_empty (s := ⟨⟨limit, []⟩, phase⟩) rfl).2 session
    refine (congrArg (·.1.message?) none).trans ?_
    simp only
    split <;> rfl
  | cons message rest ih =>
    have waits : (OutboundQueue.mk limit (message :: rest)).messages = message :: rest := rfl
    have first := (call_of_waits (s := ⟨⟨limit, message :: rest⟩, phase⟩) waits).2 session closed
    have taken := OutboundQueue.takeAll_of_next (OutboundQueue.next_of_waits waits closed)
    obtain ⟨told, left, none⟩ := ih closed
    simp only [calls, all, taken, List.length_cons, List.replicate_succ]
    refine ⟨?_, ?_, ?_⟩
    · rw [log, first, told]
      rfl
    · rw [run, List.foldl_cons, first]
      exact left
    · rw [run, List.foldl_cons, first]
      exact none

/-- What a connection writes on a session is what the session gets from the queue, one message after
the other until there is none for it. -/
theorem Connection.write_eq_log (c : Connection) (session : Session) (phase : SessionPhase)
    (h : History) :
    let s : SignalledQueue := ⟨c.queue, fun _ => phase⟩
    ∃ count, let calls := List.replicate count (.next session.id)
      c.write session phase h = ({ c with queue := (s.run calls).queue },
        h.recordAll (((s.log calls).filterMap (·.2.message?)).map (.wrote session.id))) ∧
      ((s.run calls).call (.next session.id)).1.message? = none := by
  intro s
  obtain ⟨told, left, none⟩ := s.log_takeAll session.id
  refine ⟨_, ?_, none⟩
  have all (messages : List String) : messages.filterMap
      ((fun entry : QueueCall × QueueAnswer => entry.2.message?) ∘
        fun message => (.next session.id, .next (.message message))) = messages :=
    List.filterMap_some
  rw [told, left, List.filterMap_map, all]
  rfl

end Backbox
