import Backbox.Connection.Receive
import Backbox.Proofs.Connection.Attempt

/-!
# The life of a connection, step by step

Whatever is done to a connection is done in a few kinds of steps, each with the entries it
adds to the journal. The lifecycle relates the fields that these steps change piecemeal:
state, session, attempts, owed goodbye, departure and queue.
-/

namespace Backbox.Connection

/-- How the fields of a connection hang together while nothing is being done to it. -/
structure Lifecycle (c : Connection) : Prop where
  live_iff : c.session.isSome ↔ c.state = .connected
  owes_iff : c.session.isSome ↔ c.owesGoodbye
  /-- A connection whose peer said goodbye has no session, and nothing waits. -/
  departed : c.departed → c.session = none ∧ c.queue.messages = []
  /-- Attempts are counted only while they fail. -/
  rested : c.state = .connected ∨ c.state = .disconnected → c.attemptsMade = 0
  /-- While attempts fail, one was made at least, and one is left at least. -/
  trying : c.state = .connecting → 1 ≤ c.attemptsMade ∧
    ∀ n, c.settings.attempts = .bounded n → c.attemptsMade < n.toNat
  /-- A connection is given up when all attempts that it may make are made. -/
  gaveUp : c.state = .givingUp →
    (∃ n, c.settings.attempts = .bounded n ∧ c.attemptsMade = n.toNat) ∧
      c.session = none ∧ c.queue.messages = [] ∧ c.departed = false
  closed : c.state = .closed → c.session = none ∧ c.queue.messages = []

/-- A connection that has not been tried yet is as it should be. -/
theorem lifecycle_new (name : String) (settings : ConnectionSettings) (connector : Connector) :
    (new name settings connector).Lifecycle where
  live_iff := ⟨fun h => absurd h Bool.false_ne_true, fun h => by cases h⟩
  owes_iff := Iff.rfl
  departed h := absurd h Bool.false_ne_true
  rested _ := rfl
  trying h := by cases h
  gaveUp h := by cases h
  closed h := by cases h

namespace Lifecycle

variable {c : Connection} {s : Session}

/-- With a session, the state is connected. -/
theorem connected (sound : c.Lifecycle) (live : c.session = some s) : c.state = .connected :=
  sound.live_iff.mp (by rw [live]; rfl)

/-- With a session, a goodbye is owed. -/
theorem owes (sound : c.Lifecycle) (live : c.session = some s) : c.owesGoodbye = true :=
  sound.owes_iff.mp (by rw [live]; rfl)

/-- Without a session, no goodbye is owed. -/
theorem owes_idle (sound : c.Lifecycle) (idle : c.session = none) : c.owesGoodbye = false := by
  rw [← Bool.not_eq_true, ← sound.owes_iff, idle]
  exact Bool.false_ne_true

/-- With a session, the peer has not departed. -/
theorem stays (sound : c.Lifecycle) (live : c.session = some s) : c.departed = false := by
  rw [← Bool.not_eq_true]
  intro gone
  rw [(sound.departed gone).1] at live
  cases live

end Lifecycle

/-- One thing that is done to a connection: the entries it adds to the journal, and the
connection and the history after it. -/
inductive Step (c : Connection) (h : History) : List Effect → Connection → History → Prop where
  /-- No attempt is left. -/
  | gaveUp (unsettled : c.isSettled = false)
      (exhausted : c.settings.attempts.isExhausted c.attemptsMade = true) :
    Step c h [] c.giveUp h
  /-- The peer was not reached, and the host may be asked to shut down. -/
  | failed {h' : History} (now : Nat) (calls : List HostCall) (unsettled : c.isSettled = false)
      (left : c.settings.attempts.isExhausted c.attemptsMade = false)
      (on : h.GoesOn (.dialled ⟨c.name, c.settings, none⟩ :: calls.map .host) h') :
    Step c h (.dialled ⟨c.name, c.settings, none⟩ :: calls.map .host) (c.fail now) h'
  /-- The peer was reached. -/
  | opened {h' : History} (unsettled : c.isSettled = false)
      (left : c.settings.attempts.isExhausted c.attemptsMade = false)
      (on : h.GoesOn [.dialled ⟨c.name, c.settings, some h.sessions⟩] h') :
    Step c h [.dialled ⟨c.name, c.settings, some h.sessions⟩] (c.openSession h.sessions) h'
  /-- A caller's message was put last. -/
  | accepted {h' : History} (message : String) (available : c.isAvailable = true)
      (on : h.GoesOn [.accepted c.name message] h') :
    Step c h [.accepted c.name message] { c with queue := c.queue.pushBack message } h'
  /-- What waited was written. -/
  | flushed {h' : History} (s : Session) (live : c.session = some s)
      (on : h.GoesOn (c.queue.messages.map (.wrote s.id)) h') :
    Step c h (c.queue.messages.map (.wrote s.id)) c.dropQueue h'
  /-- The engine was shut down while there was no session. -/
  | closedIdle (idle : c.session = none) :
    Step c h [] { c.dropQueue with state := .closed } h
  /-- The engine was shut down during a session. -/
  | closedLive {h' : History} (s : Session) (live : c.session = some s)
      (on : h.GoesOn ((c.queue.messages ++ [Command.goodbye.toWire]).map (.wrote s.id) ++
        [.closed s.id .shutdown]) h') :
    Step c h ((c.queue.messages ++ [Command.goodbye.toWire]).map (.wrote s.id) ++
      [.closed s.id .shutdown])
      { c.dropQueue with session := none, owesGoodbye := false, state := .closed } h'
  /-- The session ended, but not by a goodbye. -/
  | lost {h' : History} (s : Session) (cause : SessionEnd) (live : c.session = some s)
      (flushed : c.queue.messages = []) (unasked : cause = .lost ∨ cause = .overlong)
      (on : h.GoesOn [.closed s.id cause] h') :
    Step c h [.closed s.id cause]
      { c with session := none, owesGoodbye := false, state := .disconnected } h'
  /-- The peer said goodbye, and the host may be asked to shut down. -/
  | departed {h' : History} (s : Session) (calls : List HostCall) (live : c.session = some s)
      (flushed : c.queue.messages = [])
      (on : h.GoesOn (.closed s.id .farewell :: calls.map .host) h') :
    Step c h (.closed s.id .farewell :: calls.map .host)
      { c.dropQueue with
        session := none, owesGoodbye := false, state := .disconnected, departed := true } h'
  /-- Bytes were read. -/
  | heard {h' : History} (s : Session) (framer : Framer) (bytes : Bytes)
      (live : c.session = some s) (on : h.GoesOn [.read s.id bytes] h') :
    Step c h [.read s.id bytes] { c with session := some ⟨s.id, framer⟩ } h'
  /-- A display frame was handed on. -/
  | framed {h' : History} (s : Session) (payload : Bytes) (live : c.session = some s)
      (on : h.GoesOn [.framed s.id payload] h') :
    Step c h [.framed s.id payload] c h'

/-- A connection without a session, whose peer neither departed nor is given up or closed. -/
theorem unsettled_iff {c : Connection} :
    c.isSettled = false ↔
      c.session = none ∧ c.departed = false ∧ c.state ≠ .givingUp ∧ c.state ≠ .closed := by
  rw [isSettled, isAvailable]
  cases c.session <;> cases c.departed <;> cases c.state <;>
    simp [ConnectionState.isTerminal]

/-- A connection can be reached, now or later, unless its peer departed or it is given up or
closed. -/
theorem isAvailable_iff {c : Connection} :
    c.isAvailable = true ↔
      c.departed = false ∧ c.state ≠ .givingUp ∧ c.state ≠ .closed := by
  rw [isAvailable]
  cases c.departed <;> cases c.state <;> simp [ConnectionState.isTerminal]

/-- A connection that is closed is never reached again. -/
theorem isAvailable_of_closed {c : Connection} (h : c.state = .closed) :
    c.isAvailable = false := by
  simp [isAvailable, h, ConnectionState.isTerminal]

-- An attempt limit that is used up is reached, as no attempt goes beyond it.
private theorem Lifecycle.exhausted {c : Connection} (h : c.Lifecycle)
    (unsettled : c.isSettled = false)
    (exhausted : c.settings.attempts.isExhausted c.attemptsMade = true) :
    ∃ n, c.settings.attempts = .bounded n ∧ c.attemptsMade = n.toNat := by
  obtain ⟨idle, -, ready, still⟩ := unsettled_iff.mp unsettled
  cases hl : c.settings.attempts with
  | unbounded =>
    rw [hl] at exhausted
    cases exhausted
  | bounded n =>
    rw [hl, AttemptLimit.isExhausted, decide_eq_true_eq] at exhausted
    refine ⟨n, rfl, ?_⟩
    cases hs : c.state with
    | connecting =>
      have := (h.trying hs).2 n hl
      omega
    | disconnected =>
      have := h.rested (.inr hs)
      omega
    | connected =>
      have := h.rested (.inl hs)
      omega
    | givingUp => exact absurd hs ready
    | closed => exact absurd hs still

private theorem Lifecycle.giveUp {c : Connection} (idle : c.session = none)
    (owes : c.owesGoodbye = false) (stays : c.departed = false)
    (spent : ∃ n, c.settings.attempts = .bounded n ∧ c.attemptsMade = n.toNat) :
    c.giveUp.Lifecycle where
  live_iff := by simp [Connection.giveUp, dropQueue, idle]
  owes_iff := by simp [Connection.giveUp, dropQueue, idle, owes]
  departed h := absurd h (by simp [Connection.giveUp, dropQueue, stays])
  rested h := by simp [Connection.giveUp] at h
  trying h := by simp [Connection.giveUp] at h
  gaveUp _ := ⟨spent, idle, rfl, stays⟩
  closed h := by simp [Connection.giveUp] at h

private theorem Lifecycle.fail {c : Connection} (h : c.Lifecycle)
    (unsettled : c.isSettled = false)
    (left : c.settings.attempts.isExhausted c.attemptsMade = false) (now : Nat) :
    (c.fail now).Lifecycle := by
  obtain ⟨idle, stays, -, -⟩ := unsettled_iff.mp unsettled
  have owes := h.owes_idle idle
  have made : 1 ≤ nextAttempt c.attemptsMade ∧
      nextAttempt c.attemptsMade ≤ c.attemptsMade + 1 := by
    simp only [nextAttempt, AttemptLimit.maxCount]
    omega
  simp only [Connection.fail]
  split
  · next exhausted =>
    refine Lifecycle.giveUp idle owes stays ?_
    cases hl : c.settings.attempts with
    | unbounded =>
      simp only [hl] at exhausted
      cases exhausted
    | bounded n =>
      simp only [hl, AttemptLimit.isExhausted, decide_eq_true_eq, decide_eq_false_iff_not]
        at exhausted left
      refine ⟨n, rfl, ?_⟩
      change nextAttempt c.attemptsMade = n.toNat
      omega
  · next more =>
    constructor
    · simp [idle]
    · simp [idle, owes]
    · intro gone
      rw [stays] at gone
      cases gone
    · simp
    · refine fun _ => ⟨made.1, fun n hn => ?_⟩
      change c.settings.attempts = .bounded n at hn
      change nextAttempt c.attemptsMade < n.toNat
      rw [hn, AttemptLimit.isExhausted, decide_eq_true_eq] at more
      omega
    · simp
    · simp

/-- Every step keeps the lifecycle. -/
theorem Step.lifecycle {c c' : Connection} {h h' : History} {es : List Effect}
    (step : c.Step h es c' h') (sound : c.Lifecycle) : c'.Lifecycle := by
  cases step with
  | gaveUp unsettled exhausted =>
    obtain ⟨idle, stays, -, -⟩ := unsettled_iff.mp unsettled
    have owes := sound.owes_idle idle
    exact Lifecycle.giveUp idle owes stays (sound.exhausted unsettled exhausted)
  | failed now calls unsettled left on => exact sound.fail unsettled left now
  | opened unsettled left on =>
    obtain ⟨-, stays, -, -⟩ := unsettled_iff.mp unsettled
    constructor
    · simp [openSession]
    · simp [openSession]
    · simp [openSession, stays]
    · simp [openSession]
    · simp [openSession]
    · simp [openSession]
    · simp [openSession]
  | accepted message available on =>
    obtain ⟨stays, ready, still⟩ := isAvailable_iff.mp available
    exact ⟨sound.live_iff, sound.owes_iff, fun gone => absurd (stays ▸ gone) Bool.false_ne_true,
      sound.rested, sound.trying, fun past => absurd past ready, fun past => absurd past still⟩
  | flushed s live on =>
    exact ⟨sound.live_iff, sound.owes_iff, fun gone => ⟨(sound.departed gone).1, rfl⟩,
      sound.rested, sound.trying, fun past => have ⟨spent, idle, _, stays⟩ := sound.gaveUp past
        ⟨spent, idle, rfl, stays⟩, fun past => ⟨(sound.closed past).1, rfl⟩⟩
  | closedIdle idle =>
    have owes := sound.owes_idle idle
    refine ⟨?_, ?_, fun _ => ⟨idle, rfl⟩, ?_, ?_, ?_, fun _ => ⟨idle, rfl⟩⟩
    · simp [dropQueue, idle]
    · simp [dropQueue, idle, owes]
    · simp
    · simp
    · simp
  | closedLive s live on =>
    refine ⟨?_, ?_, fun _ => ⟨rfl, rfl⟩, ?_, ?_, ?_, fun _ => ⟨rfl, rfl⟩⟩
    · simp
    · simp
    · simp
    · simp
    · simp
  | lost s cause live flushed unasked on =>
    have rested := sound.rested (.inl (sound.connected live))
    refine ⟨?_, ?_, fun _ => ⟨rfl, flushed⟩, fun _ => rested, ?_, ?_, ?_⟩
    · simp
    · simp
    · simp
    · simp
    · simp
  | departed s calls live flushed on =>
    have rested := sound.rested (.inl (sound.connected live))
    refine ⟨?_, ?_, fun _ => ⟨rfl, rfl⟩, fun _ => rested, ?_, ?_, ?_⟩
    · simp
    · simp
    · simp
    · simp
    · simp
  | heard s framer bytes live on =>
    have connected := sound.connected live
    refine ⟨?_, ?_, ?_, sound.rested, sound.trying, ?_, ?_⟩
    · simp [connected]
    · simp [sound.owes live]
    · simp [sound.stays live]
    · simp [connected]
    · simp [connected]
  | framed s payload live on => exact sound

end Backbox.Connection
