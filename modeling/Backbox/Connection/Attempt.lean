import Backbox.Connection.Basic

/-!
# Reaching a peer

An attempt is due when there is no session, the peer has not departed, the connection is
neither given up nor closed, attempts are left, and the retry delay since the last failure
is over. The attempt that uses up the limit gives the connection up. When an attempt of a
required connection fails, the host is asked to shut down.
-/

namespace Backbox.Connection

/-- Gives the connection up: no attempt is left, and what waits is dropped. -/
def giveUp (c : Connection) : Connection := { c.dropQueue with state := .givingUp }

/-- Whether the retry delay since the last failure is still running. -/
def isWaiting (c : Connection) (now : Nat) : Bool :=
  match c.lastFailure with
  | some failedAt => now - failedAt < c.settings.retryDelayMs.toNat
  | none => false

/-- Whether the connection stays as it is whatever its attempts: it has a session, its
peer departed, or it is given up or closed. -/
def isSettled (c : Connection) : Bool := c.session.isSome || !c.isAvailable

/-- The number of attempts after one more; it stays at the largest count. -/
def nextAttempt (made : Nat) : Nat := min (made + 1) AttemptLimit.maxCount

/-- Begins a session with its greeting ahead of everything that waits. -/
def openSession (c : Connection) (id : Nat) : Connection :=
  { c with
    state := .connected
    attemptsMade := 0
    owesGoodbye := true
    lastFailure := none
    session := some ⟨id, .new⟩
    queue := c.queue.pushFront (Command.hello protocolVersion).toWire }

/-- Takes note of a failed attempt. -/
def fail (c : Connection) (now : Nat) : Connection :=
  let made := nextAttempt c.attemptsMade
  let failed := { c with attemptsMade := made, state := .connecting, lastFailure := some now }
  if c.settings.attempts.isExhausted made then failed.giveUp else failed

/-- Tries to reach the peer if an attempt is due. -/
def attempt (c : Connection) (h : History) : Connection × History :=
  if c.isSettled then (c, h)
  else if c.settings.attempts.isExhausted c.attemptsMade then (c.giveUp, h)
  else if c.isWaiting h.now then (c, h)
  else
    let (session, h) := h.dial c.connector c.name c.settings
    match session with
    | some id => (c.openSession id, h)
    | none => (c.fail h.now, if c.settings.required then h.requestShutdown else h)

/-- Tries to reach the peer if an attempt is due, and writes what waits. -/
def connect (c : Connection) (h : History) : Connection × History :=
  let (c, h) := c.attempt h
  c.flush h

/-- Accepts a message unless the peer can never be reached again or the queue is full;
tells whether it did. -/
def accept (c : Connection) (message : String) (h : History) : Bool × Connection × History :=
  if c.isAvailable then
    let (accepted, queue) := c.queue.offer message
    (accepted, { c with queue := queue },
      if accepted then h.record (.accepted c.name message) else h)
  else (false, c, h)

/-- Sends a message: tries to reach the peer if an attempt is due, queues the message and
writes what waits. Tells whether the message was accepted. -/
def send (c : Connection) (message : String) (h : History) : Bool × Connection × History :=
  let (c, h) := c.attempt h
  let (accepted, c, h) := c.accept message h
  let (c, h) := c.flush h
  (accepted, c, h)

end Backbox.Connection
