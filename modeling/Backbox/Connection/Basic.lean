import Backbox.Command.Catalog
import Backbox.Command.Wire
import Backbox.Connection.Queue
import Backbox.History
import Backbox.Line.Framer

/-!
# Connections

A connection is a persistent link to one peer. It has at most one session at a time; a
session begins when an attempt to reach the peer succeeds, and its greeting is the first
line the peer sees.
-/

namespace Backbox

/-- Where a connection is in its life. -/
inductive ConnectionState where
  /-- No session, and no attempt since the last one ended. -/
  | disconnected
  /-- The last attempt failed, and more are allowed. -/
  | connecting
  /-- There is a session. -/
  | connected
  /-- The attempts are used up. -/
  | givingUp
  /-- The engine was shut down. -/
  | closed
  deriving DecidableEq, Inhabited

namespace ConnectionState

/-- The state as text for a reader. -/
def label : ConnectionState → String
  | disconnected => "disconnected"
  | connecting => "connecting"
  | connected => "connected"
  | givingUp => "giving_up"
  | closed => "closed"

/-- Whether no attempt is ever made again. -/
def isTerminal : ConnectionState → Bool
  | givingUp | closed => true
  | disconnected | connecting | connected => false

end ConnectionState

/-- A session: its number, and the unfinished line that the peer has sent on it. -/
structure Session where
  id : Nat
  framer : Framer

/-- A persistent link to one peer. -/
structure Connection where
  name : String
  settings : ConnectionSettings
  connector : Connector
  state : ConnectionState
  /-- Attempts since the last one that succeeded. -/
  attemptsMade : Nat
  /-- Whether ending the session says goodbye first. -/
  owesGoodbye : Bool
  /-- Whether the peer said goodbye. -/
  departed : Bool
  /-- When the last attempt failed, unless one succeeded since. -/
  lastFailure : Option Nat
  session : Option Session
  queue : OutboundQueue

/-- A view of a connection at one moment. -/
structure ConnectionStatus where
  name : String
  endpoint : String
  state : ConnectionState
  attemptsMade : Nat
  attemptLimit : AttemptLimit
  socketPresent : Bool
  owesGoodbye : Bool
  queuedMessages : Nat

namespace Connection

/-- A connection that has not been tried yet. -/
def new (name : String) (settings : ConnectionSettings) (connector : Connector) : Connection :=
  ⟨name, settings, connector, .disconnected, 0, false, false, none, none, .new⟩

/-- The view of a connection as it is now. -/
def status (c : Connection) : ConnectionStatus :=
  ⟨c.name, c.settings.endpoint, c.state, c.attemptsMade, c.settings.attempts,
    c.session.isSome, c.owesGoodbye, c.queue.size⟩

/-- Whether the peer can be reached, now or later. -/
def isAvailable (c : Connection) : Bool := !c.departed && !c.state.isTerminal

/-- Writes on a session what it may take from the queue in this phase. -/
def write (c : Connection) (session : Session) (phase : SessionPhase) (h : History) :
    Connection × History :=
  let (messages, queue) := c.queue.takeAll phase
  ({ c with queue := queue }, h.recordAll (messages.map (.wrote session.id)))

/-- Writes what waits on the session, if there is one. -/
def flush (c : Connection) (h : History) : Connection × History :=
  match c.session with
  | some session => c.write session .opened h
  | none => (c, h)

/-- Ends the session, if there is one: says goodbye if it is owed, after everything that
waits, and closes. Whatever else the state is, `connected` becomes `disconnected`. -/
def endSession (c : Connection) (cause : SessionEnd) (h : History) : Connection × History :=
  match c.session with
  | none => (c, h)
  | some session =>
    let ended := { c with
      session := none
      owesGoodbye := false
      state := if c.state = .connected then .disconnected else c.state }
    let (ended, h) :=
      if c.owesGoodbye then
        { ended with queue := ended.queue.pushBack Command.goodbye.toWire }.write session .draining h
      else (ended, h)
    (ended, h.record (.closed session.id cause))

/-- Drops everything that waits to be written. -/
def dropQueue (c : Connection) : Connection := { c with queue := c.queue.clear.2 }

/-- Closes the connection for good, saying goodbye to a live peer. -/
def close (c : Connection) (h : History) : Connection × History :=
  let (c, h) := { c with state := .closed }.endSession .shutdown h
  (c.dropQueue, h)

/-- The session ended on its own: the peer closed it, or what it sent could not be cut
into lines. No goodbye is said, and what waits stays in the queue. -/
def loseSession (c : Connection) (cause : SessionEnd) (h : History) : Connection × History :=
  { c with owesGoodbye := false }.endSession cause h

end Connection

end Backbox
