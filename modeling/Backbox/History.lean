import Backbox.Command.Basic
import Backbox.Settings.Connection
import Backbox.Text.Utf8

/-!
# What has happened

The part of an engine that all its connections share: the time, the attempts to reach
peers, the request for shutdown, and a journal of everything that was done, the newest
entry first. The host is asked to shut down at most once.
-/

namespace Backbox

/-- An attempt to reach a peer, and the number of the session that it opened. -/
structure Dial where
  connection : String
  settings : ConnectionSettings
  session : Option Nat

/-- How peers are reached: whether an attempt opens a session, given the attempts before
it, the newest first, the connection's name and its settings. -/
abbrev Connector := List Dial → String → ConnectionSettings → Bool

/-- What a handler notes about its own work. -/
inductive Note where
  /-- It was called with a command. -/
  | handled (handler : String) (command : Command)
  /-- It sent an answer, and so many connections accepted it. -/
  | acknowledged (accepted : Nat)
  /-- An event that it posted was completed. -/
  | completed
  deriving DecidableEq

/-- What the host is told. -/
inductive HostCall where
  /-- An event happened; `awaited` when something follows its completion. -/
  | post (event : String) (fields : Params) (awaited : Bool)
  | setSwitch (name : String) (active logical : Bool)
  | applyFrame (payload : Bytes)
  | requestShutdown
  | note (note : Note)
  deriving DecidableEq

/-- Why a session ended. -/
inductive SessionEnd where
  /-- The engine was shut down. -/
  | shutdown
  /-- The peer said goodbye. -/
  | farewell
  /-- The peer closed the session. -/
  | lost
  /-- What the peer sent could not be cut into lines. -/
  | overlong
  deriving DecidableEq

/-- One entry of the journal. -/
inductive Effect where
  /-- A connection was added. -/
  | configured (connection : String)
  /-- A connection was removed. -/
  | left (connection : String)
  /-- A peer was dialled. -/
  | dialled (dial : Dial)
  /-- A connection accepted a caller's message. -/
  | accepted (connection message : String)
  /-- A line was written on a session, followed by a line-feed. -/
  | wrote (session : Nat) (line : String)
  /-- The engine closed its end of a session. -/
  | closed (session : Nat) (cause : SessionEnd)
  /-- Bytes were read on a session. -/
  | read (session : Nat) (bytes : Bytes)
  /-- A command of a connection was dispatched. -/
  | dispatched (connection : String) (command : Command)
  /-- The host was given a display frame that arrived on a session. -/
  | framed (session : Nat) (payload : Bytes)
  /-- The host was told something else. -/
  | host (call : HostCall)

/-- What has happened so far. -/
structure History where
  /-- The time, in milliseconds. -/
  now : Nat
  /-- The attempts to reach peers, the newest first. -/
  dials : List Dial
  /-- How many sessions were opened; the next one gets this number. -/
  sessions : Nat
  /-- Whether the host was asked to shut down. -/
  shutdownRequested : Bool
  /-- What was done, the newest entry first. -/
  journal : List Effect

namespace History

/-- Nothing has happened. -/
def start : History := ⟨0, [], 0, false, []⟩

/-- Adds an entry to the journal. -/
def record (h : History) (e : Effect) : History := { h with journal := e :: h.journal }

/-- Adds entries to the journal, in their order. -/
def recordAll (h : History) (es : List Effect) : History := es.foldl record h

/-- Tells the host something. -/
def tell (h : History) (call : HostCall) : History := h.record (.host call)

/-- Asks the host to shut down, unless it was asked before. -/
def requestShutdown (h : History) : History :=
  if h.shutdownRequested then h
  else { h with shutdownRequested := true }.tell .requestShutdown

/-- Dials a peer: the number of the session it opens, if it does. -/
def dial (h : History) (connector : Connector) (connection : String)
    (settings : ConnectionSettings) : Option Nat × History :=
  let opened := connector h.dials connection settings
  let session := if opened then some h.sessions else none
  let dial : Dial := ⟨connection, settings, session⟩
  (session,
    { h with
      dials := dial :: h.dials
      sessions := if opened then h.sessions + 1 else h.sessions }.record (.dialled dial))

/-- The number of the session that was opened last, to this host if one is named. -/
def lastSession? (h : History) (host : Option String) : Option Nat :=
  h.dials.findSome? fun d =>
    if host.all (d.settings.host = ·) then d.session else none

end History

end Backbox
