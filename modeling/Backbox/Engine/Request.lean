import Backbox.Engine.Dispatch

/-!
# Requests to an engine

Everything that can happen to an engine, from the host's side and from the peers', as one
type, with the answer that each gives.
-/

namespace Backbox

/-- Something that happens to an engine. -/
inductive Request where
  | configure (batch : List (String × ConnectionSettings))
  | start
  | send (command : Command)
  | sendMapped (event : String) (fields player : Params)
  | changePlayerVariable (name value prevValue change : String)
  | poll (bound : Nat)
  | register (name : String) (handler : Handler)
  /-- The host completes the pending event at a place. -/
  | complete (index : Nat)
  /-- Bytes arrive on a session. -/
  | receive (session : Nat) (bytes : Bytes)
  /-- The peer closes a session. -/
  | loseSession (session : Nat)
  | wait (milliseconds : Nat)
  | shutdown

/-- The answer to a request. -/
inductive Reply where
  | done
  | refused (fault : EngineFault)
  /-- So many connections accepted a command, or so many commands were dispatched. -/
  | count (n : Nat)
  /-- Whether there was something to tell the peers. -/
  | told (sent : Bool)
  /-- The event of this name was completed. -/
  | completed (event : String)
  /-- There is no such pending event. -/
  | noEvent
  /-- A poll went beyond its bound. -/
  | unfinished
  deriving DecidableEq

namespace Engine

/-- The answer and the engine after a request that may be refused. -/
def orRefuse (e : Engine) : Except EngineFault Engine → Reply × Engine
  | .ok e => (.done, e)
  | .error fault => (.refused fault, e)

/-- The answer to a request, and the engine after it. -/
def handle (e : Engine) : Request → Reply × Engine
  | .configure batch => e.orRefuse (e.configure batch)
  | .start => e.orRefuse e.start
  | .send command => let (count, e) := e.send command; (.count count, e)
  | .sendMapped event fields player =>
    let (sent, e) := e.sendMapped event fields player
    (.told sent, e)
  | .changePlayerVariable name value prevValue change =>
    let (sent, e) := e.changePlayerVariable name value prevValue change
    (.told sent, e)
  | .poll bound =>
    match e.poll bound with
    | some (count, e) => (.count count, e)
    | none => (.unfinished, e)
  | .register name handler => e.orRefuse (e.register name handler)
  | .complete index =>
    match e.complete index with
    | some (event, e) => (.completed event, e)
    | none => (.noEvent, e)
  | .receive session bytes => (.done, e.receive session bytes)
  | .loseSession session => (.done, e.loseSession session)
  | .wait milliseconds => (.done, e.wait milliseconds)
  | .shutdown => (.done, e.shutdown)

/-- The engine after a sequence of requests. -/
def run (e : Engine) (requests : List Request) : Engine :=
  requests.foldl (fun e request => (e.handle request).2) e

/-- The journal since it was last taken, in order, and the engine with an empty one. -/
def takeJournal (e : Engine) : List Effect × Engine :=
  (e.history.journal.reverse, { e with history := { e.history with journal := [] } })

end Engine

end Backbox
