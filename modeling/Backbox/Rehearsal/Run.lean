import Backbox.Engine.Request
import Backbox.Rehearsal.Files
import Backbox.Rehearsal.Machine
import Backbox.Rehearsal.Peer
import Backbox.Rehearsal.Script

/-!
# Rehearsals

A rehearsal drives one engine against peers and a host that follow a script, and reports
after every step what came of it: the answer, the calls to the host, the attempts to reach
peers, what the peers noticed, and the state of the connections. Rehearsals, and the files and the
machine that come with them, are how the library is tried out; nothing else rests on them.
-/

namespace Backbox.Rehearsal

/-- One step of a rehearsal. -/
inductive Step where
  | request (request : Request)
  /-- Connections whose settings cannot be read are to be configured. -/
  | configureUnreadable (fault : AttemptLimitFault)
  /-- A command is sent so many times. -/
  | sendMany (command : Command) (times : Nat)
  /-- The number of connections is asked for, after sending a command if one is given. -/
  | outbox (command : Option Command)
  | peerSend (session : SessionChoice) (bytes : Bytes)
  | peerClose (session : SessionChoice)
  | peerDeafen (session : SessionChoice)
  | peerPause (session : SessionChoice)
  | peerResume (session : SessionChoice)
  /-- The host lets go of the engine. -/
  | drop

/-- The answer to a step. -/
inductive Answer where
  | reply (reply : Reply)
  | unreadable (fault : AttemptLimitFault)
  /-- So many connections, and how many of them accepted the command that was sent. -/
  | outbox (connections : Nat) (accepted : Option Nat)
  | noSession
  | noEngine

/-- What came of a step. -/
structure Report where
  answer : Answer
  calls : List HostCall
  /-- The endpoints that were dialled. -/
  attempts : List String
  peers : List PeerNews
  /-- The state of the connections and whether shutdown was requested, while there is an
  engine. -/
  state : Option (List ConnectionStatus × Bool)

/-- A rehearsal under way. -/
structure Stage where
  engine : Option Engine
  /-- The far ends of the sessions, by number. -/
  peers : Array Peer
  /-- The connections whose attempts are not reported. -/
  apart : List String

/-- The most commands that a poll takes from one inbox. -/
def pollBound : Nat := 1000000

/-- Carries one entry of the journal over to the peers. -/
def applyEffect (peers : Array Peer) : Effect → Array Peer
  | .dialled dial => if dial.session.isSome then peers.push (.new dial.settings.host) else peers
  | .wrote session line => peers.modify session (·.hear line)
  | .closed session _ => peers.modify session (·.close)
  | .configured .. | .left .. | .accepted .. | .read .. | .dispatched .. | .framed .. | .host .. =>
    peers

/-- What the peers notice, by session number. -/
def noticeAll (peers : Array Peer) : List PeerNews × Array Peer :=
  let noticed := peers.mapIdx fun session p => p.notice session
  (noticed.toList.filterMap (·.1), noticed.map (·.2))

/-- The call to the host that an entry of the journal tells of. -/
def call? : Effect → Option HostCall
  | .framed _ payload => some (.applyFrame payload)
  | .host call => some call
  | _ => none

/-- The endpoint that an entry of the journal tells was dialled. -/
def attempt? (apart : List String) : Effect → Option String
  | .dialled dial =>
    if apart.contains dial.connection then none else some dial.settings.endpoint
  | _ => none

namespace Stage

/-- The report of a step, given its answer, and the stage after it. -/
def report (s : Stage) (answer : Answer) : Report × Stage :=
  let (journal, engine) := match s.engine with
    | some e => let (journal, e) := e.takeJournal; (journal, some e)
    | none => ([], none)
  let (news, peers) := noticeAll (journal.foldl applyEffect s.peers)
  (⟨answer, journal.filterMap call?, journal.filterMap (attempt? s.apart), news,
    engine.map fun e => (e.status, e.shutdownRequested)⟩,
    { s with engine := engine, peers := peers })

/-- The report of letting go of the engine, and the stage after it. -/
def dropEngine (s : Stage) (answer : Answer) : Report × Stage :=
  let (report, s) := { s with engine := s.engine.map Engine.shutdown }.report answer
  ({ report with state := none }, { s with engine := none })

/-- Changes the far end of a session. -/
def changePeer (s : Stage) (session : Nat) (change : Peer → Peer) : Stage :=
  { s with peers := s.peers.modify session change }

/-- Does something to a chosen session. -/
def onSession (s : Stage) (e : Engine) (choice : SessionChoice)
    (act : Nat → Stage → Stage) : Answer × Stage :=
  match e.session? choice with
  | some session => (.reply .done, act session s)
  | none => (.noSession, s)

/-- Lets something happen to the engine. -/
def handle (s : Stage) (request : Request) : Stage :=
  { s with engine := s.engine.map fun e => (e.handle request).2 }

/-- Sends a command so many times; counts the acceptances. -/
def sendMany (command : Command) : Nat → Nat → Engine → Nat × Engine
  | 0, sum, e => (sum, e)
  | times + 1, sum, e =>
    let (count, e) := e.send command
    sendMany command times (sum + count) e

/-- The answer to a step, and the stage after it. -/
def answer (s : Stage) (e : Engine) : Step → Answer × Stage
  | .request request =>
    let (reply, e) := e.handle request
    (.reply reply, { s with engine := some e })
  | .configureUnreadable fault => (.unreadable fault, s)
  | .sendMany command times =>
    let (sum, e) := sendMany command times 0 e
    (.reply (.count sum), { s with engine := some e })
  | .outbox (some command) =>
    let (count, e) := e.send command
    (.outbox e.registry.length (some count), { s with engine := some e })
  | .outbox none => (.outbox e.registry.length none, s)
  | .peerSend choice bytes =>
    s.onSession e choice fun session s => s.handle (.receive session bytes)
  | .peerClose choice =>
    s.onSession e choice fun session s =>
      (s.changePeer session (·.leave)).handle (.loseSession session)
  | .peerDeafen choice => s.onSession e choice fun session s => s.changePeer session (·.leave)
  | .peerPause choice =>
    s.onSession e choice fun session s => s.changePeer session ({ · with paused := true })
  | .peerResume choice =>
    s.onSession e choice fun session s => s.changePeer session ({ · with paused := false })
  | .drop => (.reply .done, s)

/-- The report of a step, and the stage after it. -/
def step (s : Stage) (step : Step) : Report × Stage :=
  match s.engine, step with
  | none, _ => s.report .noEngine
  | some _, .drop => s.dropEngine (.reply .done)
  | some e, step =>
    let (answer, s) := s.answer e step
    s.report answer

/-- The reports of a sequence of steps, and the stage after them. -/
def run (s : Stage) (steps : List Step) : List Report × Stage :=
  let (reports, s) := steps.foldl (fun (done, s) step =>
    let (report, s) := s.step step
    (report :: done, s)) (([] : List Report), s)
  (reports.reverse, s)

end Stage

/-- The reports of a rehearsal: of each step, and of its end, when the host lets go of the
engine. -/
def rehearse (engine : Engine) (apart : List String) (steps : List Step) :
    List Report × Report :=
  let (reports, s) := Stage.run ⟨some engine, #[], apart⟩ steps
  (reports, (s.dropEngine (.reply .done)).1)

end Backbox.Rehearsal
