import Std.Async.DNS
import Std.Async.Signal
import Std.Async.TCP
import Backbox.Probe.Record
import Backbox.Probe.Run

/-!
# The probe's program

The outer layer of the probe: files, the environment, the clock, signals, and sessions over
TCP. What it does is decided by the probe and its engine; this layer only carries out what
they ask for.
-/

namespace Backbox.Program

open Std.Async (Async AsyncTask)

/-- A live session over TCP. -/
structure Link where
  socket : Std.Async.TCP.Socket.Client
  /-- The read that is under way; there is none once the peer has closed the session. -/
  read : Option (AsyncTask (Option ByteArray))

/-- The running program. -/
structure Live where
  engine : Engine
  /-- The answers to all attempts so far. -/
  answers : Array Bool
  /-- The links of the sessions, by number. -/
  links : Array Link
  /-- The writes that may be under way. -/
  writes : List (AsyncTask Unit)
  /-- When the engine began, in milliseconds. -/
  began : Nat

/-- The longest time that the program waits for its last writes, in milliseconds. -/
def drainLimit : Nat := 2000

/-- The text of an error of the system. -/
def reason (e : IO.Error) : String := match e with
  | .noFileOrDirectory .. => "No such file or directory (os error 2)"
  | .permissionDenied .. => "Permission denied (os error 13)"
  | .inappropriateType .. => "Is a directory (os error 21)"
  | .noSuchThing _ code details | .otherError code details => s!"{details} (os error {code})"
  | e => toString e

/-- The text of a file, or why it cannot be read. -/
def readText (path : String) : IO (Except String String) := do
  try
    match String.fromUTF8? (← IO.FS.readBinFile path) with
    | some text => return .ok text
    | none => return .error "stream did not contain valid UTF-8"
  catch e => return .error (reason e)

/-- Whether a task is finished by a point in time. -/
partial def finishedBy {α : Type} (task : AsyncTask α) (deadline : Nat) : IO Bool := do
  if ← IO.hasFinished task then return true
  else if deadline ≤ (← IO.monoMsNow) then return false
  else
    IO.sleep 1
    finishedBy task deadline

/-- Begins to read on a socket. -/
def beginRead (socket : Std.Async.TCP.Socket.Client) : IO (AsyncTask (Option ByteArray)) :=
  (socket.recv? 4096).toIO

/-- Tries to open a session to an address. -/
def dialAddress (address : Std.Net.SocketAddress) (timeout : Option Duration) :
    IO (Option Link) := do
  try
    let socket ← Std.Async.TCP.Socket.Client.mk
    let task ← (socket.connect address).toIO
    match timeout with
    | some d =>
      unless ← finishedBy task ((← IO.monoMsNow) + d.milliseconds.toNat) do return none
    | none => pure ()
    task.block
    return some ⟨socket, some (← beginRead socket)⟩
  catch _ => return none

/-- Tries to reach a peer at any of its host's addresses. -/
def dial (s : ConnectionSettings) : IO (Option Link) := do
  let addresses ←
    try (Std.Async.DNS.getAddrInfo s.host "").block catch _ => pure #[]
  for address in addresses do
    let socketAddress : Std.Net.SocketAddress := match address with
      | .v4 addr => .v4 ⟨addr, s.port⟩
      | .v6 addr => .v6 ⟨addr, s.port⟩
    if let some link ← dialAddress socketAddress s.connectTimeout then return some link
  return none

/-- Carries out one entry of the journal. -/
def carryOut (live : Live) (effect : Effect) : IO Live := do
  if let some line := Probe.echoOf? effect then IO.println line
  match effect with
  | .wrote session line =>
    match live.links[session]? with
    | some link =>
      let write ← (link.socket.send (line ++ "\n").toUTF8).toIO
      return { live with writes := write :: live.writes }
    | none => return live
  | .closed session _ =>
    match live.links[session]? with
    | some link =>
      for write in live.writes do
        discard <| finishedBy write ((← IO.monoMsNow) + drainLimit)
      try link.socket.shutdown.block catch _ => pure ()
      return { live with writes := [] }
    | none => return live
  | _ => return live

/-- Runs a step of the engine: attempts are made as the step asks for them. -/
partial def act (live : Live) (step : Engine → Engine) : IO Live := do
  let e := step (Probe.answering live.engine live.answers)
  match Probe.unanswered? e live.answers with
  | some attempt =>
    let link ← dial attempt.settings
    let links := match link with
      | some link => live.links.push link
      | none => live.links
    act { live with answers := live.answers.push link.isSome, links := links } step
  | none =>
    let (journal, e) := e.takeJournal
    journal.foldlM carryOut { live with engine := e }

/-- Hands on to the engine what the peer of a session has done, as far as it is known. -/
partial def handOnFrom (session : Nat) (live : Live) : IO Live := do
  match live.links[session]? with
  | some ⟨socket, some read⟩ =>
    if ← IO.hasFinished read then
      let bytes ← try read.block catch _ => pure none
      match bytes with
      | some bytes =>
        let next ← beginRead socket
        let live := { live with links := live.links.set! session ⟨socket, some next⟩ }
        handOnFrom session (← act live (·.receive session bytes.data.toList))
      | none =>
        act { live with links := live.links.set! session ⟨socket, none⟩ }
          (·.loseSession session)
    else return live
  | _ => return live

/-- Hands on to the engine what peers have done. -/
def handOn (live : Live) : IO Live :=
  (List.range live.links.size).foldlM (fun live session => handOnFrom session live) live

/-- Lets the engine's clock catch up. -/
def catchUp (live : Live) : IO Live := do
  let now := (← IO.monoMsNow) - live.began
  act live (·.wait (now - live.engine.history.now))

/-- Polls until the probe stops or is interrupted. -/
partial def tick (o : Probe.Options) (interrupted : IO Bool) (live : Live) : IO Live := do
  let live ← act (← catchUp (← handOn live)) Probe.polled
  (← IO.getStdout).flush
  if (← interrupted) || Probe.isOver o.durationMs live.engine then return live
  else
    IO.sleep (UInt32.ofNat (min o.tickMs 4294967295))
    tick o interrupted live

/-- Waits for a signal; tells whether it has come. -/
def watch (signal : Std.Async.Signal) : IO (IO Bool) := do
  let waiter ← Std.Async.Signal.Waiter.mk signal false
  let task ← waiter.wait
  return IO.hasFinished task

/-- Runs the probe with settings and commands. -/
def runLive (o : Probe.Options) (settings : Settings) (commands : List Command) :
    IO (Except EngineFault Bool) := do
  let interrupt ← watch .sigint
  let terminate ← watch .sigterm
  match Engine.ofSettings settings (Probe.recorded #[]) with
  | .error fault => return .error fault
  | .ok e =>
    let live : Live :=
      ⟨{ e with completesAtOnce := true }, #[], #[], [], ← IO.monoMsNow⟩
    let live ← act live fun e => (e.handle .start).2
    let live ← commands.foldlM (fun live command => do
      act (← catchUp live) fun e => (e.send command).2) live
    let live ← tick o (do return (← interrupt) || (← terminate)) live
    let statuses := Probe.statusLines live.engine
    let live ← act live Engine.shutdown
    for line in statuses do IO.println line
    return .ok (!live.engine.shutdownRequested)

/-- Runs the probe with options. -/
def runOptions (o : Probe.Options) : IO (Except Probe.Fault Bool) := do
  let text ← match o.config with
    | some path => readText path
    | none => pure (.ok "")
  let filter ← IO.getEnv Settings.logFilterVariable
  let format ← IO.getEnv Settings.logFormatVariable
  let lookup (name : String) : Option String :=
    if name = Settings.logFilterVariable then filter
    else if name = Settings.logFormatVariable then format
    else none
  match o.settings ⟨lookup, fun _ => text⟩, o.commands with
  | .error fault, _ | _, .error fault => return .error fault
  | .ok settings, .ok commands =>
    return (← runLive o settings commands).mapError Probe.Fault.engine

end Backbox.Program

/-- Runs the probe with the program's arguments. -/
def main (arguments : List String) : IO UInt32 := do
  match Backbox.Probe.Invocation.parse arguments with
  | .ok (.run options) =>
    match ← Backbox.Program.runOptions options with
    | .ok succeeded => return if succeeded then 0 else 1
    | .error fault =>
      IO.eprint fault.outcome.errors
      return 1
  | .ok .help =>
    IO.print Backbox.Probe.helpText
    return 0
  | .ok .version =>
    IO.print Backbox.Probe.versionText
    return 0
  | .error fault =>
    IO.eprint (Backbox.Probe.Fault.usage fault).outcome.errors
    return 1
