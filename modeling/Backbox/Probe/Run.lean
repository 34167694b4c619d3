import Backbox.Engine.Request
import Backbox.Probe.Options
import Backbox.Settings.Load

/-!
# The probe

The probe drives an engine against live peers: it reads settings, starts the engine, sends
the messages it was given, and polls until shutdown is requested, its time is over or it is
interrupted. What peers say is echoed line by line. At the end the state of each connection
is told, as it was before the engine was shut down.
-/

namespace Backbox.Probe

/-- Why the probe does not run. -/
inductive Fault where
  | usage (fault : UsageFault)
  | settings (fault : SettingsFault)
  | attemptLimit (fault : AttemptLimitFault)
  | noPeer
  | notCommand (message : String)
  | engine (fault : EngineFault)

/-- The text of the fault. -/
def Fault.message : Fault → String
  | usage fault => fault.message
  | settings fault => "failed to load configuration: " ++ fault.message
  | attemptLimit fault => "invalid --attempts value: " ++ fault.message
  | noPeer => "no peers configured; pass --host or a --config file with connections"
  | notCommand message => "'" ++ message ++ "' is not a command"
  | engine fault => "engine error: " ++ fault.message

/-- What a probe reads before it starts. -/
structure Surroundings where
  /-- The variables of the environment. -/
  lookup : String → Option String
  /-- The text of a file, or why it cannot be read. -/
  readFile : String → Except String String

/-- What happens while a probe runs. -/
structure Course where
  connector : Connector
  /-- What peers do while the probe sleeps, given how often it has polled. -/
  meanwhile : Nat → List Request
  /-- How often the probe sleeps before it is interrupted. -/
  patience : Nat

/-- The course of a probe whose peers do nothing. -/
def Course.quiet (connector : Connector) (patience : Nat) : Course :=
  ⟨connector, fun _ => [], patience⟩

/-- What a run of the probe leaves behind. -/
structure Outcome where
  succeeded : Bool
  output : String
  errors : String
  deriving DecidableEq

/-- The settings from a file, or the default ones. -/
def Options.baseSettings (o : Options) (readFile : String → Except String String) :
    Except SettingsFault Settings :=
  match o.config with
  | none => .ok .default
  | some path =>
    match readFile path with
    | .error reason => .error (.unreadable path reason)
    | .ok text => Settings.ofYaml path text

/-- The settings of the further connection, if a host is given for one. -/
def Options.connection? (o : Options) : Except AttemptLimitFault (Option ConnectionSettings) :=
  match o.host with
  | none => .ok none
  | some host => do
    let c := { ConnectionSettings.ofHost host with port := o.port, required := o.required }
    match o.attempts with
    | none => return some c
    | some attempts => return some { c with attempts := ← AttemptLimit.ofInt attempts }

/-- The settings that the probe runs with. They name a peer at least. -/
def Options.settings (o : Options) (s : Surroundings) : Except Fault Settings := do
  let base ← (o.baseSettings s.readFile).mapError .settings
  let added := match ← (o.connection?).mapError .attemptLimit with
    | some c => base.withConnection o.name c
    | none => base
  let resolved ← (added.withOverrides s.lookup).mapError .settings
  resolved.validate.mapError .settings
  if resolved.connections.isEmpty then .error .noPeer else .ok resolved

/-- The command that a message stands for. -/
def command? (message : String) : Except Fault Command :=
  let c := Command.ofWire .preserve (Text.trim message)
  if c.name.isEmpty then .error (.notCommand message) else .ok c

/-- The commands that the probe sends after the start. -/
def Options.commands (o : Options) : Except Fault (List Command) := o.messages.mapM command?

/-- The line that echoes a call to the host. -/
def echo? : HostCall → Option String
  | .post event fields _ => some ("event " ++ Command.encode event fields)
  | .setSwitch name active _ => some ("switch " ++ name ++ (if active then " 1" else " 0"))
  | .applyFrame payload => some s!"frame {payload.length} bytes"
  | .requestShutdown => some "shutdown requested"
  | .note _ => none

/-- The line that an entry of the journal is echoed by. -/
def echoOf? : Effect → Option String
  | .framed _ payload => echo? (.applyFrame payload)
  | .host call => echo? call
  | _ => none

/-- The line that tells the state of a connection. -/
def statusLine (c : ConnectionStatus) : String :=
  "status " ++ c.name ++ " " ++ c.endpoint ++ " " ++ c.state.label ++ " attempts=" ++
    toString c.attemptsMade

/-- The engine after its start and after sending commands. -/
def begin (settings : Settings) (commands : List Command) (connector : Connector) :
    Except EngineFault Engine := do
  let e ← Engine.ofSettings settings connector
  let e ← { e with completesAtOnce := true }.start
  return commands.foldl (fun e command => (e.send command).2) e

/-- The engine after a poll. No more than the waiting commands are dispatched in it. -/
def polled (e : Engine) : Engine :=
  let waiting := e.inboxes.foldl (fun n inbox => n + inbox.commands.length) 0
  match e.poll (waiting + e.departures.length + 1) with
  | some (_, e) => e
  | none => e

/-- Whether the probe stops after a poll: shutdown is requested, or the time is over. -/
def isOver (durationMs : Option Nat) (e : Engine) : Bool :=
  e.shutdownRequested || durationMs.any (· ≤ e.history.now)

/-- Polls until the probe stops or is interrupted; `round` counts the polls. A sleep lasts a
millisecond at least. -/
def tickUntil (o : Options) (meanwhile : Nat → List Request) :
    Nat → Nat → Engine → Engine
  | 0, _, e => polled e
  | patience + 1, round, e =>
    let e := polled e
    if isOver o.durationMs e then e
    else
      tickUntil o meanwhile patience (round + 1) <|
        (e.run (meanwhile round)).wait (max o.tickMs 1)

/-- The lines that tell the state of an engine's connections. -/
def statusLines (e : Engine) : List String := e.status.map statusLine

/-- What the probe leaves behind once its engine has run. -/
def finish (e : Engine) : Outcome :=
  let statuses := statusLines e
  let e := e.shutdown
  let echoes := e.history.journal.reverse.filterMap echoOf?
  ⟨!e.shutdownRequested, String.join ((echoes ++ statuses).map (· ++ "\n")), ""⟩

/-- Runs the probe with options. -/
def Options.run (o : Options) (s : Surroundings) (c : Course) : Except Fault Outcome := do
  let settings ← o.settings s
  let commands ← o.commands
  let e ← (begin settings commands c.connector).mapError .engine
  return finish (tickUntil o c.meanwhile c.patience 0 e)

/-- What the probe leaves behind when it does not run. -/
def Fault.outcome (fault : Fault) : Outcome := ⟨false, "", fault.message ++ "\n"⟩

/-- Runs the probe with a command line. -/
def run (s : Surroundings) (c : Course) (arguments : List String) : Outcome :=
  match Invocation.parse arguments with
  | .error fault => (Fault.usage fault).outcome
  | .ok .help => ⟨true, helpText, ""⟩
  | .ok .version => ⟨true, versionText, ""⟩
  | .ok (.run options) =>
    match options.run s c with
    | .ok outcome => outcome
    | .error fault => fault.outcome

end Backbox.Probe
