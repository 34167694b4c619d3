import Backbox.Connection.Attempt
import Backbox.Connection.Receive
import Backbox.Engine.Reaction
import Backbox.PlayerVariables
import Backbox.Settings.Basic

/-!
# The engine

An engine holds the connections to all peers, in the order in which they were configured,
and for each of them an inbox of commands that wait for the host's next poll. It speaks to
every peer at once, and calls the host about what peers say.

The host completes either every event as soon as it is posted, or none before it is asked to.
Hosts that decide this event by event are left out.
-/

namespace Backbox

/-- The commands of one connection that wait for the host's next poll. -/
structure Inbox where
  connection : String
  commands : List Command

/-- Why a request to the engine is refused. -/
inductive EngineFault where
  | alreadyStarted
  | shutDown
  | duplicateConnection (name : String)
  | emptyHost (name : String)
  | reservedCommand (name : String)
  | duplicateHandler (name : String)
  | invalidSettings (fault : SettingsFault)
  deriving DecidableEq

/-- The text of the fault. -/
def EngineFault.message : EngineFault → String
  | alreadyStarted => "engine already started"
  | shutDown => "engine has been shut down"
  | duplicateConnection name => s!"connection '{name}' is configured twice"
  | emptyHost name => s!"connection '{name}' has an empty host"
  | reservedCommand name => s!"command '{name}' is handled by the engine"
  | duplicateHandler name => s!"a handler is already registered for '{name}'"
  | invalidSettings fault => fault.message

/-- The engine of a host. -/
structure Engine where
  /-- The connections, in the order in which they were configured. -/
  registry : List Connection
  /-- The inboxes, in the same order. -/
  inboxes : List Inbox
  /-- The names of connections whose peers said goodbye, in that order. -/
  departures : List String
  /-- The commands that the host handles itself. -/
  handlers : List (String × Handler)
  eventMap : EventMap
  playerVariables : PlayerVariables
  valueCase : ValueCase
  /-- How connections that are configured from now on reach their peers. -/
  connector : Connector
  started : Bool
  shutDown : Bool
  /-- Whether the host completes every event as soon as it is posted. -/
  completesAtOnce : Bool
  /-- The events that the host has not completed yet, in the order in which they came. -/
  pending : List HostEvent
  history : History

namespace Engine

/-- An engine without connections. -/
def new (connector : Connector) : Engine :=
  ⟨[], [], [], [], .empty, .scoreOnly, .preserve, connector, false, false, false, [], .start⟩

/-- The commands that mean something to the engine itself. -/
def reservedCommands : List String :=
  ["hello", "goodbye", "error", "switch", "trigger", "dmd_frame"]

/-- What the first entry of a batch that cannot be configured is refused for: a blank host,
or a name that is taken already, by an earlier entry at the latest. -/
def batchFault? (taken : List String) : List (String × ConnectionSettings) → Option EngineFault
  | [] => none
  | (name, settings) :: rest =>
    if Text.isBlankText settings.host then some (.emptyHost name)
    else if name ∈ taken then some (.duplicateConnection name)
    else batchFault? (name :: taken) rest

/-- Adds connections, all of them or none. They are not tried yet. -/
def configure (e : Engine) (batch : List (String × ConnectionSettings)) :
    Except EngineFault Engine :=
  if e.shutDown then .error .shutDown
  else
    match batchFault? (e.inboxes.map (·.connection)) batch with
    | some fault => .error fault
    | none => .ok { e with
        registry := e.registry ++ batch.map fun entry => .new entry.1 entry.2 e.connector
        inboxes := e.inboxes ++ batch.map fun entry => ⟨entry.1, []⟩
        history := e.history.recordAll (batch.map fun entry => .configured entry.1) }

/-- The engine that settings describe, its connections not tried yet. -/
def ofSettings (s : Settings) (connector : Connector) : Except EngineFault Engine :=
  match s.validate with
  | .error fault => .error (.invalidSettings fault)
  | .ok () =>
    { new connector with
      valueCase := s.valueCase
      eventMap := s.eventMap
      playerVariables := .ofNames s.playerVariables }.configure s.connections.toList

/-- Does the same to each connection, one after the other. -/
def overConnections (act : Connection → History → Connection × History) :
    List Connection → History → List Connection × History
  | [], h => ([], h)
  | c :: rest, h =>
    let (c, h) := act c h
    let (rest, h) := overConnections act rest h
    (c :: rest, h)

/-- Makes the first attempt on every connection. -/
def start (e : Engine) : Except EngineFault Engine :=
  if e.shutDown then .error .shutDown
  else if e.started then .error .alreadyStarted
  else
    let (registry, history) := overConnections Connection.connect e.registry e.history
    .ok { e with started := true, registry := registry, history := history }

/-- Sends a message on each connection, one after the other; counts those that accepted
it. -/
def sendOver (message : String) :
    List Connection → History → Nat × List Connection × History
  | [], h => (0, [], h)
  | c :: rest, h =>
    let (accepted, c, h) := c.send message h
    let (count, rest, h) := sendOver message rest h
    (if accepted then count + 1 else count, c :: rest, h)

/-- Sends a command to every connection; counts those that accepted it. -/
def send (e : Engine) (command : Command) : Nat × Engine :=
  let (count, registry, history) := sendOver command.toWire e.registry e.history
  (count, { e with registry := registry, history := history })

/-- Sends the command that stands for an event of the host; tells whether there is one. -/
def sendMapped (e : Engine) (event : String) (fields player : Params) : Bool × Engine :=
  match e.eventMap.render event fields player with
  | some command => (true, (e.send command).2)
  | none => (false, e)

/-- Tells the peers that a player variable changed; tells whether the variable is one that
they hear about. -/
def changePlayerVariable (e : Engine) (name value prevValue change : String) : Bool × Engine :=
  match e.playerVariables.render name value prevValue change with
  | some command => (true, (e.send command).2)
  | none => (false, e)

/-- Lets the host handle a command itself. -/
def register (e : Engine) (name : String) (handler : Handler) : Except EngineFault Engine :=
  let command := Command.normalName name
  if command ∈ reservedCommands then .error (.reservedCommand command)
  else if (e.handlers.lookup command).isSome then .error (.duplicateHandler command)
  else .ok { e with handlers := (command, handler) :: e.handlers }

/-- Closes every connection, saying goodbye to each live peer. -/
def shutdown (e : Engine) : Engine :=
  if e.shutDown then e
  else
    let (registry, history) := overConnections Connection.close e.registry e.history
    { e with shutDown := true, registry := registry, history := history }

/-- The connection that holds a session. -/
def connectionOf? (e : Engine) (session : Nat) : Option Connection :=
  e.registry.find? fun c => c.session.any (·.id = session)

/-- Puts a changed connection in the place of the one of its name. -/
def replace (e : Engine) (c : Connection) : List Connection :=
  e.registry.map fun d => if d.name = c.name then c else d

/-- Takes in bytes that arrive on a session; those on a session that is over are lost. -/
def receive (e : Engine) (session : Nat) (bytes : Bytes) : Engine :=
  match e.connectionOf? session with
  | none => e
  | some c =>
    let heard := c.receive e.valueCase bytes e.history
    { e with
      registry := e.replace heard.connection
      inboxes := e.inboxes.map fun inbox =>
        if inbox.connection = c.name then
          { inbox with commands := inbox.commands ++ heard.commands.toList }
        else inbox
      departures := if heard.departed then e.departures ++ [c.name] else e.departures
      history := heard.history }

/-- The peer closes a session. -/
def loseSession (e : Engine) (session : Nat) : Engine :=
  match e.connectionOf? session with
  | none => e
  | some c =>
    let (c, history) := c.loseSession .lost e.history
    { e with registry := e.replace c, history := history }

/-- Lets time pass. -/
def wait (e : Engine) (milliseconds : Nat) : Engine :=
  { e with history := { e.history with now := e.history.now + milliseconds } }

/-- The session that a choice means, if any session has been opened that fits. -/
def session? (e : Engine) (choice : SessionChoice) : Option Nat :=
  match choice.number with
  | some number => if number < e.history.sessions then some number else none
  | none => e.history.lastSession? choice.host

/-- The view of every connection, in the order in which they were configured. -/
def status (e : Engine) : List ConnectionStatus := e.registry.map (·.status)

/-- Whether the host was asked to shut down. -/
def shutdownRequested (e : Engine) : Bool := e.history.shutdownRequested

end Engine

end Backbox
