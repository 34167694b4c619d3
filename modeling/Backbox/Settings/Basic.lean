import Backbox.Command.Wire
import Backbox.EventMap
import Backbox.Settings.Connection
import Backbox.Settings.LogFormat

/-!
# Settings

What a host is configured with: the peers, the logging, the letter case of inbound
values, the event map and the selected player variables. Settings are valid when every
connection has a host and every mapped event a command.
-/

namespace Backbox

/-- Settings of a host. -/
structure Settings where
  logFilter : String
  logFormat : LogFormat
  lowercaseValues : Bool
  connections : KeyMap ConnectionSettings
  eventMap : EventMap
  playerVariables : List String
  deriving DecidableEq

/-- Why settings cannot be used. -/
inductive SettingsFault where
  | unreadable (path reason : String)
  | unparsable (origin : String)
  | emptyHost (connection : String)
  | emptyEventCommand (event : String)
  | unknownLogFormat (value : String)
  deriving DecidableEq

/-- The text of the fault. What exactly is wrong with unparsable settings is not told. -/
def SettingsFault.message : SettingsFault → String
  | unreadable path reason => s!"failed to read configuration '{path}': {reason}"
  | unparsable origin => s!"failed to parse configuration from {origin}:"
  | emptyHost connection => s!"connection '{connection}' has an empty host"
  | emptyEventCommand event => s!"event mapping '{event}' has an empty command"
  | unknownLogFormat value =>
    s!"invalid log format '{value}': " ++ LogFormat.unknownMessage

namespace Settings

/-- The log filter of settings that name none. -/
def defaultLogFilter : String := "info"

/-- The log format of settings that name none. -/
def defaultLogFormat : LogFormat := .compact

/-- The environment variable that overrides the log filter. -/
def logFilterVariable : String := "BCP_LOG_FILTER"

/-- The environment variable that overrides the log format. -/
def logFormatVariable : String := "BCP_LOG_FORMAT"

/-- Settings with everything left at its default. -/
def default : Settings :=
  ⟨defaultLogFilter, defaultLogFormat, false, .empty, .empty, []⟩

instance : Inhabited Settings := ⟨default⟩

/-- The first entry, by name, whose text is blank. -/
def firstBlank? {β : Type} (text : β → String) (m : KeyMap β) : Option String :=
  (m.toList.find? fun entry => Text.isBlankText (text entry.2)).map (·.1)

/-- Checks that every connection has a host and every mapped event a command. Of several
faults the first connection by name is reported, then the first event by name. -/
def validate (s : Settings) : Except SettingsFault Unit :=
  match firstBlank? ConnectionSettings.host s.connections with
  | some name => .error (.emptyHost name)
  | none =>
    match firstBlank? EventMapping.command s.eventMap with
    | some event => .error (.emptyEventCommand event)
    | none => .ok ()

/-- Overrides the logging settings from the environment. -/
def withOverrides (s : Settings) (lookup : String → Option String) :
    Except SettingsFault Settings :=
  let filtered := match lookup logFilterVariable with
    | some filter => { s with logFilter := filter }
    | none => s
  match lookup logFormatVariable with
  | none => .ok filtered
  | some value =>
    match LogFormat.parse? value with
    | some format => .ok { filtered with logFormat := format }
    | none => .error (.unknownLogFormat value)

/-- Adds or replaces a connection. -/
def withConnection (s : Settings) (name : String) (c : ConnectionSettings) : Settings :=
  { s with connections := s.connections.insert name c }

/-- Adds or replaces the command of an event. -/
def withEventMapping (s : Settings) (event : String) (mapping : EventMapping) : Settings :=
  { s with eventMap := s.eventMap.insert event mapping }

/-- The letter case in which inbound values are delivered. -/
def valueCase (s : Settings) : ValueCase :=
  if s.lowercaseValues then .lowercase else .preserve

end Settings

end Backbox
