import Backbox.Document.Reading
import Backbox.Settings.Basic

/-!
# The written form of settings

Settings as a document: every field is written under its name. When settings are read,
fields may be missing, apart from the host of a connection and the command of a mapped
event, and stand at their defaults then; a field of any other name is refused.
-/

namespace Backbox

namespace AttemptLimit

/-- The written form of a limit. -/
def toDocument (limit : AttemptLimit) : Document := .integer limit.toInt

/-- Reads a limit. -/
def ofDocument? (d : Document) : Option AttemptLimit := do (ofInt (← d.int64?)).toOption

end AttemptLimit

namespace LogFormat

/-- The written form of a format. -/
def toDocument (format : LogFormat) : Document := .text format.label

/-- The name of the type, which a tag may give. -/
def typeName : String := "LogFormat"

/-- Reads a format: its name, a map with its name as the only key and no value, or nothing
with its name as a tag. -/
def ofDocument? : Document → Option LogFormat
  | .map [(name, value)] => if value.isNull then name.scalar?.bind ofLabel? else none
  | .tagged tag scalar =>
    match Document.meaningOf tag with
    | .named name =>
      if name = typeName then scalar.scalar?.bind ofLabel?
      else if scalar.isNull then ofLabel? name
      else none
    | _ => (Document.tagged tag scalar).text?.bind ofLabel?
  | d => d.scalar?.bind ofLabel?

end LogFormat

namespace ConnectionSettings

/-- The names of the fields. -/
def fieldNames : List String :=
  ["host", "port", "connection_attempts", "require_connection", "connect_timeout_ms",
    "retry_delay_ms"]

/-- The written form of a connection's settings. -/
def toDocument (s : ConnectionSettings) : Document :=
  .map [(.text "host", .text s.host),
    (.text "port", .integer s.port.toNat),
    (.text "connection_attempts", s.attempts.toDocument),
    (.text "require_connection", .boolean s.required),
    (.text "connect_timeout_ms", .integer s.connectTimeoutMs.toNat),
    (.text "retry_delay_ms", .integer s.retryDelayMs.toNat)]

/-- Reads a port. -/
def port? (d : Document) : Option UInt16 := (d.natUpTo? 65535).map UInt16.ofNat

/-- Reads a number of milliseconds. -/
def milliseconds? (d : Document) : Option UInt64 :=
  (d.natUpTo? Duration.maxMilliseconds).map UInt64.ofNat

/-- Reads a connection's settings. The port and the connect timeout have defaults of their own;
any other field that is missing stands at the default of its type. -/
def ofDocument? (d : Document) : Option ConnectionSettings := do
  let fields ← d.fields? fieldNames
  let host ← (← fields.get? "host").text?
  return {
    host := host
    port := ← Document.fieldOr fields "port" defaultPort port?
    attempts := ← Document.fieldOr fields "connection_attempts" default
      AttemptLimit.ofDocument?
    required := ← Document.fieldOr fields "require_connection" default Document.boolean?
    connectTimeoutMs := ← Document.fieldOr fields "connect_timeout_ms"
      defaultConnectTimeoutMs milliseconds?
    retryDelayMs := ← Document.fieldOr fields "retry_delay_ms" default milliseconds? }

end ConnectionSettings

namespace EventMapping

/-- The names of the fields. -/
def fieldNames : List String := ["command", "params"]

/-- The written form of a mapping. -/
def toDocument (m : EventMapping) : Document :=
  .map [(.text "command", .text m.command),
    (.text "params", .map (m.params.toList.map fun entry => (.text entry.1, .text entry.2)))]

/-- Reads a mapping. -/
def ofDocument? (d : Document) : Option EventMapping := do
  let fields ← d.fields? fieldNames
  let command ← (← fields.get? "command").text?
  let params ← Document.fieldOr fields "params" .empty (Document.keyMap? Document.text?)
  return ⟨command, params⟩

end EventMapping

namespace Settings

/-- The names of the fields. -/
def fieldNames : List String :=
  ["log_filter", "log_format", "lowercase_values", "connections", "event_map",
    "player_variables"]

/-- The written form of settings. -/
def toDocument (s : Settings) : Document :=
  .map [(.text "log_filter", .text s.logFilter),
    (.text "log_format", s.logFormat.toDocument),
    (.text "lowercase_values", .boolean s.lowercaseValues),
    (.text "connections",
      .map (s.connections.toList.map fun entry => (.text entry.1, entry.2.toDocument))),
    (.text "event_map",
      .map (s.eventMap.toList.map fun entry => (.text entry.1, entry.2.toDocument))),
    (.text "player_variables", .list (s.playerVariables.map .text))]

/-- Reads settings, valid or not. -/
def ofDocument? (d : Document) : Option Settings := do
  let fields ← d.fields? fieldNames
  return {
    logFilter := ← Document.fieldOr fields "log_filter" defaultLogFilter Document.text?
    logFormat := ← Document.fieldOr fields "log_format" defaultLogFormat
      LogFormat.ofDocument?
    lowercaseValues := ← Document.fieldOr fields "lowercase_values" false Document.boolean?
    connections := ← Document.fieldOr fields "connections" .empty
      (Document.keyMap? ConnectionSettings.ofDocument?)
    eventMap := ← Document.fieldOr fields "event_map" .empty
      (Document.keyMap? EventMapping.ofDocument?)
    playerVariables := ← Document.fieldOr fields "player_variables" [] fun d => do
      (← d.items?).mapM Document.text? }

end Settings

end Backbox
