import Backbox.Settings.Connection
import Backbox.Text.Integer

/-!
# Options of the probe

What the probe is told on its command line. An option's value is the next argument, or
follows the option's name after `=`. A value that is the next argument does not begin with
a dash, apart from negative numbers where the option takes them. Every option but `--send`
is given once at most. The first mistake is the one that is told; a value is judged when
the next option begins, or when the arguments end.
-/

namespace Backbox.Probe

/-- An option with a value. -/
inductive Setting where
  | config
  | host
  | port
  | name
  | attempts
  | send
  | durationMs
  | tickMs
  deriving DecidableEq, Inhabited

namespace Setting

/-- Every option with a value. -/
def all : List Setting := [config, host, port, name, attempts, send, durationMs, tickMs]

/-- The option's name. -/
def label : Setting → String
  | config => "config"
  | host => "host"
  | port => "port"
  | name => "name"
  | attempts => "attempts"
  | send => "send"
  | durationMs => "duration-ms"
  | tickMs => "tick-ms"

/-- What the option's value is called. -/
def valueLabel : Setting → String
  | config => "PATH"
  | host => "HOST"
  | port => "PORT"
  | name => "NAME"
  | attempts => "ATTEMPTS"
  | send => "MESSAGE"
  | durationMs | tickMs => "MS"

/-- How the option is written. -/
def usage (s : Setting) : String := "--" ++ s.label ++ " <" ++ s.valueLabel ++ ">"

/-- Whether the option may be given more than once. -/
def isRepeatable (s : Setting) : Bool := s = send

/-- Whether a negative number may be the option's value as the next argument. -/
def takesNegative (s : Setting) : Bool := s = attempts

end Setting

/-- An option without a value. -/
inductive Flag where
  | require
  | help
  | version
  deriving DecidableEq, Inhabited

namespace Flag

/-- Every option without a value. -/
def all : List Flag := [require, help, version]

/-- The option's name. -/
def label : Flag → String
  | require => "require"
  | help => "help"
  | version => "version"

/-- How the option is written. -/
def usage (f : Flag) : String := "--" ++ f.label

/-- The option that a single letter after a dash means. -/
def ofLetter? (c : Char) : Option Flag :=
  if c = 'h' then some help else if c = 'V' then some version else none

end Flag

/-- Why a command line is not understood. -/
inductive UsageFault where
  | invalidValue (option : Setting) (value reason : String)
  | missingValue (option : Setting)
  | unexpectedArgument (argument : String)
  | unexpectedValue (option : Flag) (value : String)
  /-- An option was given more than once. -/
  | repeated (usage : String)
  deriving DecidableEq

/-- The text of the fault. -/
def UsageFault.message : UsageFault → String
  | invalidValue option value reason =>
    "error: invalid value '" ++ value ++ "' for '" ++ option.usage ++ "': " ++ reason
  | missingValue option =>
    "error: a value is required for '" ++ option.usage ++ "' but none was supplied"
  | unexpectedArgument argument => "error: unexpected argument '" ++ argument ++ "' found"
  | unexpectedValue option value =>
    "error: unexpected value '" ++ value ++ "' for '" ++ option.usage ++
      "' found; no more were expected"
  | repeated usage => "error: the argument '" ++ usage ++ "' cannot be used multiple times"

/-- What the probe is told to do. -/
structure Options where
  /-- The path of the file that the settings are read from. -/
  config : Option String
  /-- The host of a further connection. -/
  host : Option String
  port : UInt16
  name : String
  attempts : Option Int
  required : Bool
  /-- The messages that are sent after the start. -/
  messages : List String
  /-- How long the probe runs, in milliseconds; without it, until it is interrupted. -/
  durationMs : Option Nat
  /-- How long the probe sleeps between two polls, in milliseconds. -/
  tickMs : Nat
  deriving DecidableEq

/-- What the probe does when it is told nothing. -/
def Options.default : Options :=
  ⟨none, none, ConnectionSettings.defaultPort, "peer", none, false, [], none, 50⟩

instance : Inhabited Options := ⟨Options.default⟩

/-- What a command line asks for. -/
inductive Invocation where
  | help
  | version
  | run (options : Options)
  deriving DecidableEq

/-- Why reading a command line stops before its end. -/
inductive Stop where
  | asked (flag : Flag)
  | fault (fault : UsageFault)

/-- Reads a port. -/
def port? (value : String) : Except String UInt16 :=
  match Text.readInteger Text.int64Range value with
  | .error fault => .error fault.message
  | .ok n =>
    if 0 ≤ n ∧ n ≤ 65535 then .ok (UInt16.ofNat n.toNat)
    else .error s!"{n} is not in 0..=65535"

/-- Reads an integer of a range. -/
def integer? (range : Text.IntegerRange) (value : String) : Except String Int :=
  (Text.readInteger range value).mapError Text.IntegerFault.message

/-- Takes the value of an option into the options. -/
def Options.set (o : Options) : Setting → String → Except String Options
  | .config, value => .ok { o with config := some value }
  | .host, value => .ok { o with host := some value }
  | .port, value => do return { o with port := ← port? value }
  | .name, value => .ok { o with name := value }
  | .attempts, value => do
    let attempts ← integer? Text.int64Range value
    return { o with attempts := some attempts }
  | .send, value => .ok { o with messages := o.messages ++ [value] }
  | .durationMs, value => do
    let duration ← integer? Text.nat64Range value
    return { o with durationMs := some duration.toNat }
  | .tickMs, value => do
    let tick ← integer? Text.nat64Range value
    return { o with tickMs := tick.toNat }

/-- A command line that is read up to some argument. -/
structure Reading where
  options : Options
  /-- The options with a value that were taken in. -/
  given : List Setting
  /-- The last option with a value, not yet taken in; its value may be still to come. -/
  pending : Option (Setting × Option String)

namespace Reading

/-- Nothing has been read. -/
def start : Reading := ⟨.default, [], none⟩

/-- The option that waits for its value. -/
def awaits (r : Reading) : Option Setting :=
  match r.pending with
  | some (option, none) => some option
  | _ => none

/-- Takes in the last option with a value. -/
def settle (r : Reading) : Except Stop Reading :=
  match r.pending with
  | none => .ok r
  | some (option, none) => .error (.fault (.missingValue option))
  | some (option, some value) =>
    if option ∈ r.given ∧ !option.isRepeatable then .error (.fault (.repeated option.usage))
    else
      match r.options.set option value with
      | .ok options => .ok ⟨options, option :: r.given, none⟩
      | .error reason => .error (.fault (.invalidValue option value reason))

/-- Reads an option with a value, which may follow `=`. -/
def option (r : Reading) (option : Setting) : Option String → Except Stop Reading
  | none => do
    let r ← r.settle
    return { r with pending := some (option, none) }
  | some value => do
    let r ← r.settle
    { r with pending := some (option, some value) }.settle

/-- Reads an option without a value. -/
def flag (r : Reading) (flag : Flag) : Except Stop Reading := do
  let r ← r.settle
  if flag ≠ .require then .error (.asked flag)
  else if r.options.required then .error (.fault (.repeated flag.usage))
  else .ok { r with options := { r.options with required := true } }

/-- Reads an option that is named in full. -/
def long (r : Reading) (label : String) (value : Option String) : Except Stop Reading :=
  match Setting.all.find? (·.label = label) with
  | some option => r.option option value
  | none =>
    match Flag.all.find? (·.label = label), value with
    | some flag, some value => .error (.fault (.unexpectedValue flag value))
    | some flag, none => r.flag flag
    | none, _ => .error (.fault (.unexpectedArgument ("--" ++ label)))

/-- Reads a letter after a dash. -/
def letter (r : Reading) (c : Char) : Except Stop Reading :=
  match Flag.ofLetter? c with
  | some flag => r.flag flag
  | none => .error (.fault (.unexpectedArgument (String.ofList ['-', c])))

/-- Reads an argument that is no option. -/
def word (r : Reading) (argument : String) : Except Stop Reading :=
  match r.awaits with
  | some option => .ok { r with pending := some (option, some argument) }
  | none => .error (.fault (.unexpectedArgument argument))

end Reading

/-- Whether a text after a dash makes a negative number: digits, possibly a point after the
first of them, and possibly an `e` or `E` with something behind it. -/
def isNumber (sawPoint sawExponent isFirst : Bool) : List Char → Bool
  | [] => true
  | c :: rest =>
    if c.isDigit then isNumber sawPoint sawExponent false rest
    else if c = '.' then
      !sawPoint && !sawExponent && !isFirst && isNumber true sawExponent false rest
    else if c = 'e' ∨ c = 'E' then
      !sawExponent && !isFirst && !rest.isEmpty && isNumber sawPoint true false rest
    else false

/-- Reads one argument, of its characters. -/
def Reading.argument (r : Reading) : List Char → Except Stop Reading
  | '-' :: '-' :: rest =>
    let label := rest.takeWhile (· ≠ '=')
    let value := (rest.drop label.length).tail?
    r.long (String.ofList label) (value.map String.ofList)
  | '-' :: c :: rest =>
    if r.awaits.any Setting.takesNegative && isNumber false false true (c :: rest) then
      r.word (String.ofList ('-' :: c :: rest))
    else r.letter c
  | cs => r.word (String.ofList cs)

/-- Reads arguments. After `--` no argument is an option or a value any more. -/
def Reading.arguments : List String → Reading → Except Stop Reading
  | [], r => .ok r
  | argument :: rest, r =>
    if argument = "--" then
      match rest with
      | [] => .ok r
      | next :: _ => .error (.fault (.unexpectedArgument next))
    else do arguments rest (← r.argument argument.toList)

/-- Reads a command line. -/
def Invocation.parse (arguments : List String) : Except UsageFault Invocation :=
  match (Reading.arguments arguments .start).bind Reading.settle with
  | .ok r => .ok (.run r.options)
  | .error (.asked .version) => .ok .version
  | .error (.asked _) => .ok .help
  | .error (.fault fault) => .error fault

/-- What the probe says when it is asked for help. -/
def helpText : String :=
  "Drives the BCP engine against live peers and echoes what they send\n\n" ++
  "Usage: bcp-probe [OPTIONS]\n\n" ++
  "Options:\n" ++
  "      --config <PATH>        YAML configuration file with connections and the event map\n" ++
  "      --host <HOST>          Connects to this host in addition to any configured connections\n" ++
  "      --port <PORT>          Port for \x60--host\x60 [default: 5050]\n" ++
  "      --name <NAME>          Connection name for \x60--host\x60 [default: peer]\n" ++
  "      --attempts <ATTEMPTS>  Attempt limit for \x60--host\x60; \x60-1\x60 keeps trying\n" ++
  "      --require              Treats losing the \x60--host\x60 peer as fatal\n" ++
  "      --send <MESSAGE>       Wire-form command to send after start, e.g. \x60trigger?name=ball_start\x60\n" ++
  "      --duration-ms <MS>     Stops after this many milliseconds. Runs until interrupted otherwise\n" ++
  "      --tick-ms <MS>         Delay between two polls of the engine [default: 50]\n" ++
  "  -h, --help                 Print help\n" ++
  "  -V, --version              Print version\n"

/-- What the probe says when it is asked for its version. -/
def versionText : String := "bcp-probe 0.1.0\n"

end Backbox.Probe
