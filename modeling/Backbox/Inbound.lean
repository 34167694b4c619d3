import Backbox.Command.Basic
import Backbox.Text.Integer

/-!
# What inbound commands mean

The commands with a meaning of their own are the greeting, the farewell, the error
report, the switch and the trigger. Every other command with a name is left to the
handlers of the host.
-/

namespace Backbox

/-- An inbound command by its meaning. -/
inductive Inbound where
  /-- The peer greets and may tell its protocol version. -/
  | hello (version : Option String)
  /-- The peer ends the session. -/
  | goodbye
  /-- The peer reports a command that it did not accept. -/
  | error (params : Params)
  /-- The peer asks for the state of a switch to change. -/
  | switch (name : String) (active : Bool)
  /-- The peer names an event, and may ask for a trigger in answer to it. -/
  | trigger (name : String) (callback : Option String) (params : Params)
  /-- A command without a meaning of its own. -/
  | other (command : Command)
  deriving DecidableEq

/-- Why an inbound command has no meaning. -/
inductive InboundFault where
  | missingName
  | invalidParameters (command : String)
  | unnamedTrigger
  deriving DecidableEq

/-- The text of the fault. -/
def InboundFault.message : InboundFault → String
  | missingName => "inbound command has no name"
  | invalidParameters command => s!"invalid parameters for '{command}'"
  | unnamedTrigger => "trigger has no name"

/-- The switch state that a text stands for: an integer, active unless it is zero, or
`true` or `false` in any letter case. -/
def switchState? (raw : String) : Option Bool :=
  let text := Text.trim raw
  match Text.readInteger Text.int64Range text with
  | .ok number => some (number ≠ 0)
  | .error _ =>
    let folded := text.toList.map Char.toLower
    if folded = "true".toList then some true
    else if folded = "false".toList then some false
    else none

/-- The meaning of an inbound switch command. -/
def Inbound.ofSwitch (params : Params) : Except InboundFault Inbound :=
  match params.get? "name", (params.get? "state").bind switchState? with
  | some name, some active =>
    if name.isEmpty then .error (.invalidParameters "switch") else .ok (.switch name active)
  | _, _ => .error (.invalidParameters "switch")

/-- The meaning of an inbound command. One without a meaning of its own is built once more of its
name and its parameters. -/
def Inbound.ofCommand (c : Command) : Except InboundFault Inbound :=
  match c.name with
  | "" => .error .missingName
  | "hello" => .ok (.hello (c.params.get? "version"))
  | "goodbye" => .ok .goodbye
  | "error" => .ok (.error c.params)
  | "switch" => ofSwitch c.params
  | "trigger" =>
    match c.params.get? "name" with
    | none => .error .unnamedTrigger
    | some name =>
      .ok (.trigger name (c.params.get? "callback")
        ((c.params.erase "name").erase "callback"))
  | _ => .ok (.other (.ofPairs c.name c.params.toList))

end Backbox
