import Backbox.Command.Basic

/-!
# The command catalog

The commands that the protocol defines, each with the parameters it carries.
-/

namespace Backbox

/-- The protocol version that a greeting announces. -/
def protocolVersion : String := "1.0"

namespace Command

/-- Greets a peer and tells the protocol version. -/
def hello (version : String) : Command := (ofName "hello").withParam "version" version

/-- Ends a session in good order. -/
def goodbye : Command := ofName "goodbye"

/-- Reports a command that was not accepted. -/
def error (message command : String) : Command :=
  ((ofName "error").withParam "message" message).withParam "command" command

/-- Reports the state of a switch: `1` for active, `0` for not. -/
def switch (name : String) (active : Bool) : Command :=
  ((ofName "switch").withParam "name" name).withInt "state" (if active then 1 else 0)

/-- Names an event. -/
def trigger (name : String) : Command := (ofName "trigger").withParam "name" name

/-- Reports that a mode started, and its priority. -/
def modeStart (name : String) (priority : Int) : Command :=
  ((ofName "mode_start").withParam "name" name).withInt "priority" priority

/-- Reports that a mode stopped. -/
def modeStop (name : String) : Command := (ofName "mode_stop").withParam "name" name

/-- Reports that a game started. -/
def gameStart : Command := ofName "game_start"

/-- Reports that a player joined. -/
def playerAdded (number : Int) : Command := (ofName "player_added").withInt "number" number

/-- Reports a score change with its texts as they are. -/
def scoreChange (value prevValue change : String) : Command :=
  (((ofName "player_score").withParam "value" value).withParam "prev_value" prevValue).withParam
    "change" change

/-- Reports a score change. -/
def playerScore (value prevValue change : Int) : Command :=
  scoreChange (toString value) (toString prevValue) (toString change)

/-- Reports a change of a player variable. -/
def playerVariable (name value prevValue change : String) : Command :=
  ((((ofName "player_variable").withParam "name" name).withParam "value" value).withParam
    "prev_value" prevValue).withParam "change" change

/-- Reports a reset. -/
def reset : Command := ofName "reset"

end Command

end Backbox
