import Backbox.Command.Catalog

/-!
# Player variables

Which changes of player variables the peers hear about. Changes of the score always go
out, as a command of their own; other variables go out when they are selected.
-/

namespace Backbox

/-- The name that selects every player variable. -/
def allPlayerVariables : String := "__all__"

/-- The selection of player variables that peers hear about besides the score. -/
inductive PlayerVariables where
  | scoreOnly
  | all
  | named (names : List String)
  deriving DecidableEq, Inhabited

namespace PlayerVariables

/-- The names of a selection, each once and in ascending order. -/
def sortedNames (names : List String) : List String :=
  (KeyMap.ofList (names.map fun name => (name, ()))).keys

/-- The selection that a list of names makes: an empty list selects nothing but the
score, and a list with `allPlayerVariables` selects everything. -/
def ofNames (names : List String) : PlayerVariables :=
  if names.isEmpty then scoreOnly
  else if names.contains allPlayerVariables then all
  else named (sortedNames names)

/-- Whether a variable other than the score is selected. -/
def selects : PlayerVariables → String → Bool
  | scoreOnly, _ => false
  | all, _ => true
  | named names, name => names.contains name

/-- The command that reports a change, if the variable is selected. -/
def render (selection : PlayerVariables) (name value prevValue change : String) :
    Option Command :=
  if name = "score" then some (.scoreChange value prevValue change)
  else if selection.selects name then some (.playerVariable name value prevValue change)
  else none

end PlayerVariables

end Backbox
