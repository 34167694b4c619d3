/-!
# Log formats
-/

namespace Backbox

/-- How log lines are laid out. -/
inductive LogFormat where
  | compact
  | json
  deriving DecidableEq, Inhabited

namespace LogFormat

/-- The name of a format. -/
def label : LogFormat → String
  | compact => "compact"
  | json => "json"

/-- The format of exactly this name. -/
def ofLabel? (text : String) : Option LogFormat :=
  if text = "compact" then some compact
  else if text = "json" then some json
  else none

/-- The format of a name in any ASCII letter case. -/
def parse? (text : String) : Option LogFormat :=
  ofLabel? (String.ofList (text.toList.map Char.toLower))

/-- What is said of a name that no format has. -/
def unknownMessage : String := "Matching variant not found"

end LogFormat

end Backbox
