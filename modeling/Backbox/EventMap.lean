import Backbox.Template

/-!
# Events as commands

An event map names, for events of the host, the command that tells the peers about them.
The parameters of the command are templates over the event's fields and the player's
variables.
-/

namespace Backbox

/-- The command that stands for an event, and the templates of its parameters. -/
structure EventMapping where
  command : String
  params : Params
  deriving DecidableEq

/-- The commands that stand for events, by the event's name. -/
abbrev EventMap := KeyMap EventMapping

namespace EventMap

/-- The command that a mapping gives for an event with these fields. -/
def renderMapping (mapping : EventMapping) (fields player : Params) : Command :=
  .ofPairs mapping.command <|
    mapping.params.toList.map fun entry =>
      (entry.1, Template.substitute entry.2 fields player)

/-- The command that stands for an event, if there is one. -/
def render (m : EventMap) (event : String) (fields player : Params) : Option Command :=
  (m.get? event).map (renderMapping · fields player)

end EventMap

end Backbox
