import Backbox.KeyMap
import Backbox.Text.Blank
import Backbox.Text.Lower

/-!
# Commands

A command is a name and text parameters. Names and keys do not distinguish case: a
command built here has a trimmed, lower-cased name and lower-cased keys. Values are
kept as they are given.
-/

namespace Backbox

/-- The parameters of a command, or the fields of an event. -/
abbrev Params := KeyMap String

/-- A command: what one line between a host and a peer says. -/
structure Command where
  name : String
  params : Params
  deriving DecidableEq

namespace Command

/-- The form in which a command's name is kept: trimmed and lower-cased. -/
def normalName (name : String) : String := Text.lower (Text.trim name)

/-- The command without a name or parameters. -/
def empty : Command := ⟨"", .empty⟩

instance : Inhabited Command := ⟨empty⟩

/-- The command of a name, without parameters. -/
def ofName (name : String) : Command := ⟨normalName name, .empty⟩

/-- Sets a parameter. -/
def withParam (c : Command) (key value : String) : Command :=
  { c with params := c.params.insert (Text.lower key) value }

/-- Sets a parameter to a number, written in decimal. -/
def withInt (c : Command) (key : String) (value : Int) : Command :=
  c.withParam key (toString value)

/-- The command of a name and a list of parameters. Of parameters whose keys agree up to
case the last counts. -/
def ofPairs (name : String) (pairs : List (String × String)) : Command :=
  pairs.foldl (fun c pair => c.withParam pair.1 pair.2) (ofName name)

/-- The value of a parameter, looked up under exactly the given key. -/
def param? (c : Command) (key : String) : Option String := c.params.get? key

/-- The value of a parameter, looked up under exactly the given key, and the command
without it. -/
def takeParam (c : Command) (key : String) : Option String × Command :=
  (c.params.get? key, { c with params := c.params.erase key })

end Command

end Backbox
