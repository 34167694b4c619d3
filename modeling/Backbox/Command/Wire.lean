import Backbox.Command.Basic
import Backbox.Text.Form

/-!
# Commands as wire text

A command is written as its name, followed, if it has parameters, by `?` and their form
encoding in ascending order of the keys. The written text never contains a line-feed
unless the name does.

Every text reads as some command. The name ends at the first `?`. Keys are lower-cased;
a pair with an empty key or an empty value is passed over, and of pairs whose keys agree
the first counts.
-/

namespace Backbox

/-- What happens to the letter case of values when a command is read. -/
inductive ValueCase where
  | preserve
  | lowercase
  deriving DecidableEq, Inhabited

/-- A value in the letter case asked for. -/
def ValueCase.apply : ValueCase → String → String
  | preserve, value => value
  | lowercase, value => Text.lower value

namespace Command

/-- The wire text of a name and parameters, without the line-feed that ends it. -/
def encode (name : String) (params : Params) : String :=
  if params.isEmpty then normalName name
  else normalName name ++ "?" ++ Text.Form.encode params.toList

/-- The wire text of a command, without the line-feed that ends it. -/
def toWire (c : Command) : String := encode c.name c.params

/-- Adds one pair that was read to the parameters read before it. -/
def readPair (valueCase : ValueCase) (params : Params) (pair : String × String) : Params :=
  if pair.1.isEmpty || pair.2.isEmpty then params
  else params.insertNew (Text.lower pair.1) (valueCase.apply pair.2)

/-- The parameters that a list of pairs reads as. -/
def readPairs (valueCase : ValueCase) (pairs : List (String × String)) : Params :=
  pairs.foldl (readPair valueCase) .empty

/-- The command that a wire text reads as. It is built of its name and of the parameters that were
read, which lower-cases their keys once more. -/
def ofWire (valueCase : ValueCase) (message : String) : Command :=
  let cs := message.toList
  let query := (cs.dropWhile (· ≠ '?')).drop 1
  ofPairs (String.ofList (cs.takeWhile (· ≠ '?')))
    (readPairs valueCase (Text.Form.decode (String.ofList query))).toList

end Command

end Backbox
