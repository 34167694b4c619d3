import Backbox.Command.Basic

/-!
# Parameter templates

A template is a text with references to named values: `%name%` to a player variable and
`%name` to a field of an event. Player variables are put in first, one name after the
other, then the fields; longer names come first, so that `%ball` never takes the front of
`%ball_count`. Names of one length follow each other in ascending order.
-/

namespace Backbox.Template

/-- Replaces every occurrence of a pattern, from the left and without overlap. The first
`skip` characters belong to an occurrence already replaced. -/
def replaceFrom (pattern value : List Char) (skip : Nat) : List Char → List Char
  | [] => []
  | c :: rest =>
    if 0 < skip then replaceFrom pattern value (skip - 1) rest
    else if pattern.isPrefixOf (c :: rest) then
      value ++ replaceFrom pattern value (pattern.length - 1) rest
    else c :: replaceFrom pattern value 0 rest

/-- Replaces every occurrence of a pattern, from the left and without overlap. -/
def replaceAll (pattern value text : List Char) : List Char := replaceFrom pattern value 0 text

/-- The entries with longer names, in UTF-8 bytes, before those with shorter ones, and
names of one length in ascending order. -/
def longestFirst (values : Params) : List (String × String) :=
  values.toList.mergeSort fun a b => b.1.utf8ByteSize ≤ a.1.utf8ByteSize

/-- Puts one player variable into a text. -/
def putPlayer (text : List Char) (entry : String × String) : List Char :=
  replaceAll ('%' :: entry.1.toList ++ ['%']) entry.2.toList text

/-- Puts one field into a text. -/
def putField (text : List Char) (entry : String × String) : List Char :=
  replaceAll ('%' :: entry.1.toList) entry.2.toList text

/-- The text of a template for the fields of an event and the variables of a player. -/
def substitute (template : String) (fields player : Params) : String :=
  let withPlayer := (longestFirst player).foldl putPlayer template.toList
  String.ofList ((longestFirst fields).foldl putField withPlayer)

end Backbox.Template
