import Backbox.Document
import Backbox.Document.Tag
import Backbox.KeyMap
import Backbox.Text.Base64
import Backbox.Text.Blank
import Backbox.Text.Digit

/-!
# Reading values from documents

What a document says when a value of a certain kind is asked for. The absence of a value
reads as an empty list or map, and as nothing else. Words for truth values and numerals may
be in quotes. A map takes in the entries of other maps under the key `<<`, where it has none
of the same key; of several that are taken in, the last one comes first.
-/

namespace Backbox.Document

/-- The text of a scalar as it is written. -/
def scalar? : Document → Option String
  | .plain written => some written
  | .text value => some value
  | .tagged _ scalar => scalar.scalar?
  | .boolean _ | .integer _ | .list _ | .map _ => none

/-- A text: any scalar that does not stand for the absence of a value. A tag may say that the
scalar is a text anyhow, that it writes bytes, or that it is no text. -/
def text? : Document → Option String
  | .tagged tag scalar =>
    match meaningOf tag with
    | .text => scalar.scalar?
    | .binary => scalar.scalar?.bind Text.Base64.text?
    | .value => none
    | .named _ | .nothing => scalar.text?
  | d => if d.isNull then none else d.scalar?

/-- The truth value of a word, in any ASCII letter case. -/
def truthOfWord? (word : List Char) : Option Bool :=
  let word := String.ofList (word.map Char.toLower)
  if ["true", "yes", "on", "y"].contains word then some true
  else if ["false", "no", "off", "n"].contains word then some false
  else none

/-- A truth value. -/
def boolean? : Document → Option Bool
  | .boolean value => some value
  | d => d.scalar?.bind fun written => truthOfWord? (Text.trimList written.toList)

/-- The base that the front of a numeral names, and the digits after it. -/
def numeralBase : List Char → Nat × List Char
  | '0' :: 'x' :: digits | '0' :: 'X' :: digits => (16, digits)
  | '0' :: 'o' :: digits | '0' :: 'O' :: digits => (8, digits)
  | '0' :: 'b' :: digits | '0' :: 'B' :: digits => (2, digits)
  | digits => (10, digits)

/-- The number of a numeral without a sign. Underscores among the digits count for
nothing. -/
def magnitude? (numeral : List Char) : Option Nat :=
  let (base, digits) := numeralBase numeral
  let digits := digits.filter (· != '_')
  if digits.isEmpty then none else Text.digitsValue? base digits

/-- The number of a numeral; a minus sign is read only where numbers may be `signed`. -/
def numeral? (signed : Bool) : List Char → Option Int
  | '+' :: numeral => (magnitude? numeral).map Int.ofNat
  | '-' :: numeral =>
    if signed then (magnitude? numeral).map fun magnitude => -(magnitude : Int) else none
  | numeral => (magnitude? numeral).map Int.ofNat

/-- An integer; a minus sign is read only where numbers may be `signed`. -/
def integer? (signed : Bool) : Document → Option Int
  | .integer value => some value
  | d => d.scalar?.bind fun written => numeral? signed (Text.trimList written.toList)

/-- An integer from zero up to a greatest one. -/
def natUpTo? (greatest : Nat) (d : Document) : Option Nat := do
  let value ← d.integer? false
  if 0 ≤ value ∧ value ≤ greatest then some value.toNat else none

/-- An integer of 64 bits with a sign. -/
def int64? (d : Document) : Option Int := do
  let value ← d.integer? true
  if -9223372036854775808 ≤ value ∧ value ≤ 9223372036854775807 then some value else none

/-- The items of a list. -/
def items? : Document → Option (List Document)
  | .list items => some items
  | d => if d.isNull then some [] else none

/-- Whether a key stands for entries that are taken in from other maps. -/
def isMergeKey : Document → Bool
  | .plain written => written = "<<"
  | _ => false

/-- The entries of a map that are not taken in from others. -/
def ownEntries (entries : List (Document × Document)) : List (Document × Document) :=
  entries.filter fun entry => !entry.1.isMergeKey

mutual

/-- The entries that a map takes in from a document: those of a map, or of each map of a
list, the last one first. -/
def givenEntries : Document → Option (List (Document × Document))
  | .map entries => do return ownEntries entries ++ (← mergedEntries entries)
  | .list items => givenByItems items
  | d => if d.isNull then some [] else none

/-- The entries that a map takes in under its merge keys, the last one first. -/
def mergedEntries : List (Document × Document) → Option (List (Document × Document))
  | [] => some []
  | (key, value) :: rest => do
    let later ← mergedEntries rest
    if key.isMergeKey then return later ++ (← givenEntries value) else return later

/-- The entries that a map takes in from the items of a list, the last one first. -/
def givenByItems : List Document → Option (List (Document × Document))
  | [] => some []
  | item :: rest => do return (← givenByItems rest) ++ (← givenEntries item)

end

/-- The entries of a map from texts. -/
def textKeys? (entries : List (Document × Document)) : Option (List (String × Document)) :=
  entries.mapM fun entry => do return (← entry.1.text?, entry.2)

/-- Adds an entry if there is none with its key. -/
def addMissing (entries : List (String × Document)) (entry : String × Document) :
    List (String × Document) :=
  if entries.any (·.1 = entry.1) then entries else entry :: entries

/-- The entries of a map from texts, with those that it takes in. A key stands in the map
itself once. -/
def entries? : Document → Option (List (String × Document))
  | .map entries => do
    let own ← textKeys? (ownEntries entries)
    let merged ← textKeys? (← mergedEntries entries)
    if (own.map (·.1)).Nodup then some (merged.foldl addMissing own) else none
  | d => if d.isNull then some [] else none

/-- A map from texts, with its values as read by `read`. -/
def keyMap? {α : Type} (read : Document → Option α) (d : Document) : Option (KeyMap α) := do
  let entries ← (← d.entries?).mapM fun entry => do return (entry.1, ← read entry.2)
  return KeyMap.ofList entries

/-- The fields of a document that has no others than those of certain names. -/
def fields? (names : List String) (d : Document) : Option (KeyMap Document) := do
  let fields ← d.keyMap? some
  if fields.keys.all names.contains then some fields else none

/-- The value of a field, or what is taken in its place when the field is missing. -/
def fieldOr {α : Type} (fields : KeyMap Document) (name : String) (missing : α)
    (read : Document → Option α) : Option α :=
  match fields.get? name with
  | none => some missing
  | some d => read d

end Backbox.Document
