import Backbox.Yaml.Token

/-!
# The reader of tokens

What a reader of tokens keeps in mind. That something is a key shows only at the colon after
it, so the place of a possible key is kept, one for each open bracket or brace and one
outside of them; the tokens of a key are put in front of it then. Columns open and close the
lists and maps that are nested by indentation.
-/

namespace Backbox.Yaml

/-- Where a key may begin. -/
structure PossibleKey where
  /-- How many tokens come before it. -/
  number : Nat
  line : Nat
  column : Nat
  /-- Whether nothing but a key can begin there. -/
  required : Bool

/-- What an indentation goes back to when it ends. -/
structure Indent where
  outer : Int
  /-- Whether a list or map ends with it. -/
  closes : Bool

/-- A text that is read up to some place. -/
structure Lexer where
  place : Place
  /-- Whether nothing but blanks has been read on the line. -/
  fresh : Bool
  /-- The tokens so far, last one first, and their number. -/
  tokens : List Token
  count : Nat
  /-- The possible key of this bracket or brace, and those of the ones around it. -/
  key : Option PossibleKey
  outerKeys : List (Option PossibleKey)
  /-- How many brackets and braces are open. -/
  flowLevel : Nat
  /-- Whether a key may begin here. -/
  keyAllowed : Bool
  /-- The indentation, or `-1` outside of all lists and maps. -/
  indent : Int
  indents : List Indent
  /-- The line and column where a colon may touch the value after it. -/
  adjacentAt : Option (Nat × Nat)
  /-- Whether the end of the text was read. -/
  isDone : Bool

namespace Lexer

/-- The reader at the begin of a text. -/
def start (p : Place) : Lexer :=
  ⟨p, true, [], 0, none, [], 0, true, -1, [], none, false⟩

/-- The longest key that is not marked as one, in characters. -/
def longestKey : Nat := 1024

/-- The largest number of brackets and braces that are open at a time. -/
def maxFlowLevel : Nat := 255

/-- Whether the reader is between brackets or braces. -/
def inFlow (l : Lexer) : Bool := 0 < l.flowLevel

/-- Takes in a token. -/
def emit (l : Lexer) (t : Token) : Lexer :=
  { l with tokens := t :: l.tokens, count := l.count + 1 }

/-- Takes in a token in front of others, after a number of tokens. -/
def insert (l : Lexer) (number : Nat) (t : Token) : Lexer :=
  let later := l.count - number
  { l with
    tokens := l.tokens.take later ++ t :: l.tokens.drop later
    count := l.count + 1 }

/-- Goes on after something was read on the line. -/
def goTo (l : Lexer) (p : Place) : Lexer := { l with place := p, fresh := false }

/-- Goes on at a place that may be on a later line, where keys are allowed outside of
brackets and braces. -/
def follow (l : Lexer) (next : Place × Bool) : Lexer :=
  { l with
    place := next.1
    fresh := l.fresh || next.2
    keyAllowed := l.keyAllowed || (next.2 && !l.inFlow) }

/-- Goes on at the next place with content. -/
def seek (l : Lexer) : Option Lexer := (l.place.seek l.indent l.fresh).map l.follow

/-- Goes past the blanks and the comment that come next on the line. -/
def skipTrailer (l : Lexer) : Option Lexer :=
  l.place.skipTrailer.map fun p => { l with place := p }

/-- Whether a possible key is too far back to be one. Between brackets and braces it never
is. -/
def isStale (l : Lexer) (key : PossibleKey) : Bool :=
  !l.inFlow &&
    (key.line < l.place.line || key.column + longestKey < l.place.column)

/-- Gives up the possible key if it is too far back. -/
def dropStaleKey (l : Lexer) : Option Lexer :=
  match l.key with
  | none => some l
  | some key =>
    if !l.isStale key then some l
    else if key.required then none
    else some { l with key := none }

/-- Gives up the possible key. -/
def dropKey (l : Lexer) : Option Lexer :=
  if l.key.any (·.required) then none else some { l with key := none }

/-- Keeps in mind that a key may begin here. -/
def saveKey (l : Lexer) : Lexer :=
  if !l.keyAllowed then l
  else
    let required := !l.inFlow && l.indent == l.place.column && l.indents.head?.any (·.closes)
    { l with key := some ⟨l.count, l.place.line, l.place.column, required⟩ }

/-- The indentations that are left at a column, with the tokens of those that end. -/
def closeIndents (column : Int) (l : Lexer) : List Indent → Lexer
  | [] => { l with indents := [] }
  | top :: rest =>
    if column < l.indent then
      closeIndents column
        { (if top.closes then l.emit .endNested else l) with indent := top.outer } rest
    else { l with indents := top :: rest }

/-- Ends the lists and maps that are indented by more than a column. -/
def unroll (l : Lexer) (column : Int) : Lexer :=
  if l.inFlow then l else closeIndents column l l.indents

/-- The indentation and what it goes back to, without those that no list or map ends
with. -/
def dropLoose (indent : Int) : List Indent → Int × List Indent
  | [] => (indent, [])
  | top :: rest => if top.closes then (indent, top :: rest) else dropLoose top.outer rest

/-- Ends indentation that no list or map ends with. -/
def unrollLoose (l : Lexer) : Lexer :=
  let (indent, indents) := dropLoose l.indent l.indents
  { l with indent := indent, indents := indents }

/-- Begins a list or map at a column, unless one is open there. Its token comes after a
number of others. -/
def roll (l : Lexer) (column number : Nat) (t : Token) : Lexer :=
  if l.inFlow then l
  else
    let l := match l.indents with
      | top :: rest =>
        if l.indent ≤ (column : Int) && !top.closes then
          { l with indent := top.outer, indents := rest }
        else l
      | [] => l
    if l.indent < (column : Int) then
      { (l.insert number t) with indent := column, indents := ⟨l.indent, true⟩ :: l.indents }
    else l

/-- Indents by one more column what belongs to an item or a value. -/
def rollOne (l : Lexer) : Lexer :=
  if !l.inFlow && l.indents.head?.any (·.closes) then
    { l with indent := l.indent + 1, indents := ⟨l.indent, false⟩ :: l.indents }
  else l

end Lexer

end Backbox.Yaml
