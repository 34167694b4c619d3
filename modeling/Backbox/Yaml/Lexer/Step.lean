import Backbox.Yaml.Block
import Backbox.Yaml.Lexer.Basic
import Backbox.Yaml.Quoted
import Backbox.Yaml.Tag

/-!
# Reading tokens

Tokens are read from the left, one kind of token by one function. An ill-formed text has the
tokens that were certain before the fault was met: those before the first possible key. The
last token of a well-formed text is its end.
-/

namespace Backbox.Yaml

namespace Lexer

/-- Reads an opening bracket or brace. -/
def openFlow (l : Lexer) (t : Token) : Option Lexer := do
  let l := (l.saveKey).rollOne
  if maxFlowLevel ≤ l.flowLevel then none
  else
    let l := { l with
      key := none, outerKeys := l.key :: l.outerKeys, flowLevel := l.flowLevel + 1,
      keyAllowed := true }
    ((l.goTo (l.place.advance 1)).emit t).skipTrailer

/-- Reads a closing bracket or brace. -/
def closeFlow (l : Lexer) (t : Token) : Option Lexer := do
  let l ← l.dropKey
  match l.outerKeys with
  | [] => none
  | key :: outer =>
    let l := { l with
      key := key, outerKeys := outer, flowLevel := l.flowLevel - 1, keyAllowed := false }
    let l ← ((l.goTo (l.place.advance 1)).emit t).skipTrailer
    if l.inFlow then return { l with adjacentAt := some (l.place.line, l.place.column) }
    else return l

/-- Reads a comma. -/
def comma (l : Lexer) : Option Lexer := do
  let l ← l.dropKey
  let l := { l with keyAllowed := true }
  ((l.goTo (l.place.advance 1)).emit .comma).skipTrailer

/-- Reads the dash of an item. -/
def item (l : Lexer) : Option Lexer := do
  if l.inFlow || !l.keyAllowed then none
  else
    let after := l.place.advance 1
    let l := (l.goTo after).roll l.place.column l.count .beginList
    let l ← l.skipTrailer
    let hadTab := (after.rest.takeWhile isGap).contains '\t'
    if hadTab && l.place.startsWith '-' then none
    else
      let endsLine := l.place.atBreak || l.place.rest.head?.any isFlowIndicator
      let l ← (if endsLine then l.rollOne else l).dropKey
      return { l.emit .item with keyAllowed := true }

/-- Reads the question mark of a key. -/
def explicitKey (l : Lexer) : Option Lexer := do
  if !l.inFlow && !l.keyAllowed then none
  else
    let l := l.roll l.place.column l.count .beginMap
    let l ← l.dropKey
    let l := { l with keyAllowed := !l.inFlow }
    let next ← (l.place.advance 1).seekSpaced
    return ((l.goTo next.1).follow next).emit .key

/-- Whether a character begins a word that does not follow a colon after tabs alone. -/
def isWordStart (c : Char) : Bool := c.isAlphanum || c == '_' || c == '-'

/-- Reads the colon of a value. If a key may have begun before it, the tokens of the key are
put in its front. -/
def value (l : Lexer) : Option Lexer := do
  let column := l.place.column
  let after := l.place.advance 1
  let gaps := after.rest.takeWhile isGap
  let l ←
    if gaps.head? == some '\t' then do
      let next ← after.skipTrailer
      if !gaps.contains ' ' && next.rest.head?.any isWordStart then none
      else some (l.goTo next)
    else some (l.goTo after)
  match l.key with
  | some key =>
    let l := ((l.insert key.number .key).roll key.column key.number .beginMap).rollOne
    return { l.emit .value with key := none, keyAllowed := false }
  | none =>
    if l.inFlow then return { l.emit .value with keyAllowed := false }
    else if !l.keyAllowed then none
    else
      let l := (l.roll column l.count .beginMap).rollOne
      return { l.emit .value with keyAllowed := true }

/-- Reads a colon between brackets or braces that a value touches, or an indicator. -/
def flowValue (l : Lexer) (next : List Char) : Option Lexer :=
  let isAdjacent := l.adjacentAt == some (l.place.line, l.place.column)
  if !isAdjacent && next.head?.any fun c => c == '[' || c == '{' then none else l.value

/-- Reads a name after an indicator. -/
def name (l : Lexer) (token : String → Token) : Option Lexer :=
  let l := { l.saveKey with keyAllowed := false }
  let name := (l.place.rest.drop 1).takeWhile fun c =>
    !isGap c && !isFlowIndicator c && c.toNat != 0xFEFF
  if name.isEmpty then none
  else some ((l.goTo (l.place.advance (name.length + 1))).emit (token (String.ofList name)))

/-- Reads a tag. A blank comes after it, or an indicator between brackets or braces. -/
def tag (l : Lexer) : Option Lexer := do
  let l := { l.saveKey with keyAllowed := false }
  let (handle, rest, used) ← tagAt l.place.rest
  let after := l.place.advance used
  if after.rest.head?.all fun c => isGap c || (l.inFlow && isFlowIndicator c) then
    return (l.goTo after).emit (.tag handle rest)
  else none

/-- Reads a block of lines. -/
def block (l : Lexer) : Option Lexer := do
  let l := { l.saveKey with keyAllowed := true }.unrollLoose
  let scanned ← blockScalar l.indent l.place
  return { l.emit (.scalar false scanned.text) with
    place := scanned.after, fresh := scanned.fresh }

/-- Whether a place may come after a scalar in quotes that began in a line. -/
def endsQuoted (l : Lexer) (line : Nat) : Bool :=
  match l.place.rest with
  | [] => true
  | c :: _ =>
    if l.inFlow then c == ',' || c == '}' || c == ']' || c == ':'
    else c == ':' && line == l.place.line

/-- Reads a scalar in quotes. -/
def quoted (l : Lexer) (quote : Char) : Option Lexer := do
  let line := l.place.line
  let l := { l.saveKey with keyAllowed := false }
  let (text, after) ← quotedScalar quote l.inFlow l.indent l.place
  let l ← (l.goTo after).skipTrailer
  if !l.endsQuoted line then none
  else
    let l ← l.seek
    return { l.emit (.scalar false text) with
      adjacentAt := some (l.place.line, l.place.column) }

/-- Reads a plain scalar. After one that runs over to a new line, keys are allowed there. -/
def plain (l : Lexer) : Option Lexer := do
  let fresh := l.fresh
  let l := l.saveKey.unrollLoose
  let scanned ← plainScalar l.inFlow fresh (l.indent + 1) l.place
  return { l.emit (.scalar true scanned.text) with
    place := scanned.after, fresh := scanned.fresh, keyAllowed := scanned.fresh }

/-- Reads a line with a directive. -/
def directiveLine (l : Lexer) : Option Lexer := do
  let l ← (l.unroll (-1)).dropKey
  let (found, rest) ← directiveAt (l.place.rest.drop 1)
  let after ← { l.place with rest := rest }.skipTrailer
  if !after.rest.isEmpty then none
  else
    let place : Place := match l.place.lines with
      | [] => { l.place with rest := [] }
      | line :: lines => ⟨l.place.line + 1, 0, line, lines⟩
    return { l.emit (.directive found) with place := place, fresh := true, keyAllowed := false }

/-- Reads the marker of a document's begin or end. -/
def marker (l : Lexer) (t : Token) : Option Lexer := do
  let l ← (l.unroll (-1)).dropKey
  let l := { (l.goTo (l.place.advance beginMarker.length)).emit t with keyAllowed := false }
  if t = .endDocument then
    let l ← l.skipTrailer
    if l.place.rest.isEmpty then return l else none
  else return l

/-- Reads the end of the text. No bracket or brace is open there. -/
def finish (l : Lexer) : Option Lexer := do
  if l.inFlow then none
  else
    let l ← (l.unroll (-1)).dropKey
    return { l.emit .endText with isDone := true }

/-- Reads a token that is not bound to the front of a line. -/
def dispatch (l : Lexer) (c : Char) (next : List Char) : Option Lexer :=
  let endsWord := next.head?.all isGap
  match c with
  | '[' => l.openFlow .openBracket
  | '\x7b' => l.openFlow .openBrace
  | ']' => l.closeFlow .closeBracket
  | '\x7d' => l.closeFlow .closeBrace
  | ',' => l.comma
  | '*' => l.name .reference
  | '&' => l.name .anchor
  | '!' => l.tag
  | '\'' | '"' => l.quoted c
  | '-' => if endsWord then l.item else l.plain
  | '?' => if endsWord then l.explicitKey else l.plain
  | ':' =>
    if endsWord then l.value
    else if l.inFlow && (next.head?.any isFlowIndicator ||
        l.adjacentAt == some (l.place.line, l.place.column)) then
      l.flowValue next
    else l.plain
  | '|' | '>' => if l.inFlow then l.plain else l.block
  | '%' | '@' | '\x60' => none
  | _ => l.plain

/-- Whether a character ends an item between brackets or braces; it may stand at any
column. -/
def endsItem (c : Char) : Bool := c == ']' || c == '\x7d' || c == ','

/-- Reads the next token. -/
def step (l : Lexer) : Option Lexer := do
  let l ← (← l.seek).dropStaleKey
  let l := l.unroll l.place.column
  match l.place.rest with
  | [] => l.finish
  | c :: next =>
    if l.place.column == 0 && c == '%' then l.directiveLine
    else if l.place.column == 0 && isMarker beginMarker l.place.rest then l.marker .beginDocument
    else if l.place.column == 0 && isMarker endMarker l.place.rest then l.marker .endDocument
    else if (l.place.column : Int) < l.indent && !(l.inFlow && endsItem c) then none
    else l.dispatch c next

/-- The tokens that are certain when a fault is met. -/
def certain (l : Lexer) : List Token :=
  let keys := (if l.key.any l.isStale then none else l.key) :: l.outerKeys
  let count := keys.foldl (fun n key => min n ((key.map (·.number)).getD n)) l.count
  (l.tokens.drop (l.count - count)).reverse

/-- The tokens from a place on; no more steps are made than the bound says. -/
def run : Nat → Lexer → List Token
  | 0, l => l.certain
  | bound + 1, l =>
    match l.step with
    | none => l.certain
    | some l => if l.isDone then l.tokens.reverse else run bound l

end Lexer

/-- The tokens of a text. -/
def tokensAt (p : Place) : List Token := Lexer.run (p.size + 2) (Lexer.start p)

end Backbox.Yaml
