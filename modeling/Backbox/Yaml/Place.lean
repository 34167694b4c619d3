/-!
# Places in a text

A text is read line by line. A place is where the reader is: the number of the line, the
column, the rest of the current line, and the lines after it. Blanks are spaces and tabs;
a comment runs from a `#` to the end of its line.
-/

namespace Backbox.Yaml

/-- A place in a text. -/
structure Place where
  line : Nat
  column : Nat
  rest : List Char
  lines : List (List Char)
  deriving Inhabited

/-- Whether a character separates words on a line. -/
def isGap (c : Char) : Bool := c == ' ' || c == '\t'

/-- Whether a character shapes lists and maps between brackets and braces. -/
def isFlowIndicator (c : Char) : Bool :=
  c == ',' || c == '[' || c == ']' || c == '{' || c == '}'

/-- Cuts a text into lines at every line break: carriage return, line feed, or both. What
follows the last break is a line too, even when it is empty. -/
def linesOf (text : List Char) : List (List Char) :=
  let (done, current, _) := text.foldl (fun (done, current, afterReturn) c =>
    if c == '\n' then
      if afterReturn then (done, current, false) else (current.reverse :: done, [], false)
    else if c == '\r' then (current.reverse :: done, [], true)
    else (done, c :: current, false)) (([] : List (List Char)), ([] : List Char), false)
  (current.reverse :: done).reverse

/-- Whether nothing but blanks and a comment is left of a line. -/
def isSpent (rest : List Char) : Bool :=
  match rest.dropWhile isGap with
  | [] => true
  | c :: _ => c == '#'

/-- The number of spaces at the front of a line. -/
def indentOf (line : List Char) : Nat := (line.takeWhile (· == ' ')).length

/-- Whether a tab stands before a column of a line, with only spaces before it. -/
def hasEarlyTab (margin : Int) (line : List Char) : Bool :=
  (indentOf line : Int) < margin && (line.drop (indentOf line)).head? == some '\t'

/-- Whether a marker is all that stands at the front of a line up to a blank. -/
def isMarker (marker : List Char) (line : List Char) : Bool :=
  marker.isPrefixOf line && (line.drop marker.length).head?.all isGap

/-- The marker of a document's begin. -/
def beginMarker : List Char := ['-', '-', '-']

/-- The marker of a document's end. -/
def endMarker : List Char := ['.', '.', '.']

/-- Whether the begin or the end of a document is marked at the front of a line. -/
def isBoundary (line : List Char) : Bool := isMarker beginMarker line || isMarker endMarker line

namespace Place

/-- The place at the front of a list of lines. -/
def ofLines : List (List Char) → Place
  | [] => ⟨0, 0, [], []⟩
  | line :: lines => ⟨0, 0, line, lines⟩

/-- The place of the first character of a line that is no blank. -/
def inLine (number : Nat) (line : List Char) (lines : List (List Char)) : Place :=
  let gap := (line.takeWhile isGap).length
  ⟨number, gap, line.drop gap, lines⟩

/-- The number of characters and lines that are left. -/
def size (p : Place) : Nat :=
  p.rest.length + p.lines.foldl (fun n line => n + line.length + 1) 1

/-- Whether nothing is left of the text. -/
def atEnd (p : Place) : Bool := p.rest.isEmpty && p.lines.isEmpty

/-- Whether a line break comes next. -/
def atBreak (p : Place) : Bool := p.rest.isEmpty && !p.lines.isEmpty

/-- The place after some characters of the line. -/
def advance (p : Place) (count : Nat) : Place :=
  { p with column := p.column + count, rest := p.rest.drop count }

/-- The end of the line. -/
def endOfLine (p : Place) : Place := p.advance p.rest.length

/-- The place after the blanks that come next on the line. -/
def skipGaps (p : Place) : Place := p.advance (p.rest.takeWhile isGap).length

/-- The place after the blanks and the comment that come next on the line. A comment does not
follow at once. -/
def skipTrailer (p : Place) : Option Place :=
  if p.rest.head? == some '#' then none
  else
    let after := p.skipGaps
    if after.rest.head? == some '#' then some after.endOfLine else some after

/-- Whether a character comes next and a blank or the end of the line after it. -/
def startsWith (p : Place) (indicator : Char) : Bool :=
  match p.rest with
  | c :: next => c == indicator && next.head?.all isGap
  | [] => false

/-- The first place with content in some lines, the first of which has a number, or the end
of the text. A tab does not come before a margin in front of content. -/
def seekLines (margin : Int) (number : Nat) : List (List Char) → Option Place
  | [] => some ⟨number, 0, [], []⟩
  | line :: lines =>
    if isSpent line then
      if lines.isEmpty then some ⟨number, line.length, [], []⟩
      else seekLines margin (number + 1) lines
    else if hasEarlyTab margin line then none
    else some (inLine number line lines)

/-- The next place with content, on this line or a later one, or the end of the text; and
whether it is on a later line. When the line is `fresh`, only blanks were read on it. -/
def seek (margin : Int) (fresh : Bool) (p : Place) : Option (Place × Bool) :=
  if isSpent p.rest then
    if p.lines.isEmpty then some (p.endOfLine, false)
    else (seekLines margin (p.line + 1) p.lines).map (·, true)
  else if fresh && hasEarlyTab (margin - p.column) p.rest then none
  else some (p.skipGaps, false)

/-- Like `seekLines`, with no tab at all in front of what follows. -/
def seekSpacedLines (number : Nat) : List (List Char) → Option Place
  | [] => some ⟨number, 0, [], []⟩
  | line :: lines =>
    let indent := indentOf line
    match line.drop indent with
    | '\t' :: _ => none
    | [] | '#' :: _ =>
      if lines.isEmpty then some ⟨number, line.length, [], []⟩
      else seekSpacedLines (number + 1) lines
    | content => some ⟨number, indent, content, lines⟩

/-- Like `seek`, after a space or a line break that has to come next, and with no tab at all
in front of what follows. -/
def seekSpaced (p : Place) : Option (Place × Bool) :=
  if p.atBreak then (seekSpacedLines (p.line + 1) p.lines).map (·, true)
  else if p.rest.head? == some ' ' then
    let after := p.advance (indentOf p.rest)
    match after.rest with
    | '\t' :: _ => none
    | [] | '#' :: _ =>
      if p.lines.isEmpty then some (after.endOfLine, false)
      else (seekSpacedLines (p.line + 1) p.lines).map (·, true)
    | _ => some (after, false)
  else none

end Place

end Backbox.Yaml
