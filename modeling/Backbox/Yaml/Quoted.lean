import Backbox.Text.Digit
import Backbox.Yaml.Plain

/-!
# Quoted scalars

In single quotes a quote is written twice and nothing else is special. In double quotes a
backslash begins an escape. Lines fold as in plain scalars, and a line break after a
backslash is left out. What is read is gathered with its last character first.
-/

namespace Backbox.Yaml

/-- The character that an escape of one letter stands for. -/
def escapeChar? : Char → Option Char
  | '0' => some (Char.ofNat 0x00)
  | 'a' => some (Char.ofNat 0x07)
  | 'b' => some (Char.ofNat 0x08)
  | 't' | '\t' => some '\t'
  | 'n' => some '\n'
  | 'v' => some (Char.ofNat 0x0B)
  | 'f' => some (Char.ofNat 0x0C)
  | 'r' => some '\r'
  | 'e' => some (Char.ofNat 0x1B)
  | ' ' => some ' '
  | '"' => some '"'
  | '/' => some '/'
  | '\\' => some '\\'
  | 'N' => some (Char.ofNat 0x85)
  | '_' => some (Char.ofNat 0xA0)
  | 'L' => some (Char.ofNat 0x2028)
  | 'P' => some (Char.ofNat 0x2029)
  | _ => none

/-- How many digits the escape of a code unit of UTF-16 has. -/
def unitDigits : Nat := 4

/-- How many hexadecimal digits follow an escape letter that names a code point. -/
def escapeDigits? : Char → Option Nat
  | 'x' => some 2
  | 'u' => some unitDigits
  | 'U' => some 8
  | _ => none

/-- The character of a code point. -/
def codePoint? (code : Nat) : Option Char :=
  if code < 0xD800 || (0xDFFF < code && code < 0x110000) then some (Char.ofNat code) else none

/-- Whether a code unit is the first half of a pair. -/
def isHighHalf (code : Nat) : Bool := 0xD800 ≤ code && code < 0xDC00

/-- The character of the two halves of a pair. -/
def pair? (high low : Nat) : Option Char :=
  if 0xDC00 ≤ low && low < 0xE000 then
    codePoint? (0x10000 + (high - 0xD800) * 0x400 + (low - 0xDC00))
  else none

/-- What a line of a quoted scalar has led to. -/
inductive QuotedLine where
  /-- The scalar is over; so many characters of the line are passed, and so much is left. -/
  | closed (done : List Char) (used : Nat) (rest : List Char)
  /-- The scalar goes on in the next line. -/
  | broken (done : List Char)
  /-- The scalar goes on in the next line, and the break itself is left out. -/
  | joined (done : List Char)

/-- Reads a line of a scalar in single quotes. The last `gaps` characters read are blanks,
which do not count at the end of the line. -/
def singleLine (done : List Char) (gaps used : Nat) : List Char → QuotedLine
  | [] => .broken (done.drop gaps)
  | '\'' :: '\'' :: rest => singleLine ('\'' :: done) 0 (used + 2) rest
  | '\'' :: rest => .closed done (used + 1) rest
  | c :: rest => singleLine (c :: done) (if isGap c then gaps + 1 else 0) (used + 1) rest

/-- An escape that is being read. -/
inductive Escape where
  /-- Between escapes. -/
  | between
  /-- After a backslash, possibly with the first half of a pair before it. -/
  | begun (high : Option Nat)
  /-- Among the digits of a code point: what they write so far, how many are to come, and
  whether a code unit is meant. -/
  | digits (high : Option Nat) (code left : Nat) (unit : Bool)
  /-- After the first half of a pair. -/
  | half (high : Nat)

/-- Reads a line of a scalar in double quotes. The last `gaps` characters read are blanks
that are not escaped, which do not count at the end of the line. -/
def doubleLine (escape : Escape) (done : List Char) (gaps used : Nat) :
    List Char → Option QuotedLine
  | [] => match escape with
    | .between => some (.broken (done.drop gaps))
    | .begun none => some (.joined done)
    | _ => none
  | c :: rest => match escape with
    | .between =>
      if c == '"' then some (.closed done (used + 1) rest)
      else if c == '\\' then doubleLine (.begun none) done 0 (used + 1) rest
      else doubleLine .between (c :: done) (if isGap c then gaps + 1 else 0) (used + 1) rest
    | .begun high =>
      match if high.isNone then escapeChar? c else none with
      | some named => doubleLine .between (named :: done) 0 (used + 1) rest
      | none => do
        let left ← escapeDigits? c
        let unit := left == unitDigits
        if high.isSome && !unit then none
        else doubleLine (.digits high 0 left unit) done 0 (used + 1) rest
    | .digits high code left unit => do
      let code := code * 16 + (← Text.hexDigit? c)
      if 1 < left then doubleLine (.digits high code (left - 1) unit) done 0 (used + 1) rest
      else
        match high with
        | some high => doubleLine .between ((← pair? high code) :: done) 0 (used + 1) rest
        | none =>
          if unit && isHighHalf code then doubleLine (.half code) done 0 (used + 1) rest
          else doubleLine .between ((← codePoint? code) :: done) 0 (used + 1) rest
    | .half high =>
      if c == '\\' then doubleLine (.begun (some high)) done 0 (used + 1) rest else none

/-- Reads a line of a scalar in quotes, of the kind that `quote` is. -/
def quotedLine (quote : Char) (done line : List Char) : Option QuotedLine :=
  if quote == '"' then doubleLine .between done 0 0 line else some (singleLine done 0 0 line)

/-- The lines of a quoted scalar after its first; `emptyLines` were passed since a line with
content, and `joins` tells whether the break after that one is left out. No line begins like
a document, and no tab comes before a margin. Outside of brackets and braces a line that
does more than end the scalar is indented by more than the margin, unless it is joined. -/
def quotedLines (quote : Char) (inFlow : Bool) (margin : Int) (done : List Char) (joins : Bool)
    (emptyLines number : Nat) : List (List Char) → Option (List Char × Place)
  | [] => none
  | line :: lines =>
    if hasEarlyTab margin line || isBoundary line then none
    else if line.all isGap then
      quotedLines quote inFlow margin done joins (emptyLines + 1) (number + 1) lines
    else
      let next := Place.inLine number line lines
      if !inFlow && !joins && next.rest.head? != some quote && (next.column : Int) ≤ margin then
        none
      else
        let between := if joins then List.replicate emptyLines '\n' else folded emptyLines
        match quotedLine quote (between ++ done) next.rest with
        | none => none
        | some (.closed done used rest) =>
          some (done, ⟨number, next.column + used, rest, lines⟩)
        | some (.broken done) =>
          quotedLines quote inFlow margin done false 0 (number + 1) lines
        | some (.joined done) =>
          quotedLines quote inFlow margin done true 0 (number + 1) lines

/-- Reads a scalar in quotes. -/
def quotedScalar (quote : Char) (inFlow : Bool) (margin : Int) (p : Place) :
    Option (String × Place) := do
  let start := p.advance 1
  let (done, after) ←
    match ← quotedLine quote [] start.rest with
    | .closed done used rest =>
      some (done, { start with column := start.column + used, rest := rest })
    | .broken done => quotedLines quote inFlow margin done false 0 (p.line + 1) p.lines
    | .joined done => quotedLines quote inFlow margin done true 0 (p.line + 1) p.lines
  return (String.ofList done.reverse, after)

end Backbox.Yaml
