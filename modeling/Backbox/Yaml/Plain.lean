import Backbox.Yaml.Place

/-!
# Plain scalars

A plain scalar is written without quotes. It goes on over several lines: a line break reads
as a space, and each empty line as a line break; the blanks around a break do not count.
What is read is gathered with its last character first.
-/

namespace Backbox.Yaml

/-- A scalar that was read, and where the reader is after it. -/
structure Scanned where
  text : String
  after : Place
  /-- Whether nothing but blanks has been read on the line where the reader is. -/
  fresh : Bool

/-- Whether a plain scalar goes on with the first of some characters. -/
def isPlainSafe (inFlow : Bool) : List Char → Bool
  | [] => false
  | c :: rest =>
    !(inFlow && isFlowIndicator c) &&
      (c != ':' || rest.head?.any fun next => !isGap next && !(inFlow && isFlowIndicator next))

/-- A piece of a plain scalar on one line. -/
structure PlainPiece where
  /-- The characters up to the last word, last one first. -/
  done : List Char
  /-- How many characters of the line are passed. -/
  used : Nat
  rest : List Char

/-- Reads words on a line. The blanks since the last word are in `gaps`; `atWord` tells
whether a word begins. Between brackets or braces no word is a dash before an indicator. -/
def plainWords (inFlow atWord : Bool) (done gaps : List Char) (used : Nat) :
    List Char → Option PlainPiece
  | [] => some ⟨done, used, []⟩
  | c :: rest =>
    if isGap c then plainWords inFlow true done (c :: gaps) (used + 1) rest
    else if atWord && c == '#' then some ⟨done, used, c :: rest⟩
    else if atWord && inFlow && c == '-' && rest.head?.any isFlowIndicator then none
    else if !isPlainSafe inFlow (c :: rest) then some ⟨done, used, c :: rest⟩
    else plainWords inFlow false (c :: gaps ++ done) [] (used + 1) rest

/-- What stands for a line break and a number of empty lines after it. -/
def folded (emptyLines : Nat) : List Char :=
  if emptyLines = 0 then [' '] else List.replicate emptyLines '\n'

/-- The lines of a plain scalar after its first; `emptyLines` were passed since a line with
content. Outside of brackets and braces the lines are indented by a limit at least. A tab
before the limit stands only in a line without content. The result is what was read, the
place after it, and whether nothing but blanks was read on the line. -/
def plainLines (inFlow : Bool) (limit : Int) (done : List Char) (emptyLines number : Nat) :
    List (List Char) → Option (List Char × Place × Bool)
  | [] => none
  | line :: lines =>
    let early := hasEarlyTab limit line
    if line.all isGap || (early && isSpent line) then
      if lines.isEmpty then some (done, ⟨number, line.length, [], []⟩, true)
      else plainLines inFlow limit done (emptyLines + 1) (number + 1) lines
    else if early then none
    else
      let next := Place.inLine number line lines
      if (!inFlow && (next.column : Int) < limit) || isBoundary next.rest then
        some (done, next, true)
      else
        match plainWords inFlow true [] [] 0 next.rest with
        | none => none
        | some ⟨[], _, _⟩ => some (done, next, true)
        | some ⟨piece, used, rest⟩ =>
          let done := piece ++ folded emptyLines ++ done
          if rest.isEmpty && !lines.isEmpty then
            plainLines inFlow limit done 0 (number + 1) lines
          else some (done, ⟨number, next.column + used, rest, lines⟩, false)

/-- Reads a plain scalar; when the line is `fresh`, only blanks come before it. -/
def plainScalar (inFlow fresh : Bool) (limit : Int) (p : Place) : Option Scanned :=
  if (inFlow && (p.column : Int) < limit) || (fresh && isBoundary p.rest) then none
  else
    match plainWords inFlow true [] [] 0 p.rest with
    | none | some ⟨[], _, _⟩ => none
    | some ⟨done, used, rest⟩ =>
      let read :=
        if rest.isEmpty && !p.lines.isEmpty then
          plainLines inFlow limit done 0 (p.line + 1) p.lines
        else some (done, { p with column := p.column + used, rest := rest }, false)
      read.map fun (done, after, fresh) => ⟨String.ofList done.reverse, after, fresh⟩

end Backbox.Yaml
