import Backbox.Yaml.Plain

/-!
# Block scalars

A block scalar is the text of indented lines. After `|` their line breaks are kept; after
`>` they fold like those of other scalars, but not next to a line that is indented further.
The last breaks are kept, clipped to one, or stripped.
-/

namespace Backbox.Yaml

/-- What is done with the line breaks at the end of a block. -/
inductive Chomping where
  | strip
  | clip
  | keep
  deriving DecidableEq

/-- The header of a block: whether line breaks fold, what is done with the last ones, and
the indentation if it is given. -/
structure BlockHeader where
  folds : Bool
  chomping : Chomping
  indent : Option Nat

namespace BlockHeader

/-- Reads what is done with the last line breaks. -/
def chomping? : Char → Option Chomping
  | '-' => some .strip
  | '+' => some .keep
  | _ => none

/-- Reads an indentation, which is not zero. -/
def indent? (c : Char) : Option Nat :=
  if '1' ≤ c ∧ c ≤ '9' then some (c.toNat - '0'.toNat) else none

/-- The header that begins with an indicator, and how many characters it takes. -/
def read (indicator : Char) (rest : List Char) : BlockHeader × Nat :=
  let folds := indicator == '>'
  let first := rest.head?
  let second := (rest.drop 1).head?
  match first.bind chomping?, first.bind indent? with
  | some chomping, _ =>
    match second.bind indent? with
    | some indent => (⟨folds, chomping, some indent⟩, 3)
    | none => (⟨folds, chomping, none⟩, 2)
  | none, some indent =>
    match second.bind chomping? with
    | some chomping => (⟨folds, chomping, some indent⟩, 3)
    | none => (⟨folds, .clip, some indent⟩, 2)
  | none, none => (⟨folds, .clip, none⟩, 1)

end BlockHeader

/-- A block that is read up to some line. -/
structure BlockText where
  /-- The text so far, last character first. -/
  done : List Char
  /-- Whether a line of text was read. -/
  began : Bool
  /-- Whether a line break follows the text so far. -/
  broken : Bool
  /-- The empty lines since. -/
  emptyLines : Nat
  /-- Whether the last line of text begins with a blank. -/
  indented : Bool

namespace BlockText

/-- Nothing has been read. -/
def start : BlockText := ⟨[], false, false, 0, false⟩

/-- Takes in a line of text. -/
def add (t : BlockText) (folds : Bool) (content : List Char) : BlockText :=
  let indented := content.head?.any isGap
  let between :=
    if folds && t.broken && !t.indented && !indented then folded t.emptyLines
    else List.replicate ((if t.broken then 1 else 0) + t.emptyLines) '\n'
  ⟨content.reverse ++ between ++ t.done, true, true, 0, indented⟩

/-- The text once the block is over; `openEnd` tells whether the text of the whole document
ends in an indented line that is not ended itself. -/
def finish (t : BlockText) (chomping : Chomping) (openEnd : Bool) : List Char :=
  let last := (if t.broken then 1 else 0) + (if openEnd then 1 else 0)
  match chomping with
  | .strip => t.done
  | .clip => List.replicate last '\n' ++ t.done
  | .keep => List.replicate (last + t.emptyLines) '\n' ++ t.done

end BlockText

/-- Reads the lines of a block, which are indented by `indent`, and lines without content
among them; and the place of the first other line. Lines that are not indented at all end at
the end of a document. -/
def blockLines (folds : Bool) (indent number : Nat) (t : BlockText) :
    List (List Char) → BlockText × Place
  | [] => (t, ⟨number, 0, [], []⟩)
  | line :: lines =>
    let column := min indent (indentOf line)
    let content := line.drop column
    if content.isEmpty then
      if lines.isEmpty then (t, ⟨number, column, [], []⟩)
      else
        blockLines folds indent (number + 1) { t with emptyLines := t.emptyLines + 1 } lines
    else if column < indent || (indent == 0 && isMarker endMarker content) then
      (t, ⟨number, column, content, lines⟩)
    else
      let t := t.add folds content
      if lines.isEmpty then
        ({ t with broken := false }, ⟨number, column + content.length, [], []⟩)
      else blockLines folds indent (number + 1) t lines

/-- The indentation of a block inside of an indentation: that of its first line with
content, but not less than that of an empty line before it. -/
def blockIndent (parent : Int) (lines : List (List Char)) : Nat :=
  let empty := lines.takeWhile fun line => line.all (· == ' ')
  let first := (lines.drop empty.length).head?
  let widest := (empty ++ first.toList).foldl (fun n line => max n (indentOf line)) 0
  max widest (parent + 1).toNat

/-- Reads a block of lines inside of an indentation. -/
def blockScalar (parent : Int) (p : Place) : Option Scanned := do
  let (header, used) := BlockHeader.read (← p.rest.head?) (p.rest.drop 1)
  let after ← (p.advance used).skipTrailer
  if !after.rest.isEmpty then none
  else
    match after.lines with
    | [] => some ⟨"", after, false⟩
    | line :: lines =>
      if line.head? == some '\t' then none
      else
        let lines := line :: lines
        let indent := match header.indent with
          | some more => (max parent 0).toNat + more
          | none => blockIndent parent lines
        let (t, next) := blockLines header.folds indent (p.line + 1) .start lines
        if !t.began && next.atEnd then
          let breaks := match header.chomping with
            | .strip => 0
            | .clip => 1
            | .keep => max t.emptyLines 1
          some ⟨String.ofList (List.replicate breaks '\n'), next, true⟩
        else if !t.began && next.column < indent && parent < next.column then none
        else
          let openEnd := next.atEnd && max indent 1 ≤ next.column
          some ⟨String.ofList (t.finish header.chomping openEnd).reverse, next, true⟩

end Backbox.Yaml
