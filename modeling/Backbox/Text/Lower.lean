import Backbox.Text.LetterCase

/-!
# Lower-casing

Full lower-casing of a text. A character goes to its lower-case partner, with two
exceptions: U+0130 becomes `i` and U+0307, and a capital sigma at the end of a word
becomes the final sigma U+03C2. A sigma ends a word when a cased character stands
before it and none after it, characters ignored by case being looked through.
-/

namespace Backbox.Text

/-- Whether a character has a case. -/
def isCased (c : Char) : Bool := inRanges casedRanges c.toNat

/-- Whether a character is looked through at the end of a word. -/
def isCaseIgnorable (c : Char) : Bool := inRanges caseIgnorableRanges c.toNat

/-- The lower-case partner of a code point, itself where it has none. -/
def lowerCode (code : Nat) : Nat :=
  match caseRuns.find? (·.covers code) with
  | some run => run.lowered code
  | none => code

/-- The lower-case form of one character away from the end of a word. -/
def lowerChar (c : Char) : List Char :=
  if c.toNat < 0x80 then
    if 'A' ≤ c ∧ c ≤ 'Z' then [Char.ofNat (c.toNat + 32)] else [c]
  else if c.toNat = 0x130 then ['i', Char.ofNat 0x307]
  else [Char.ofNat (lowerCode c.toNat)]

/-- Whether the first character that is not looked through has a case. -/
def startsCased (cs : List Char) : Bool :=
  match cs.find? (!isCaseIgnorable ·) with
  | some c => isCased c
  | none => false

/-- The lower-case form of a capital sigma: final when a cased character precedes it
and none follows. -/
def lowerSigma (afterCased : Bool) (rest : List Char) : Char :=
  if afterCased && !startsCased rest then Char.ofNat 0x3C2 else Char.ofNat 0x3C3

/-- Whether the text read so far ends, up to characters that are looked through, in a
cased character. -/
def endsCased (afterCased : Bool) (c : Char) : Bool :=
  if isCaseIgnorable c then afterCased else isCased c

/-- Lower-cases the rest of a text; `done` is what is finished, last character first. -/
def lowerFrom (done : List Char) (afterCased : Bool) : List Char → List Char
  | [] => done.reverse
  | c :: rest =>
    let next := if c.toNat = 0x3A3 then [lowerSigma afterCased rest] else lowerChar c
    lowerFrom (next.reverse ++ done) (endsCased afterCased c) rest

/-- The lower-case form of a list of characters. -/
def lowerList (cs : List Char) : List Char := lowerFrom [] false cs

/-- The lower-case form of a text. -/
def lower (s : String) : String := String.ofList (lowerList s.toList)

/-- The finished part stands in front of what the rest gives. -/
theorem lowerFrom_eq_append (done : List Char) (afterCased : Bool) (cs : List Char) :
    lowerFrom done afterCased cs = done.reverse ++ lowerFrom [] afterCased cs := by
  induction cs generalizing done afterCased with
  | nil => simp [lowerFrom]
  | cons c rest ih =>
    rw [lowerFrom, ih, lowerFrom, ih (_ ++ [])]
    simp

end Backbox.Text
