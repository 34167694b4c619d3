import Backbox.Text.Utf8

/-!
# Base64

Bytes in groups of three, each written as four letters of an alphabet of 64. A last group of
one or two bytes is filled up with `=`, and the bits that it does not need are zero.
-/

namespace Backbox.Text.Base64

/-- The number that a letter of the alphabet stands for. -/
def letterValue? (c : Char) : Option Nat :=
  if 'A' ≤ c ∧ c ≤ 'Z' then some (c.toNat - 'A'.toNat)
  else if 'a' ≤ c ∧ c ≤ 'z' then some (c.toNat - 'a'.toNat + 26)
  else if '0' ≤ c ∧ c ≤ '9' then some (c.toNat - '0'.toNat + 52)
  else if c = '+' then some 62
  else if c = '/' then some 63
  else none

/-- The bytes that letters stand for. -/
def decode? : List Char → Option Bytes
  | [] => some []
  | [a, b, '=', '='] => do
    let bits := (← letterValue? a) * 64 + (← letterValue? b)
    if bits % 16 = 0 then some [UInt8.ofNat (bits / 16)] else none
  | [a, b, c, '='] => do
    let bits := ((← letterValue? a) * 64 + (← letterValue? b)) * 64 + (← letterValue? c)
    if bits % 4 = 0 then some [UInt8.ofNat (bits / 1024), UInt8.ofNat (bits / 4)] else none
  | a :: b :: c :: d :: rest => do
    let bits := (((← letterValue? a) * 64 + (← letterValue? b)) * 64 + (← letterValue? c)) * 64 +
      (← letterValue? d)
    return UInt8.ofNat (bits / 65536) :: UInt8.ofNat (bits / 256) :: UInt8.ofNat bits ::
      (← decode? rest)
  | _ => none

/-- The text that letters stand for; blanks among them count for nothing. -/
def text? (written : String) : Option String := do
  let bs ← decode? (written.toList.filter (!·.isWhitespace))
  let text := ofBytes bs
  if bytes text = bs then some text else none

end Backbox.Text.Base64
