import Backbox.Text.Utf8

/-!
# Form encoding

The encoding `application/x-www-form-urlencoded` of a list of key and value texts.
Letters, digits and `*-._` stand for themselves, a space is written `+`, and every
other byte of the UTF-8 form is written `%` and two upper-case hexadecimal digits. A
key and its value are joined by `=`, pairs by `&`.

Reading takes any text: it never fails, and what is not an escape stands for itself.
-/

namespace Backbox.Text.Form

/-- The byte of `+`. -/
def plus : UInt8 := 0x2B
/-- The byte of a space. -/
def space : UInt8 := 0x20
/-- The byte of `%`. -/
def percent : UInt8 := 0x25
/-- The byte of `&`. -/
def ampersand : UInt8 := 0x26
/-- The byte of `=`. -/
def equals : UInt8 := 0x3D

/-- Whether a byte is written as itself. -/
def isPlain (b : UInt8) : Bool :=
  (0x30 ≤ b && b ≤ 0x39) || (0x41 ≤ b && b ≤ 0x5A) || (0x61 ≤ b && b ≤ 0x7A) ||
    b == 0x2A || b == 0x2D || b == 0x2E || b == 0x5F

/-- The upper-case hexadecimal digit of a number below sixteen, as a byte. -/
def hexDigit (n : UInt8) : UInt8 := if n < 10 then 0x30 + n else 0x37 + n

/-- The number that a hexadecimal digit stands for. -/
def hexValue? (b : UInt8) : Option UInt8 :=
  if 0x30 ≤ b && b ≤ 0x39 then some (b - 0x30)
  else if 0x41 ≤ b && b ≤ 0x46 then some (b - 0x37)
  else if 0x61 ≤ b && b ≤ 0x66 then some (b - 0x57)
  else none

/-- The bytes that one byte is written as. -/
def escapeByte (b : UInt8) : Bytes :=
  if isPlain b then [b]
  else if b = space then [plus]
  else [percent, hexDigit (b / 16), hexDigit (b % 16)]

/-- The written form of bytes. -/
def escape (bs : Bytes) : Bytes := bs.flatMap escapeByte

/-- The byte that two hexadecimal digits at the front name. -/
def escaped? : Bytes → Option UInt8
  | high :: low :: _ =>
    match hexValue? high, hexValue? low with
    | some h, some l => some (h * 16 + l)
    | _, _ => none
  | _ => none

/-- Reads written bytes back: `+` is a space, `%` and two hexadecimal digits are the
byte they name, everything else stands for itself. The first `skip` bytes belong to an
escape already read; `done` holds what is read so far, last byte first. -/
def unescapeFrom (done : Bytes) (skip : Nat) : Bytes → Bytes
  | [] => done.reverse
  | b :: rest =>
    if 0 < skip then unescapeFrom done (skip - 1) rest
    else if b = plus then unescapeFrom (space :: done) 0 rest
    else
      match if b = percent then escaped? rest else none with
      | some named => unescapeFrom (named :: done) 2 rest
      | none => unescapeFrom (b :: done) 0 rest

/-- The bytes that written bytes stand for. -/
def unescape (bs : Bytes) : Bytes := unescapeFrom [] 0 bs

/-- Cuts bytes at every occurrence of a separator, which is left out: one piece more
than there are separators. -/
def pieces (separator : UInt8) (bs : Bytes) : List Bytes :=
  bs.foldr (fun b parts => if b = separator then [] :: parts else
    match parts with
    | part :: parts => (b :: part) :: parts
    | [] => [[b]]) [[]]

/-- The written form of one pair. -/
def encodePair (pair : String × String) : Bytes :=
  escape (bytes pair.1) ++ equals :: escape (bytes pair.2)

/-- The written form of a list of pairs, as bytes. -/
def encodeBytes (pairs : List (String × String)) : Bytes :=
  [ampersand].intercalate (pairs.map encodePair)

/-- The written form of a list of pairs: ASCII text. -/
def encode (pairs : List (String × String)) : String :=
  String.ofList ((encodeBytes pairs).map fun b => Char.ofNat b.toNat)

/-- Reads one piece: the key ends at the first `=`, and without one the value is empty. -/
def decodePair (piece : Bytes) : String × String :=
  let key := piece.takeWhile (· ≠ equals)
  let value := (piece.dropWhile (· ≠ equals)).drop 1
  (ofBytes (unescape key), ofBytes (unescape value))

/-- The pairs that bytes read as; empty pieces are passed over. -/
def decodeBytes (bs : Bytes) : List (String × String) :=
  ((pieces ampersand bs).filter (!·.isEmpty)).map decodePair

/-- The pairs that a text reads as. -/
def decode (s : String) : List (String × String) := decodeBytes (bytes s)

end Backbox.Text.Form
