/-!
# UTF-8

The UTF-8 bytes of a text, and the text of any bytes. Bytes that are not UTF-8 read
as U+FFFD, once for each longest stretch that begins a character and cannot be
completed, and once for each byte that cannot begin a character.
-/

namespace Backbox

/-- Bytes as they travel to and from a peer. -/
abbrev Bytes := List UInt8

namespace Text

/-- The UTF-8 bytes of a list of characters. -/
def encodeUtf8 (cs : List Char) : Bytes := cs.flatMap String.utf8EncodeChar

/-- The UTF-8 bytes of a text. -/
def bytes (s : String) : Bytes := encodeUtf8 s.toList

/-- The character that stands for bytes that are not UTF-8. -/
def replacement : Char := Char.ofNat 0xFFFD

/-- Where a reader of UTF-8 is: between characters, or inside one of which `need` more
bytes follow, the next of them between `low` and `high`, and whose code point so far
is `code`. -/
inductive Utf8Reader where
  | between
  | inside (need : Nat) (low high : UInt8) (code : Nat)
  deriving DecidableEq

namespace Utf8Reader

/-- Reads a byte between characters: the new place and the characters it completes. -/
def lead (b : UInt8) : Utf8Reader × List Char :=
  if b < 0x80 then (between, [Char.ofNat b.toNat])
  else if b < 0xC2 then (between, [replacement])
  else if b < 0xE0 then (inside 1 0x80 0xBF (b.toNat - 0xC0), [])
  else if b = 0xE0 then (inside 2 0xA0 0xBF (b.toNat - 0xE0), [])
  else if b = 0xED then (inside 2 0x80 0x9F (b.toNat - 0xE0), [])
  else if b < 0xF0 then (inside 2 0x80 0xBF (b.toNat - 0xE0), [])
  else if b = 0xF0 then (inside 3 0x90 0xBF (b.toNat - 0xF0), [])
  else if b < 0xF4 then (inside 3 0x80 0xBF (b.toNat - 0xF0), [])
  else if b = 0xF4 then (inside 3 0x80 0x8F (b.toNat - 0xF0), [])
  else (between, [replacement])

/-- Reads one byte: the new place and the characters it completes. A byte that does not
continue the current character ends it as ill-formed and is read anew. -/
def read : Utf8Reader → UInt8 → Utf8Reader × List Char
  | between, b => lead b
  | inside need low high code, b =>
    if low ≤ b && b ≤ high then
      let code := code * 64 + (b.toNat - 0x80)
      if need ≤ 1 then (between, [Char.ofNat code])
      else (inside (need - 1) 0x80 0xBF code, [])
    else
      let (place, cs) := lead b
      (place, replacement :: cs)

/-- What is left to report when the bytes end: an unfinished character is ill-formed. -/
def finish : Utf8Reader → List Char
  | between => []
  | inside .. => [replacement]

/-- Reads bytes from a place on; `done` holds the characters so far, last one first. -/
def readAll (done : List Char) (place : Utf8Reader) : Bytes → List Char
  | [] => (place.finish ++ done).reverse
  | b :: rest =>
    let (place, cs) := place.read b
    readAll (cs.reverse ++ done) place rest

end Utf8Reader

/-- The characters that bytes read as, whether or not they are UTF-8. -/
def decodeUtf8 (bs : Bytes) : List Char := Utf8Reader.readAll [] .between bs

/-- The text that bytes read as, whether or not they are UTF-8. -/
def ofBytes (bs : Bytes) : String := String.ofList (decodeUtf8 bs)

end Text

end Backbox
