/-!
# Blank characters and trimming

The blank characters are those with the Unicode property `White_Space`. Trimming
takes them off both ends of a text and leaves the inside alone.
-/

namespace Backbox.Text

/-- Whether a character has the property `White_Space`. Among the characters that look
blank but are not are U+001C to U+001F, U+180E, U+200B and U+FEFF. -/
def isBlank (c : Char) : Bool :=
  let code := c.toNat
  (0x09 ≤ code && code ≤ 0x0D) || code == 0x20 || code == 0x85 || code == 0xA0 ||
    code == 0x1680 || (0x2000 ≤ code && code ≤ 0x200A) || code == 0x2028 ||
    code == 0x2029 || code == 0x202F || code == 0x205F || code == 0x3000

/-- A list of characters without the blank ones at either end. -/
def trimList (cs : List Char) : List Char :=
  ((cs.dropWhile isBlank).reverse.dropWhile isBlank).reverse

/-- A text without the blank characters at either end. -/
def trim (s : String) : String := String.ofList (trimList s.toList)

/-- Whether nothing is left of a text once it is trimmed. -/
def isBlankText (s : String) : Bool := s.toList.all isBlank

end Backbox.Text
