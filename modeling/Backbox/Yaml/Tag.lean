import Backbox.Text.Digit
import Backbox.Text.Utf8
import Backbox.Yaml.Token

/-!
# Written tags and directives

A tag has a handle at its front, or stands between angle brackets; bytes may be escaped in
it. A directive gives the version of the format, or what a handle stands for.
-/

namespace Backbox.Yaml

/-- Whether a tag holds this character. -/
def isTagChar (c : Char) : Bool := c.isAlphanum || "-#;/?:@&=+$_.~*'()%".toList.contains c

/-- Whether a tag between angle brackets, or what a handle stands for, holds this
character. -/
def isUriChar (c : Char) : Bool := isTagChar c || "![],".toList.contains c

/-- The bytes of a part of a tag; those of an escape are written after a percent sign. -/
def tagBytes (code left : Nat) : List Char → Option (List UInt8)
  | [] => if left = 0 then some [] else none
  | c :: rest =>
    if 0 < left then do
      let code := code * 16 + (← Text.hexDigit? c)
      if left = 1 then return UInt8.ofNat code :: (← tagBytes 0 0 rest)
      else tagBytes code (left - 1) rest
    else if c == '%' then tagBytes 0 2 rest
    else do return Text.encodeUtf8 [c] ++ (← tagBytes 0 0 rest)

/-- A part of a tag, without escapes. -/
def tagText? (part : List Char) : Option String := do
  let text := Text.decodeUtf8 (← tagBytes 0 0 part)
  if text.contains Text.replacement then none else some (String.ofList text)

/-- Whether a character is part of the name of a handle. -/
def isHandleChar (c : Char) : Bool := c.isAlphanum || c == '_' || c == '-'

/-- A tag as it is written: its handle, what follows, and how many characters it takes. -/
def tagAt (written : List Char) : Option (String × String × Nat) := do
  match written.drop 1 with
  | '<' :: rest =>
    let uri := rest.takeWhile isUriChar
    if (rest.drop uri.length).head? == some '>' then
      return ("", ← tagText? uri, uri.length + 3)
    else none
  | rest =>
    let word := rest.takeWhile isHandleChar
    match rest.drop word.length with
    | '!' :: after =>
      let part := after.takeWhile isTagChar
      if part.isEmpty then none
      else
        return (String.ofList (['!'] ++ word ++ ['!']), ← tagText? part,
          word.length + 2 + part.length)
    | after =>
      let part := after.takeWhile isTagChar
      let used := word.length + 1 + part.length
      if word.isEmpty && part.isEmpty then return ("", "!", used)
      else return ("!", String.ofList word ++ (← tagText? part), used)

/-- What follows the digits at the front of some characters, of which there are nine at
most. -/
def afterNumber (rest : List Char) : Option (List Char) :=
  let digits := (rest.takeWhile Char.isDigit).length
  if digits = 0 || 9 < digits then none else some (rest.drop digits)

/-- The directive after a percent sign, and what is left of the line after it. -/
def directiveAt (rest : List Char) : Option (Directive × List Char) := do
  let name := rest.takeWhile isHandleChar
  let rest := rest.drop name.length
  if name.isEmpty || !rest.head?.all isGap then none
  else
    let rest := rest.dropWhile isGap
    match String.ofList name with
    | "YAML" =>
      match ← afterNumber rest with
      | '.' :: rest => return (.version, ← afterNumber rest)
      | _ => none
    | "TAG" =>
      match rest with
      | '!' :: rest =>
        let word := rest.takeWhile isHandleChar
        let rest := rest.drop word.length
        let (handle, rest) ← match rest with
          | '!' :: rest => some (['!'] ++ word ++ ['!'], rest)
          | rest => if word.isEmpty then some (['!'], rest) else none
        let rest := rest.dropWhile isGap
        let uri := rest.takeWhile isUriChar
        let after := rest.drop uri.length
        if uri.head?.all (fun c => c != '!' && !isTagChar c) || !after.head?.all isGap then none
        else return (.tag (String.ofList handle) (← tagText? uri), after)
      | _ => none
    | _ => return (.other, [])

end Backbox.Yaml
