import Backbox.Yaml.Lexer.Step
import Backbox.Yaml.Node

/-!
# One document in a text

A text holds one document. Lines with `---` begin a document and lines with `...` end one;
directives may stand before the first. A text with more than one document is refused, and
one with none is the document in which nothing is written. The text ends at a NUL. What
stands after the document's node without a marker is not read, once its first token is
certain; what is ill-formed after an end marker is not read either.
-/

namespace Backbox.Yaml

namespace Reader

/-- Goes past the ends of documents. -/
def skipEnds : Reader Unit :=
  modify fun s => { s with tokens := s.tokens.dropWhile (· = .endDocument) }

/-- Takes in a directive. A version is given once, and a handle has one meaning. -/
def direct (versions : Nat) : Directive → Reader Nat
  | .version => if versions = 0 then return 1 else failure
  | .tag handle leading => do
    let s ← get
    if (s.handles.lookup handle).isSome then failure
    else
      set { s with handles := (handle, leading) :: s.handles }
      return versions
  | .other => return versions

/-- Takes in directives. -/
def directives (versions : Nat) : List Token → Reader Unit
  | .directive d :: rest => do
    let versions ← direct versions d
    skip
    directives versions rest
  | _ => return ()

/-- The node of a document that begins with a marker. -/
def markedDocument (bound : Nat) : Reader Document := do
  directives 0 (← get).tokens
  match ← next with
  | .beginDocument =>
    skip
    match ← next with
    | .directive _ | .beginDocument | .endDocument | .endText => unwritten
    | _ => node true false bound
  | _ => failure

/-- The node of the first document. -/
def firstDocument (bound : Nat) : Reader Document := do
  skipEnds
  match ← next with
  | .endText => return .nothing
  | .directive _ | .beginDocument => markedDocument bound
  | _ => node true false bound

end Reader

/-- Whether the names of a document are not repeated too often. -/
def Supply.isModest (s : Supply) : Bool :=
  s.repeated < freeRepetitions || s.repeated ≤ repetitionsPerName * s.given

/-- Whether no further document follows the end of one, of which the marker was read. -/
def endsAfterMarker (tokens : List Token) : Bool :=
  match tokens.dropWhile (· = .endDocument) with
  | [] | .endText :: _ => true
  | .directive d :: rest =>
    ((Token.directive d :: rest).dropWhile fun
      | .directive _ => true
      | _ => false).head? != some .beginDocument
  | _ => false

/-- Whether no further document follows the node of one. -/
def endsStream : List Token → Bool
  | [] | .directive _ :: _ | .beginDocument :: _ => false
  | .endDocument :: rest => endsAfterMarker rest
  | _ => true

/-- The one document of some tokens. -/
def documentOfTokens (tokens : List Token) : Option Document := do
  let bound := 4 * tokens.length + 16
  let (d, s) ← (Reader.firstDocument bound).run (.ofTokens tokens)
  if endsStream s.tokens && s.isModest then some d else none

/-- The one document of a text, which may begin with a byte order mark. -/
def document (text : String) : Option Document :=
  let cs := text.toList.takeWhile (·.toNat ≠ 0)
  let cs := if cs.head?.any (·.toNat = 0xFEFF) then cs.drop 1 else cs
  documentOfTokens (tokensAt (.ofLines (linesOf cs)))

end Backbox.Yaml
