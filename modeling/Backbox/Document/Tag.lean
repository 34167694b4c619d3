/-!
# Tags

What a tag says about the scalar that it stands before. The common tags say which kind of
value is meant; any other tag is a name that its reader may know.
-/

namespace Backbox.Document

/-- The front of the common tags. -/
def commonLeading : String := "tag:yaml.org,2002:"

/-- What a tag says. -/
inductive TagMeaning where
  /-- The scalar is a text, whatever is written. -/
  | text
  /-- The scalar writes bytes. -/
  | binary
  /-- The scalar is a value of another kind. -/
  | value
  /-- The scalar is of a kind with this name. -/
  | named (name : String)
  /-- Nothing that a reader asks for. -/
  | nothing
  deriving DecidableEq

/-- The name of a tag, without the marks at its front. -/
def tagName (tag : String) : String :=
  let tag := if tag.startsWith commonLeading then
    String.ofList (tag.toList.drop commonLeading.length) else tag
  String.ofList (tag.toList.dropWhile (· = '!'))

/-- What a tag says. -/
def meaningOf (tag : String) : TagMeaning :=
  let name := tagName tag
  let isCommon := tag = commonLeading ++ name
  if isCommon && name = "str" then .text
  else if isCommon && name = "binary" then .binary
  else if isCommon && ["null", "bool", "int", "float", "seq", "map"].contains name then .value
  else if name.isEmpty || name.toList.any fun c => c = ':' || c = '!' then .nothing
  else .named name

end Backbox.Document
