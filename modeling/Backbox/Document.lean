/-!
# Documents

A document as a tree: truth values, integers, texts, lists and maps. A document that was
read from text also has plain scalars, which were written without quotes; what kind of
value a plain scalar is depends on what its reader asks for. A scalar may have a tag.
-/

namespace Backbox

/-- A tree of values. -/
inductive Document where
  | boolean (value : Bool)
  | integer (value : Int)
  | text (value : String)
  /-- A scalar written without quotes. -/
  | plain (written : String)
  /-- A scalar with a tag. -/
  | tagged (tag : String) (scalar : Document)
  | list (items : List Document)
  | map (entries : List (Document × Document))
  deriving Inhabited

namespace Document

/-- The document in which nothing is written. -/
def nothing : Document := .plain ""

/-- Whether a plain scalar stands for the absence of a value. -/
def isNullWord (written : String) : Bool :=
  written = "" || written = "~" ||
    written.toList.map Char.toLower = ['n', 'u', 'l', 'l']

/-- Whether a document stands for the absence of a value. -/
def isNull : Document → Bool
  | .plain written => isNullWord written
  | .tagged _ scalar => scalar.isNull
  | _ => false

end Document

end Backbox
