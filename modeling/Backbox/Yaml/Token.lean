import Backbox.Yaml.Place

/-!
# Tokens

What a text is made of before its tokens are nested into nodes. Lists and maps between
brackets and braces are bounded by what is written; those that are nested by indentation get
tokens for their bounds.
-/

namespace Backbox.Yaml

/-- A line that tells how to read a document. -/
inductive Directive where
  | version
  /-- What a handle stands for at the front of a tag. -/
  | tag (handle leading : String)
  | other
  deriving DecidableEq

/-- A token. -/
inductive Token where
  /-- A scalar; a plain one is written without quotes. -/
  | scalar (isPlain : Bool) (text : String)
  /-- A name that is given to a node. -/
  | anchor (name : String)
  /-- The node that was given a name. -/
  | reference (name : String)
  /-- A tag as it is written: the handle at its front, and what follows. -/
  | tag (handle rest : String)
  | openBracket
  | closeBracket
  | openBrace
  | closeBrace
  | comma
  /-- The begin of a list that is nested by indentation. -/
  | beginList
  /-- The begin of a map that is nested by indentation. -/
  | beginMap
  /-- The end of a list or map that is nested by indentation. -/
  | endNested
  /-- The dash of a list's item. -/
  | item
  | key
  | value
  | directive (directive : Directive)
  | beginDocument
  | endDocument
  | endText
  deriving DecidableEq, Inhabited

end Backbox.Yaml
