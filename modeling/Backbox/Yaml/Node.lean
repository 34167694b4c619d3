import Backbox.Document
import Backbox.Document.Tag
import Backbox.Yaml.Token

/-!
# Nodes

Lists, maps and scalars, nested in each other by brackets and braces or by indentation. A
node may be given a name with `&` and be repeated under that name with `*`; a node that is
not complete is not repeated. A tag of a scalar is kept with it.

Every function is given a bound on the depth and length of what it reads; four times the
number of tokens is enough.
-/

namespace Backbox.Yaml

/-- The tokens that are left, and what was learnt from those before. -/
structure Supply where
  tokens : List Token
  /-- What handles stand for at the front of tags. -/
  handles : List (String × String)
  /-- The numbers of the nodes that names were given to, the last one first. -/
  names : List (String × Nat)
  /-- The complete nodes among them, with their sizes. -/
  named : List (Nat × Document × Nat)
  /-- How many nodes there are, how many names were given, and how often one is repeated. -/
  nodes : Nat
  given : Nat
  repeated : Nat
  /-- The size of what was read, and of the repetitions in it. -/
  size : Nat
  copied : Nat

/-- What there is before anything is read. -/
def Supply.ofTokens (tokens : List Token) : Supply := ⟨tokens, [], [], [], 0, 0, 0, 0, 0⟩

/-- Reading a part of a document; no result when it is ill-formed. -/
abbrev Reader := StateT Supply Option

/-- What is written before a node: the number of the name given to it, and a tag. -/
structure Properties where
  number : Option Nat
  tag : Option String
  /-- The size of what was read before. -/
  before : Nat

/-- Whether nothing is written before a node. -/
def Properties.isEmpty (p : Properties) : Bool := p.number.isNone && p.tag.isNone

/-- The largest number of nodes of a document. -/
def maxNodes : Nat := 250000

/-- The largest number of names that are given in a document, and of their repetitions. -/
def maxNames : Nat := 50000

/-- The number of repetitions up to which a document may have any number of names. -/
def freeRepetitions : Nat := 100

/-- How often a name is repeated in the mean, beyond that. -/
def repetitionsPerName : Nat := 10

/-- The largest size of all repetitions. -/
def maxCopied : Nat := 1000000

namespace Reader

/-- The next token. -/
def next : Reader Token := do
  match (← get).tokens with
  | t :: _ => return t
  | [] => failure

/-- Goes past the next token. -/
def skip : Reader Unit := modify fun s => { s with tokens := s.tokens.drop 1 }

/-- Counts a node. A list or map counts twice in the size, for its begin and its end. -/
def made (d : Document) : Reader Document := do
  let s ← get
  if maxNodes ≤ s.nodes then failure
  else
    let size := match d with
      | .list _ | .map _ => 2
      | _ => 1
    set { s with nodes := s.nodes + 1, size := s.size + size }
    return d

/-- A node that is not written. -/
def unwritten : Reader Document := made .nothing

/-- Gives a name to a node that is still to come. -/
def giveName (name : String) : Reader Nat := do
  let s ← get
  if maxNames ≤ s.given then failure
  else
    set { s with names := (name, s.given) :: s.names, given := s.given + 1 }
    return s.given

/-- The node that was given a name. -/
def repetition (name : String) : Reader Document := do
  let s ← get
  match (s.names.lookup name).bind fun number => s.named.lookup number with
  | some (node, size) =>
    if maxNames ≤ s.repeated || maxCopied < s.copied + size then failure
    else
      set { s with
        repeated := s.repeated + 1, size := s.size + size, copied := s.copied + size }
      return node
  | none => failure

/-- The tag of a handle and what follows it. -/
def resolveTag (handle rest : String) : Reader String := do
  match (← get).handles.lookup handle with
  | some leading => return leading ++ rest
  | none =>
    if handle = "!!" then return Document.commonLeading ++ rest
    else if 2 ≤ handle.length && handle.endsWith "!" then failure
    else return handle ++ rest

/-- Reads a name that is given to the next node, if there is one. -/
def anchor? : Reader (Option Nat) := do
  match ← next with
  | .anchor name =>
    skip
    return some (← giveName name)
  | _ => return none

/-- Reads a tag, if there is one. -/
def tag? : Reader (Option String) := do
  match ← next with
  | .tag handle rest =>
    skip
    return some (← resolveTag handle rest)
  | _ => return none

/-- Reads what is written before a node: a name and a tag, in any order. -/
def properties : Reader Properties := do
  let before := (← get).size
  match ← anchor? with
  | some number => return ⟨some number, ← tag?, before⟩
  | none =>
    match ← tag? with
    | some tag => return ⟨← anchor?, some tag, before⟩
    | none => return ⟨none, none, before⟩

/-- A scalar with what is written before it. An empty text with a name is no text. -/
def scalar (p : Properties) (isPlain : Bool) (text : String) : Document :=
  let d := if isPlain || (text.isEmpty && p.number.isSome) then .plain text else .text text
  match p.tag with
  | some tag => .tagged tag d
  | none => d

/-- Keeps a complete node under the name that was given to it. -/
def keep (p : Properties) (d : Document) : Reader Document := do
  match p.number with
  | some number => modify fun s => { s with named := (number, d, s.size - p.before) :: s.named }
  | none => pure ()
  return d

/-- Whether an entry between brackets or braces ends here. -/
def endsEntry : Token → Bool
  | .comma | .closeBracket | .closeBrace => true
  | _ => false

/-- Whether an entry of a map that is nested by indentation ends here. -/
def endsNestedEntry : Token → Bool
  | .key | .value | .endNested => true
  | _ => false

mutual

/-- A node. Outside of brackets and braces it may be `nested` by indentation; `indentless`
lets it be a list whose items stand at the indentation of its parent. -/
def node (nested indentless : Bool) : Nat → Reader Document
  | 0 => failure
  | bound + 1 => do
    match ← next with
    | .reference name =>
      skip
      repetition name
    | _ =>
      let p ← properties
      match ← next with
      | .scalar isPlain text =>
        skip
        keep p (← made (scalar p isPlain text))
      | .openBracket =>
        skip
        keep p (← flowList true [] bound)
      | .openBrace =>
        skip
        keep p (← flowMap true [] bound)
      | .item => if indentless then do keep p (← indentlessList [] bound) else unwrittenAfter p
      | .beginList =>
        if nested then do
          skip
          keep p (← nestedList [] bound)
        else unwrittenAfter p
      | .beginMap =>
        if nested then do
          skip
          keep p (← nestedMap [] bound)
        else unwrittenAfter p
      | _ => unwrittenAfter p

/-- A node of which only the properties are written. -/
def unwrittenAfter (p : Properties) : Reader Document := do
  if p.isEmpty then failure else keep p (← made (scalar p true ""))

/-- The items of a list that is nested by indentation. -/
def nestedList (done : List Document) : Nat → Reader Document
  | 0 => failure
  | bound + 1 => do
    match ← next with
    | .endNested =>
      skip
      made (.list done.reverse)
    | .item =>
      skip
      let item ← match ← next with
        | .item | .endNested => unwritten
        | _ => node true false bound
      nestedList (item :: done) bound
    | _ => failure

/-- The items of a list that stand at the indentation of its parent. -/
def indentlessList (done : List Document) : Nat → Reader Document
  | 0 => failure
  | bound + 1 => do
    match ← next with
    | .item =>
      skip
      let item ← match ← next with
        | .item | .key | .value | .endNested => unwritten
        | _ => node true false bound
      indentlessList (item :: done) bound
    | _ => made (.list done.reverse)

/-- The entries of a map that is nested by indentation. -/
def nestedMap (done : List (Document × Document)) : Nat → Reader Document
  | 0 => failure
  | bound + 1 => do
    match ← next with
    | .endNested =>
      skip
      made (.map done.reverse)
    | .key =>
      skip
      let key ← if endsNestedEntry (← next) then unwritten else node true true bound
      let value ← nestedValue bound
      nestedMap ((key, value) :: done) bound
    | .value =>
      let key ← unwritten
      let value ← nestedValue bound
      nestedMap ((key, value) :: done) bound
    | _ => failure

/-- The value of an entry of a map that is nested by indentation. -/
def nestedValue : Nat → Reader Document
  | 0 => failure
  | bound + 1 => do
    match ← next with
    | .value =>
      skip
      if endsNestedEntry (← next) then unwritten else node true true bound
    | _ => unwritten

/-- The items of a list between brackets, after the bracket or an item. An entry of a map
among them is a map of its own. -/
def flowList (first : Bool) (done : List Document) : Nat → Reader Document
  | 0 => failure
  | bound + 1 => do
    let atComma := (← next) = .comma
    if atComma && !first then skip
    match ← next with
    | .closeBracket =>
      skip
      made (.list done.reverse)
    | t =>
      if !first && !atComma then failure
      else
        let item ← match t with
          | .key | .value => do
            let entry ← flowEntry bound
            made (.map [entry])
          | _ => node false false bound
        flowList false (item :: done) bound

/-- The entries of a map between braces, after the brace or an entry. -/
def flowMap (first : Bool) (done : List (Document × Document)) : Nat → Reader Document
  | 0 => failure
  | bound + 1 => do
    let atComma := (← next) = .comma
    if atComma && !first then skip
    match ← next with
    | .closeBrace =>
      skip
      made (.map done.reverse)
    | _ =>
      if !first && !atComma then failure
      else
        let entry ← flowEntry bound
        flowMap false (entry :: done) bound

/-- An entry between brackets or braces: a key that is marked as one and possibly a value,
or a key alone. -/
def flowEntry : Nat → Reader (Document × Document)
  | 0 => failure
  | bound + 1 => do
    match ← next with
    | .key =>
      skip
      let t ← next
      let key ← if endsEntry t || t = .value then unwritten else node false false bound
      return (key, ← flowValue bound)
    | .value => do
      let key ← unwritten
      return (key, ← flowValue bound)
    | _ =>
      let key ← node false false bound
      return (key, ← unwritten)

/-- The value of an entry between brackets or braces. -/
def flowValue : Nat → Reader Document
  | 0 => failure
  | bound + 1 => do
    match ← next with
    | .value =>
      skip
      if endsEntry (← next) then unwritten else node false false bound
    | _ => unwritten

end

end Reader

end Backbox.Yaml
