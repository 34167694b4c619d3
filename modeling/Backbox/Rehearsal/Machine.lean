import Backbox.Network
import Backbox.Text.Digit

/-!
# The machine of a rehearsal

A machine that is on its own, for rehearsals of attempts to reach peers. Texts that are addresses
themselves need not be looked up: numbers with dots between them, and groups of hexadecimal digits
with colons between them. No name is known but the machine's own.
-/

namespace Backbox

namespace Rehearsal

/-- The number that a part of an address writes: hexadecimal after `0x`, octal after `0`,
and decimal otherwise. -/
def partValue? : List Char → Option Nat
  | [] => none
  | ['0'] => some 0
  | '0' :: 'x' :: digits | '0' :: 'X' :: digits =>
    if digits.isEmpty then none else Text.digitsValue? 16 digits
  | '0' :: digits => Text.digitsValue? 8 digits
  | digits => Text.digitsValue? 10 digits

/-- Whether a text is an address of one to four numbers with dots between them. Each number
but the last is a byte, and the last one fills the bytes that are left. -/
def isDotted (host : String) : Bool :=
  match (host.splitOn ".").mapM fun part => partValue? part.toList with
  | none => false
  | some values =>
    values.length ≤ 4 && values.dropLast.all (· ≤ 255) &&
      values.getLast?.any (· < Nat.pow 256 (5 - values.length))

/-- A byte in decimal digits, without a needless zero in front. -/
def byte? (part : List Char) : Option Nat :=
  if part.length ≤ 3 && (part.length ≤ 1 || part.head? ≠ some '0') && !part.isEmpty then
    (Text.digitsValue? 10 part).filter (· ≤ 255)
  else none

/-- The groups of an address: up to four hexadecimal digits each, with colons between them.
The last two may be written as four bytes with dots between them. -/
def groups? : List (List Char) → Option (List Nat)
  | [] => some []
  | [group] =>
    if group.contains '.' then
      match (group.splitOn '.').mapM byte? with
      | some [a, b, c, d] => some [a * 256 + b, c * 256 + d]
      | _ => none
    else if group.isEmpty || 4 < group.length then none
    else do return [← Text.digitsValue? 16 group]
  | group :: rest =>
    if group.isEmpty || 4 < group.length then none
    else do return (← Text.digitsValue? 16 group) :: (← groups? rest)

/-- The groups of a part of an address, which may be empty. -/
def groupsOf? (part : String) : Option (List Nat) :=
  if part.isEmpty then some [] else groups? (part.toList.splitOn ':')

/-- The eight groups of an address; two colons stand for at least one group of zero. -/
def eightGroups? (host : String) : Option (List Nat) :=
  match host.splitOn "::" with
  | [whole] => (groupsOf? whole).filter (·.length = 8)
  | [front, back] =>
    if front.contains '.' then none
    else do
      let front ← groupsOf? front
      let back ← groupsOf? back
      let missing := 8 - (front.length + back.length)
      if missing = 0 then none
      else some (front ++ List.replicate missing 0 ++ back)
  | _ => none

/-- Whether a text is an address. -/
def isAddress (host : String) : Bool := isDotted host || (eightGroups? host).isSome

/-- Whether an address holds only on the link of an interface, which it does not name. -/
def isLinkLocal (host : String) : Bool :=
  match eightGroups? host with
  | some (group :: _) => 0xFE80 ≤ group && group ≤ 0xFEBF
  | _ => false

end Rehearsal

namespace Network

/-- The address of the machine itself. -/
def loopback : String := "127.0.0.1"

/-- A machine on its own. It knows its own name and plain addresses, and no address is
reached but those that are `listening`. -/
def machine (listening : String → UInt16 → Bool) : Network where
  resolve host :=
    if Rehearsal.isAddress host then .ok [host]
    else if host.map Char.toLower = "localhost" then .ok [loopback]
    else if host.toList.contains (Char.ofNat 0) then
      .error "file name contained an unexpected NUL byte"
    else .error "failed to lookup address information: Name or service not known"
  connect address port _ :=
    if listening address port then .ok ()
    else if Rehearsal.isLinkLocal address then .error "Invalid argument (os error 22)"
    else .error "Network is unreachable (os error 101)"

/-- A machine on its own on which nothing listens: no peer is reached. -/
def isolated : Network := machine fun _ _ => false

end Network

end Backbox
