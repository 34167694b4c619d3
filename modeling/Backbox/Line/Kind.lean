import Backbox.Text.Utf8

/-!
# Kinds of lines

A line is a display frame when it begins with the bytes of `dmd_frame`, in just this
letter case; its payload follows one separator byte. Every other line is a message: text,
whatever its bytes are.
-/

namespace Backbox

/-- The bytes that a display frame begins with. -/
def framePrefix : Bytes := Text.bytes "dmd_frame"

/-- The length of a display frame's header: the bytes it begins with and a separator. -/
def frameHeaderLength : Nat := framePrefix.length + 1

/-- A complete line, by its kind. -/
inductive Line where
  | frame (payload : Bytes)
  | message (text : String)
  deriving DecidableEq

/-- The kind of a line that arrived as bytes. -/
def Line.ofBytes (bs : Bytes) : Line :=
  if framePrefix.isPrefixOf bs then .frame (bs.drop frameHeaderLength)
  else .message (Text.ofBytes bs)

end Backbox
