import Backbox.Text.Form

/-!
# Cutting a byte stream into lines

A peer's bytes arrive in chunks of any size. The framer keeps the bytes after the last
line-feed, the fragment, and hands out the lines that a chunk completes, without their
line-feeds and without empty lines. A fragment longer than the limit is an error: it is
thrown away, together with the lines that the same chunk completed.
-/

namespace Backbox

/-- The byte that ends a line. -/
def lineFeed : UInt8 := 0x0A

/-- The longest fragment that a session keeps, in bytes. -/
def defaultFragmentLimit : Nat := 1024 * 1024

/-- A fragment longer than the limit. -/
structure FragmentTooLarge where
  size : Nat
  limit : Nat
  deriving DecidableEq

/-- The text of the error. -/
def FragmentTooLarge.message (e : FragmentTooLarge) : String :=
  s!"unterminated message of {e.size} bytes exceeds the {e.limit} byte limit"

/-- The state of cutting a stream: the limit, and the unfinished line. -/
structure Framer where
  limit : Nat
  buffer : Array UInt8

namespace Framer

/-- A framer at the start of a stream. -/
def withLimit (limit : Nat) : Framer := ⟨limit, #[]⟩

/-- A framer at the start of a session. -/
def new : Framer := withLimit defaultFragmentLimit

/-- The bytes received since the last line-feed. -/
def fragment (f : Framer) : Bytes := f.buffer.toList

/-- What a chunk adds to an unfinished line: the lines it completes, empty ones
included, and the line that is unfinished after it. -/
def cut (buffer : Array UInt8) (chunk : Bytes) : List Bytes × Array UInt8 :=
  match Text.Form.pieces lineFeed chunk with
  | [] => ([], buffer)
  | [rest] => ([], buffer ++ rest)
  | first :: others =>
    ((buffer ++ first).toList :: others.dropLast, (others.getLastD []).toArray)

/-- Takes in one chunk. -/
def push (f : Framer) (chunk : Bytes) : Except FragmentTooLarge (List Bytes) × Framer :=
  let (lines, rest) := cut f.buffer chunk
  if rest.size > f.limit then (.error ⟨rest.size, f.limit⟩, { f with buffer := #[] })
  else (.ok (lines.filter (!·.isEmpty)), { f with buffer := rest })

end Framer

end Backbox
