import Backbox.Connection.Basic
import Backbox.Line.Kind

/-!
# Hearing from a peer

The bytes that a peer sends on a session are read in pieces and cut into lines. Display
frames go to the host at once. Of the messages, a greeting changes nothing, a goodbye
ends the session and makes the peer departed, and every other command is queued for the
host's next poll. Lines after a goodbye are lost. An unfinished line that outgrows its
limit ends the session.
-/

namespace Backbox

/-- The most bytes that are read at once. -/
def readSize : Nat := 4096

/-- What hearing from a peer has led to so far. -/
structure Intake where
  connection : Connection
  history : History
  /-- The commands queued for the next poll, in the order they came. -/
  commands : Array Command
  /-- Whether the peer said goodbye. -/
  departed : Bool

namespace Intake

/-- The peer said goodbye: the session ends, nothing is said back, and what waits is
dropped. Losing a required peer asks the host to shut down. -/
def depart (x : Intake) : Intake :=
  let c := { x.connection with owesGoodbye := false, departed := true }
  let (c, h) := c.endSession .farewell x.history
  { x with
    connection := c.dropQueue
    history := if c.settings.required then h.requestShutdown else h
    departed := true }

/-- Takes in a command. -/
def takeCommand (x : Intake) (command : Command) : Intake :=
  if command.name = "hello" then x
  else if command.name = "goodbye" then x.depart
  else { x with commands := x.commands.push command }

/-- Takes in a line, unless the session is over. -/
def takeLine (valueCase : ValueCase) (x : Intake) (line : Bytes) : Intake :=
  match x.connection.session with
  | none => x
  | some session =>
    match Line.ofBytes line with
    | .frame payload => { x with history := x.history.record (.framed session.id payload) }
    | .message message => x.takeCommand (.ofWire valueCase message)

/-- Takes in the bytes of one read, unless the session is over. -/
def takeRead (valueCase : ValueCase) (x : Intake) (bytes : Bytes) : Intake :=
  match x.connection.session with
  | none => x
  | some session =>
    let (result, framer) := session.framer.push bytes
    let heard := { x with
      connection := { x.connection with session := some ⟨session.id, framer⟩ }
      history := x.history.record (.read session.id bytes) }
    match result with
    | .ok lines => lines.foldl (takeLine valueCase) heard
    | .error _ =>
      let (c, h) := heard.connection.loseSession .overlong heard.history
      { heard with connection := c, history := h }

end Intake

/-- Cuts bytes into reads of the largest size, the last one possibly shorter. -/
def readsOf (done : List Bytes) (bytes : Bytes) : List Bytes :=
  if _h : bytes = [] then done.reverse
  else readsOf (bytes.take readSize :: done) (bytes.drop readSize)
termination_by bytes.length
decreasing_by
  have : 0 < bytes.length := List.length_pos_iff.mpr ‹_›
  simp only [List.length_drop, readSize]
  omega

/-- What a connection makes of bytes from its peer. -/
def Connection.receive (c : Connection) (valueCase : ValueCase) (bytes : Bytes)
    (h : History) : Intake :=
  (readsOf [] bytes).foldl (Intake.takeRead valueCase) ⟨c, h, #[], false⟩

end Backbox
