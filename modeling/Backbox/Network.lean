import Backbox.History

/-!
# Networks

How a network answers when a peer is to be reached: what addresses its host's name stands
for, and whether an address takes a connection. The addresses are tried in order; when none
takes a connection, the last refusal is the one that is told.
-/

namespace Backbox

/-- Why a peer was not reached. -/
inductive ConnectFault where
  /-- The host's name stands for nothing. -/
  | unresolved (endpoint reason : String)
  /-- The host's name stands for no address. -/
  | noAddress (endpoint : String)
  /-- No address took a connection. -/
  | refused (endpoint reason : String)
  deriving DecidableEq

/-- The text of the fault. -/
def ConnectFault.message : ConnectFault → String
  | unresolved endpoint reason => s!"failed to resolve {endpoint}: {reason}"
  | noAddress endpoint => s!"no addresses resolved for {endpoint}"
  | refused endpoint reason => s!"failed to connect to {endpoint}: {reason}"

/-- A network: what a host's name stands for, and whether an address takes a connection on
a port, within a time if one is given. Both tell why they fail. -/
structure Network where
  resolve : String → Except String (List String)
  connect : String → UInt16 → Option Duration → Except String Unit

namespace Network

/-- Tries addresses in order; `fault` is told when none is left. -/
def reachAny (n : Network) (s : ConnectionSettings) (fault : ConnectFault) :
    List String → Except ConnectFault Unit
  | [] => .error fault
  | address :: rest =>
    match n.connect address s.port s.connectTimeout with
    | .ok () => .ok ()
    | .error reason => n.reachAny s (.refused s.endpoint reason) rest

/-- Tries to reach a peer. -/
def reach (n : Network) (s : ConnectionSettings) : Except ConnectFault Unit :=
  match n.resolve s.host with
  | .error reason => .error (.unresolved s.endpoint reason)
  | .ok addresses => n.reachAny s (.noAddress s.endpoint) addresses

/-- How peers are reached on a network. -/
def connector (n : Network) : Connector := fun _ _ s => (n.reach s).isOk

end Network

end Backbox
