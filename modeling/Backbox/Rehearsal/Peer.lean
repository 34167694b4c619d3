/-!
# The far end of a session

What a peer has noticed of what the engine did on a session. A peer that is paused notices
nothing until it resumes, and one that is deaf, or that has hung up, notices nothing ever
again.
-/

namespace Backbox.Rehearsal

/-- The far end of a session. -/
structure Peer where
  host : String
  /-- The lines that the peer has not noticed yet, the last one first. -/
  unread : List String
  /-- Whether the engine has closed the session and the peer has not noticed it yet. -/
  unseenEnd : Bool
  paused : Bool
  /-- Whether the peer will notice nothing any more. -/
  gone : Bool

/-- What a peer noticed on a session. -/
structure PeerNews where
  session : Nat
  host : String
  received : String
  closed : Bool

namespace Peer

/-- The far end of a new session. -/
def new (host : String) : Peer := ⟨host, [], false, false, false⟩

/-- A line was written on the session. -/
def hear (p : Peer) (line : String) : Peer := { p with unread := line :: p.unread }

/-- The engine closed the session. -/
def close (p : Peer) : Peer := { p with unseenEnd := true }

/-- The peer notices nothing any more. -/
def leave (p : Peer) : Peer := { p with gone := true }

/-- What the peer notices now, and the peer after it. -/
def notice (p : Peer) (session : Nat) : Option PeerNews × Peer :=
  if p.gone || p.paused || (p.unread.isEmpty && !p.unseenEnd) then (none, p)
  else
    (some ⟨session, p.host, String.join (p.unread.reverse.map (· ++ "\n")), p.unseenEnd⟩,
      { p with unread := [], unseenEnd := false })

end Peer

end Backbox.Rehearsal
