import Backbox.Command.Catalog
import Backbox.History
import Backbox.Inbound

/-!
# Reactions

What is done about an inbound command, as data: a sequence of actions on the peers and the
host, interleaved with what peers send meanwhile. Handlers of the host give reactions, and
so do the commands with a meaning of their own.

A handler sees nothing but the command, and answers one command always alike: what a handler
of a host may keep from one command for the next is left out.
-/

namespace Backbox

/-- A session chosen by its number, or as the last one opened, to a host if one is
named. -/
structure SessionChoice where
  number : Option Nat
  host : Option String
  deriving DecidableEq, Inhabited

/-- A sequence of actions. -/
inductive Reaction where
  /-- Nothing more. -/
  | done
  /-- Sends a command to every connection; what follows may depend on how many of them
  accepted it. -/
  | send (command : Command) (next : Nat → Reaction)
  /-- Posts an event that nothing waits for. -/
  | post (event : String) (fields : Params) (next : Reaction)
  /-- Posts an event and what is to be done once the host has completed it. -/
  | postAwaited (event : String) (fields : Params) (completion next : Reaction)
  /-- Changes the state of a switch. -/
  | setSwitch (name : String) (active logical : Bool) (next : Reaction)
  /-- Notes something about the work itself. -/
  | note (note : Note) (next : Reaction)
  /-- Meanwhile bytes arrive from a peer. -/
  | arrival (session : SessionChoice) (bytes : Bytes) (next : Reaction)

/-- What a host does about a command that it handles itself; the handler keeps nothing from
one command for the next. -/
abbrev Handler := Command → Reaction

/-- An event that the host has not completed yet. -/
structure HostEvent where
  name : String
  fields : Params
  completion : Option Reaction

/-- What the name of an event that a trigger posts begins with. -/
def triggerEventPrefix : String := "trigger_"

/-- Sends a command to every connection. -/
def Reaction.reply (command : Command) : Reaction := .send command fun _ => .done

/-- The trigger that answers a trigger with a callback: the callback's name with the
parameters of the trigger. -/
def callbackTrigger (callback : String) (params : Params) : Command :=
  (Command.ofPairs "trigger" params.toList).withParam "name" callback

/-- What is done about a trigger: an event is posted with its parameters, and if it names
a callback, completing the event sends that trigger to every connection. -/
def Reaction.ofTrigger (name : String) (callback : Option String) (params : Params) :
    Reaction :=
  let event := triggerEventPrefix ++ name
  match callback with
  | some callback => .postAwaited event params (.reply (callbackTrigger callback params)) .done
  | none => .post event params .done

/-- What is done about an inbound command, given the handlers of the host. -/
def Reaction.ofCommand (handler? : String → Option Handler) (c : Command) : Reaction :=
  match Inbound.ofCommand c with
  | .ok (.hello _) | .ok .goodbye | .ok (.error _) => .done
  | .ok (.switch name active) => .setSwitch name active true .done
  | .ok (.trigger name callback params) => .ofTrigger name callback params
  | .ok (.other c) =>
    match handler? c.name with
    | some handler => handler c
    | none => .reply (.error "invalid command" c.name)
  | .error .unnamedTrigger => .done
  | .error (.invalidParameters _) => .reply (.error "invalid parameters" c.name)
  | .error .missingName => .reply (.error "invalid command" c.name)

end Backbox
