import Backbox.Engine.Basic

/-!
# Polling

The host polls the engine. A poll dispatches the commands of every inbox, inbox after
inbox, and then removes the connections whose peers said goodbye, each after the last of
its commands.

What is done about a command may bring in further commands, so a poll need not end. It is
therefore given a bound on the commands of one inbox, and has no result when it needs
more.
-/

namespace Backbox.Engine

/-- Carries out a reaction. -/
def react : Reaction → Engine → Engine
  | .done, e => e
  | .send command next, e =>
    let (count, e) := e.send command
    react (next count) e
  | .post event fields next, e =>
    let posted := { e with history := e.history.tell (.post event fields false) }
    react next <|
      if e.completesAtOnce then posted
      else { posted with pending := posted.pending ++ [⟨event, fields, none⟩] }
  | .postAwaited event fields completion next, e =>
    let posted := { e with history := e.history.tell (.post event fields true) }
    react next <|
      if e.completesAtOnce then react completion posted
      else { posted with pending := posted.pending ++ [⟨event, fields, some completion⟩] }
  | .setSwitch name active logical next, e =>
    react next { e with history := e.history.tell (.setSwitch name active logical) }
  | .note note next, e => react next { e with history := e.history.tell (.note note) }
  | .arrival choice bytes next, e =>
    react next <|
      match e.session? choice with
      | some session => e.receive session bytes
      | none => e

/-- Completes a pending event, chosen by its place; tells its name. -/
def complete (e : Engine) (index : Nat) : Option (String × Engine) :=
  match e.pending[index]? with
  | none => none
  | some event =>
    let e := { e with pending := e.pending.eraseIdx index }
    some (event.name,
      match event.completion with
      | some completion => react completion e
      | none => e)

/-- Dispatches a command of a connection. -/
def dispatch (e : Engine) (connection : String) (command : Command) : Engine :=
  react (.ofCommand (e.handlers.lookup ·) command)
    { e with history := e.history.record (.dispatched connection command) }

/-- Takes the next command out of the inbox of a connection. -/
def takeCommand (e : Engine) (connection : String) : Option (Command × Engine) :=
  match e.inboxes.find? (·.connection = connection) with
  | some ⟨_, command :: _⟩ =>
    some (command, { e with
      inboxes := e.inboxes.map fun inbox =>
        if inbox.connection = connection then { inbox with commands := inbox.commands.tail }
        else inbox })
  | _ => none

/-- Dispatches the commands of one inbox until it is empty; counts them. -/
def drainInbox (connection : String) : Nat → Engine → Option (Nat × Engine)
  | 0, _ => none
  | bound + 1, e =>
    match e.takeCommand connection with
    | none => some (0, e)
    | some (command, e) =>
      (drainInbox connection bound (e.dispatch connection command)).map fun (count, e) =>
        (count + 1, e)

/-- Dispatches the commands of several inboxes, one inbox after the other. -/
def drainInboxes (bound : Nat) : List String → Engine → Option (Nat × Engine)
  | [], e => some (0, e)
  | connection :: rest, e => do
    let (count, e) ← drainInbox connection bound e
    let (more, e) ← drainInboxes bound rest e
    return (count + more, e)

/-- Takes a connection and its inbox out. -/
def remove (e : Engine) (connection : String) : Engine :=
  { e with
    registry := e.registry.eraseP (·.name = connection)
    inboxes := e.inboxes.eraseP (·.connection = connection)
    history := e.history.record (.left connection) }

/-- Removes the connections whose peers said goodbye, each after the last of its commands;
counts these. -/
def applyDepartures (commandBound : Nat) : Nat → Engine → Option (Nat × Engine)
  | 0, _ => none
  | bound + 1, e =>
    match e.departures with
    | [] => some (0, e)
    | connection :: rest => do
      let (count, e) ← drainInbox connection commandBound { e with departures := rest }
      let (more, e) ← applyDepartures commandBound bound (e.remove connection)
      return (count + more, e)

/-- Dispatches every command that waits, then removes the connections whose peers said
goodbye; counts the commands. No result when an inbox does not empty within the bound. -/
def poll (bound : Nat) (e : Engine) : Option (Nat × Engine) := do
  let (count, e) ← drainInboxes bound (e.inboxes.map (·.connection)) e
  let (more, e) ← applyDepartures bound bound e
  return (count + more, e)

end Backbox.Engine
