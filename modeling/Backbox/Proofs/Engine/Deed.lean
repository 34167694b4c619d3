import Backbox.Proofs.Engine.Handler

/-!
# What is done about a command

Dispatching a command does one thing: nothing that anyone sees, a change of a switch, an event that
is posted, a call of the handler of its name, or an error report to every connection. The command
and the handlers decide which it is, and nothing else is done.
-/

namespace Backbox

/-- What is done about a command, as the host and the peers see it. -/
inductive Deed where
  /-- Nothing that anyone sees. -/
  | nothing
  | setSwitch (name : String) (active : Bool)
  /-- An event is posted; when it is completed, the reply is sent, if there is one. -/
  | post (event : String) (fields : Params) (reply : Option Command)
  | call (handler : Handler)
  /-- An error report with this message is sent. -/
  | report (message : String)

namespace Deed

/-- The names of the commands that are not left to handlers. -/
def builtIn : List String := ["", "hello", "goodbye", "error", "switch", "trigger"]

/-- The switch, and its state, that the parameters of a switch command ask for. -/
def AsksFor (params : Params) (name : String) (active : Bool) : Prop :=
  params.get? "name" = some name ∧ name ≠ "" ∧
    ∃ raw, params.get? "state" = some raw ∧ switchState? raw = some active

/-- What the parameters of a trigger leave for the event that it posts. -/
def passedOn (params : Params) : Params := (params.erase "name").erase "callback"

/-- When a deed is due about a command. -/
inductive Due (handler? : String → Option Handler) (c : Command) : Deed → Prop where
  | heard (name : c.name ∈ ["hello", "goodbye", "error"]) : Due handler? c nothing
  | unnamed (name : c.name = "trigger") (none : c.params.get? "name" = none) :
    Due handler? c nothing
  | setSwitch (name : c.name = "switch") {switch : String} {active : Bool}
      (asks : AsksFor c.params switch active) : Due handler? c (setSwitch switch active)
  | post (name : c.name = "trigger") {event : String} (its : c.params.get? "name" = some event) :
    Due handler? c (post (triggerEventPrefix ++ event) (passedOn c.params)
      ((c.params.get? "callback").map (callbackTrigger · (passedOn c.params))))
  | call (other : c.name ∉ builtIn) {handler : Handler} (found : handler? c.name = some handler) :
    Due handler? c (call handler)
  | nameless (name : c.name = "") : Due handler? c (report "invalid command")
  | unusable (name : c.name = "switch") (none : ∀ switch active, ¬ AsksFor c.params switch active) :
    Due handler? c (report "invalid parameters")
  | unknown (other : c.name ∉ builtIn) (none : handler? c.name = none) :
    Due handler? c (report "invalid command")

/-- The engine after a deed about a command. -/
def carryOut (c : Command) (e : Engine) : Deed → Engine
  | nothing => e
  | setSwitch name active => { e with history := e.history.tell (.setSwitch name active true) }
  | post event fields reply =>
    let posted := { e with history := e.history.tell (.post event fields reply.isSome) }
    if e.completesAtOnce then reply.elim posted fun reply => (posted.send reply).2
    else { posted with pending := e.pending ++ [⟨event, fields, reply.map .reply⟩] }
  | call handler => Engine.react (handler c) e
  | report message => (e.send (.error message c.name)).2

/-- The deed that a meaning asks for. -/
def ofMeaning (handler? : String → Option Handler) : Except InboundFault Inbound → Deed
  | .ok (.hello _) | .ok .goodbye | .ok (.error _) | .error .unnamedTrigger => nothing
  | .ok (.switch name active) => setSwitch name active
  | .ok (.trigger name callback params) =>
    post (triggerEventPrefix ++ name) params (callback.map (callbackTrigger · params))
  | .ok (.other c) =>
    match handler? c.name with
    | some handler => call handler
    | none => report "invalid command"
  | .error (.invalidParameters _) => report "invalid parameters"
  | .error .missingName => report "invalid command"

variable {handler? : String → Option Handler} {c : Command} {deed : Deed} {e : Engine}

/-- A switch command means what its parameters ask for. -/
theorem AsksFor.ofSwitch_eq {params : Params} {name : String} {active : Bool}
    (asks : AsksFor params name active) : Inbound.ofSwitch params = .ok (.switch name active) := by
  obtain ⟨its, named, raw, stated, read⟩ := asks
  simp [Inbound.ofSwitch, its, stated, read, named]

/-- A switch command whose parameters ask for nothing has no meaning. -/
theorem ofSwitch_of_not_asksFor {params : Params}
    (none : ∀ name active, ¬ AsksFor params name active) :
    Inbound.ofSwitch params = .error (.invalidParameters "switch") := by
  unfold Inbound.ofSwitch
  split
  · next name active its stated =>
    obtain ⟨raw, held, read⟩ := Option.bind_eq_some_iff.mp stated
    rw [if_pos]
    by_contra named
    exact none name active ⟨its, by simpa using named, raw, held, read⟩
  · rfl

/-- A deed is due where the meaning of the command asks for it. -/
theorem Due.eq (normal : c.IsNormal) (due : Due handler? c deed) :
    ofMeaning handler? (Inbound.ofCommand c) = deed := by
  cases due with
  | heard name =>
    simp only [List.mem_cons, List.not_mem_nil, or_false] at name
    rcases name with name | name | name <;> simp only [Inbound.ofCommand, name, ofMeaning]
  | unnamed name none => simp only [Inbound.ofCommand, name, none, ofMeaning]
  | setSwitch name asks => simp only [Inbound.ofCommand, name, asks.ofSwitch_eq, ofMeaning]
  | post name its => simp only [Inbound.ofCommand, name, its, ofMeaning, passedOn]
  | call other found =>
    simp only [Inbound.ofCommand_of_notMem other, normal.ofPairs_eq, ofMeaning, found]
  | nameless name => simp only [Inbound.ofCommand, name, ofMeaning]
  | unusable name none =>
    simp only [Inbound.ofCommand, name, ofSwitch_of_not_asksFor none, ofMeaning]
  | unknown other none =>
    simp only [Inbound.ofCommand_of_notMem other, normal.ofPairs_eq, ofMeaning, none]

/-- An error report has a message. -/
theorem Due.text_ne_empty {text : String} (due : Due handler? c (report text)) : text ≠ "" := by
  cases due <;> decide

/-- What is passed on are the parameters but the name and the callback. -/
theorem get?_passedOn (params : Params) (key : String) : (passedOn params).get? key =
    if key = "name" ∨ key = "callback" then none else params.get? key := by
  rw [passedOn, KeyMap.get?_erase, KeyMap.get?_erase]
  by_cases name : key = "name" <;> by_cases callback : key = "callback" <;> simp [name, callback]

/-- Nothing but parameters is passed on. -/
theorem mem_of_mem_passedOn {params : Params} {pair : String × String}
    (mem : pair ∈ (passedOn params).toList) : pair ∈ params.toList :=
  (List.mem_filter.mp (List.mem_filter.mp mem).1).1

/-- Something is due about every command. -/
theorem exists_due (handler? : String → Option Handler) (c : Command) :
    ∃ deed, Due handler? c deed := by
  by_cases other : c.name ∈ builtIn
  · simp only [builtIn, List.mem_cons, List.not_mem_nil, or_false] at other
    rcases other with name | name | name | name | name | name
    · exact ⟨_, .nameless name⟩
    · exact ⟨_, .heard (name ▸ by simp)⟩
    · exact ⟨_, .heard (name ▸ by simp)⟩
    · exact ⟨_, .heard (name ▸ by simp)⟩
    · by_cases asks : ∃ switch active, AsksFor c.params switch active
      · obtain ⟨switch, active, asks⟩ := asks
        exact ⟨_, .setSwitch name asks⟩
      · exact ⟨_, .unusable name fun switch active its => asks ⟨switch, active, its⟩⟩
    · cases its : c.params.get? "name" with
      | none => exact ⟨_, .unnamed name its⟩
      | some event => exact ⟨_, .post name its⟩
  · cases found : handler? c.name with
    | some handler => exact ⟨_, .call other found⟩
    | none => exact ⟨_, .unknown other found⟩

/-- The reaction to a command carries out what its meaning asks for. -/
theorem react_ofCommand (normal : c.IsNormal) (handler? : String → Option Handler) (e : Engine) :
    Engine.react (.ofCommand handler? c) e =
      (ofMeaning handler? (Inbound.ofCommand c)).carryOut c e := by
  unfold Reaction.ofCommand
  cases meaning : Inbound.ofCommand c with
  | error fault => cases fault <;> rfl
  | ok inbound =>
    cases inbound with
    | trigger name callback params =>
      cases callback <;>
        simp [ofMeaning, carryOut, Reaction.ofTrigger, Engine.react, Reaction.reply]
    | other command =>
      obtain ⟨rebuilt, -⟩ := Inbound.ofCommand_eq_other meaning
      obtain rfl : command = c := rebuilt.trans normal.ofPairs_eq
      simp only [ofMeaning]
      cases handler? command.name <;> rfl
    | hello | goodbye | error | switch => rfl

end Deed

/-- A message is sent on each of these connections, on one after the other and once on each. -/
inductive Connection.Handed (message : String) :
    List Connection → History → List Connection → History → Prop where
  | nil (h : History) : Handed message [] h [] h
  | cons {c : Connection} {rest rest' : List Connection} {h h' : History}
      (later : Handed message rest (c.send message h).2.2 rest' h') :
    Handed message (c :: rest) h ((c.send message h).2.1 :: rest') h'

namespace Command

/-- What is written of an error report reads as its message and, unless it is empty, the name that
it reports. -/
theorem ofWire_error (message name : String) (told : message ≠ "") :
    (ofWire .preserve (error message name).toWire).name = "error" ∧
    ∀ key, (ofWire .preserve (error message name).toWire).params.get? key =
      if key = "message" then some message
      else if key = "command" ∧ name ≠ "" then some name else none := by
  have normal : (error message name).IsNormal :=
    ((isNormal_ofName _).withParam ..).withParam ..
  have named : (error message name).name = normalName "error" := rfl
  have own : normalName (normalName "error") = "error" := by decide
  have held (key : String) : (error message name).params.get? key =
      if key = "command" then some name else if key = "message" then some message else none := by
    have command : Text.lower "command" = "command" := by decide
    have text : Text.lower "message" = "message" := by decide
    simp only [error, withParam, ofName, KeyMap.get?_insert, command, text,
      KeyMap.get?_empty]
  rw [toWire, ofWire_encode _ (by rw [named]; decide), named, own]
  refine ⟨rfl, fun key => ?_⟩
  simp only
  rw [get?_readPairs_toList _ normal.keys_eq, held]
  by_cases text : key = "message"
  · subst text
    simp [told, ValueCase.apply]
  · by_cases command : key = "command"
    · subst command
      by_cases empty : name = "" <;> simp [empty, ValueCase.apply]
    · simp [text, command]

end Command

namespace Engine

/-- What sends over connections hands the message to each of them. -/
theorem handed_sendOver (message : String) (cs : List Connection) (h : History) :
    Connection.Handed message cs h (sendOver message cs h).2.1 (sendOver message cs h).2.2 := by
  induction cs generalizing h with
  | nil => exact .nil h
  | cons c rest ih => exact .cons (ih _)

/-- A command that is sent is handed to every connection, and nothing else is done. -/
theorem handed_send (e : Engine) (command : Command) : ∃ registry history,
    (e.send command).2 = { e with registry := registry, history := history } ∧
      Connection.Handed command.toWire e.registry e.history registry history :=
  ⟨_, _, rfl, handed_sendOver ..⟩

/-- Dispatching a command records it and carries out the deed that is due about it. -/
theorem dispatch_of_due {e : Engine} {c : Command} {deed : Deed} (normal : c.IsNormal)
    (due : Deed.Due (e.handlers.lookup ·) c deed) (connection : String) :
    e.dispatch connection c =
      deed.carryOut c { e with history := e.history.record (.dispatched connection c) } := by
  rw [dispatch, Deed.react_ofCommand normal, due.eq normal]

/-- Whatever line a command was read from, and whatever handlers there are, one deed is due about
the command, and dispatching it does this and nothing else. Building the command again of its name
and its parameters does not alter it. An event that is posted has the parameters that were read as
its fields, but the name and the callback. An error report is handed to every connection once; what
is read of it tells the name of the command as it was read, if there was one. -/
theorem dispatch_once (e : Engine) (connection : String) (valueCase : ValueCase)
    (message : String) :
    let c := Command.ofWire valueCase message
    let noted : Engine := { e with history := e.history.record (.dispatched connection c) }
    (∃! deed, Deed.Due (e.handlers.lookup ·) c deed) ∧
    (∀ deed, Deed.Due (e.handlers.lookup ·) c deed →
      e.dispatch connection c = deed.carryOut c noted) ∧
    Command.ofPairs c.name c.params.toList = c ∧
    (∀ key, (Deed.passedOn c.params).get? key =
      if key = "name" ∨ key = "callback" then none else c.params.get? key) ∧
    ∀ text, Deed.Due (e.handlers.lookup ·) c (.report text) →
      (∃ registry history,
        e.dispatch connection c = { noted with registry := registry, history := history } ∧
        Connection.Handed (Command.error text c.name).toWire noted.registry noted.history
          registry history) ∧
      (Command.ofWire .preserve (Command.error text c.name).toWire).name = "error" ∧
      ∀ key, (Command.ofWire .preserve (Command.error text c.name).toWire).params.get? key =
        if key = "message" then some text
        else if key = "command" ∧ c.name ≠ "" then some c.name else none := by
  intro c noted
  have normal : c.IsNormal := Command.isNormal_ofWire valueCase message
  refine ⟨?_, fun deed due => dispatch_of_due normal due connection, normal.ofPairs_eq,
    Deed.get?_passedOn c.params, ?_⟩
  -- two deeds that are due are both the one that the meaning of the command asks for
  · obtain ⟨deed, due⟩ := Deed.exists_due (e.handlers.lookup ·) c
    exact ⟨deed, due, fun other also => (also.eq normal).symm.trans (due.eq normal)⟩
  · intro text due
    rw [dispatch_of_due normal due connection]
    exact ⟨handed_send noted _, Command.ofWire_error text c.name due.text_ne_empty⟩

end Engine

end Backbox
