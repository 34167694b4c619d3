import Mathlib.Logic.Relation
import Backbox.Engine.Request

/-!
# Moves of an engine

Every request to an engine is a chain of small moves: something is done to one connection,
bytes arrive, the host is told something, a command is dispatched, a connection is added or
removed. What holds at first and is kept by every move holds whatever happens.
-/

namespace Backbox.Engine

open Relation

/-- Something done to one connection, in its place in the registry. -/
def withLink (e : Engine) (front : List Connection) (link : Connection × History)
    (back : List Connection) : Engine :=
  { e with registry := front ++ link.1 :: back, history := link.2 }

/-- A connection is added. -/
def withNew (e : Engine) (name : String) (settings : ConnectionSettings) : Engine :=
  { e with
    registry := e.registry ++ [.new name settings e.connector]
    inboxes := e.inboxes ++ [⟨name, []⟩]
    history := e.history.record (.configured name) }

/-- One thing that a reaction does, or that happens meanwhile. -/
inductive Act (e : Engine) : Engine → Prop where
  | send {front back : List Connection} {c : Connection} (message : String)
      (split : e.registry = front ++ c :: back) :
    Act e (e.withLink front (c.send message e.history).2 back)
  | receive (session : Nat) (bytes : Bytes) : Act e (e.receive session bytes)
  /-- The host is told something, but is not asked to shut down. -/
  | tell (call : HostCall) (other : call ≠ .requestShutdown) :
    Act e { e with history := e.history.tell call }
  | setPending (pending : List HostEvent) : Act e { e with pending := pending }

/-- An engine in the middle of a request, with the connections that are about to be
removed. -/
structure Moment where
  leaving : List String
  engine : Engine

/-- One small thing that happens to an engine. -/
inductive Move : Moment → Moment → Prop where
  | act {names : List String} {e e' : Engine} (act : e.Act e') : Move ⟨names, e⟩ ⟨names, e'⟩
  | connect {names : List String} {e : Engine} {front back : List Connection} {c : Connection}
      (split : e.registry = front ++ c :: back) :
    Move ⟨names, e⟩ ⟨names, e.withLink front (c.connect e.history) back⟩
  | close {names : List String} {e : Engine} {front back : List Connection} {c : Connection}
      (split : e.registry = front ++ c :: back) (down : e.shutDown = true) :
    Move ⟨names, e⟩ ⟨names, e.withLink front (c.close e.history) back⟩
  | lose {names : List String} {e : Engine} (session : Nat) :
    Move ⟨names, e⟩ ⟨names, e.loseSession session⟩
  | wait {names : List String} {e : Engine} (milliseconds : Nat) :
    Move ⟨names, e⟩ ⟨names, e.wait milliseconds⟩
  | setHandlers {names : List String} {e : Engine} (handlers : List (String × Handler)) :
    Move ⟨names, e⟩ ⟨names, { e with handlers := handlers }⟩
  | setStarted {names : List String} {e : Engine} :
    Move ⟨names, e⟩ ⟨names, { e with started := true }⟩
  | setShutDown {names : List String} {e : Engine} :
    Move ⟨names, e⟩ ⟨names, { e with shutDown := true }⟩
  | configure {names : List String} {e : Engine} (name : String) (settings : ConnectionSettings)
      (running : e.shutDown = false) (new : name ∉ e.inboxes.map (·.connection)) :
    Move ⟨names, e⟩ ⟨names, e.withNew name settings⟩
  | dispatch {names : List String} {e e' : Engine} (name : String) (command : Command)
      (taken : e.takeCommand name = some (command, e')) :
    Move ⟨names, e⟩ ⟨names, { e' with history := e'.history.record (.dispatched name command) }⟩
  | depart {names rest : List String} {e : Engine} (name : String)
      (departures : e.departures = name :: rest) :
    Move ⟨names, e⟩ ⟨name :: names, { e with departures := rest }⟩
  | remove {names : List String} {e : Engine} (name : String)
      (drained : e.takeCommand name = none) : Move ⟨name :: names, e⟩ ⟨names, e.remove name⟩

/-- A chain of acts is a chain of moves. -/
theorem moves_of_acts {e e' : Engine} (acts : ReflTransGen Act e e') (names : List String) :
    ReflTransGen Move ⟨names, e⟩ ⟨names, e'⟩ := by
  induction acts with
  | refl => exact .refl
  | tail _ act ih => exact ih.tail (.act act)

private theorem sendOver_acts (message : String) {e : Engine} (front rest : List Connection)
    (split : e.registry = front ++ rest) :
    ReflTransGen Act e { e with
      registry := front ++ (sendOver message rest e.history).2.1
      history := (sendOver message rest e.history).2.2 } := by
  induction rest generalizing e front with
  | nil =>
    have same : { e with registry := front ++ [] } = e := by rw [← split]
    rw [sendOver]
    simp only [same]
    exact .refl
  | cons c rest ih =>
    have moved : (e.withLink front (c.send message e.history).2 rest).registry =
        (front ++ [(c.send message e.history).2.1]) ++ rest := List.append_cons ..
    have others := (ih _ moved).head (Act.send message split)
    rw [List.append_assoc] at others
    exact others

/-- Sending a command is a chain of acts. -/
theorem send_acts (e : Engine) (command : Command) : ReflTransGen Act e (e.send command).2 :=
  sendOver_acts command.toWire [] e.registry rfl

/-- A reaction is a chain of acts. -/
theorem react_acts (reaction : Reaction) (e : Engine) :
    ReflTransGen Act e (react reaction e) := by
  induction reaction generalizing e with
  | done => exact .refl
  | send command next ih => exact (send_acts e command).trans (ih _ _)
  | post event fields next ih =>
    have told : Act e { e with history := e.history.tell (.post event fields false) } :=
      .tell _ (by simp)
    rw [react]
    apply ReflTransGen.head told
    split
    · exact ih _
    · exact .head (.setPending _) (ih _)
  | postAwaited event fields completion next ihCompletion ih =>
    have told : Act e { e with history := e.history.tell (.post event fields true) } :=
      .tell _ (by simp)
    rw [react]
    apply ReflTransGen.head told
    split
    · exact (ihCompletion _).trans (ih _)
    · exact .head (.setPending _) (ih _)
  | setSwitch name active logical next ih => exact .head (.tell _ (by simp)) (ih _)
  | note note next ih => exact .head (.tell _ (by simp)) (ih _)
  | arrival choice bytes next ih =>
    rw [react]
    split
    · exact .head (.receive _ bytes) (ih _)
    · exact ih _

private theorem overConnections_moves {names : List String}
    (act : Connection → History → Connection × History) (ready : Engine → Prop)
    (kept : ∀ {e : Engine} {front back link}, ready e → ready (e.withLink front link back))
    (move : ∀ {e : Engine} {front back c}, ready e → e.registry = front ++ c :: back →
      Move ⟨names, e⟩ ⟨names, e.withLink front (act c e.history) back⟩)
    {e : Engine} (front rest : List Connection) (isReady : ready e)
    (split : e.registry = front ++ rest) :
    ReflTransGen Move ⟨names, e⟩ ⟨names, { e with
      registry := front ++ (overConnections act rest e.history).1
      history := (overConnections act rest e.history).2 }⟩ := by
  induction rest generalizing e front with
  | nil =>
    have same : { e with registry := front ++ [] } = e := by rw [← split]
    rw [overConnections]
    simp only [same]
    exact .refl
  | cons c rest ih =>
    have moved : (e.withLink front (act c e.history) rest).registry =
        (front ++ [(act c e.history).1]) ++ rest := List.append_cons ..
    have others := (ih _ (kept isReady) moved).head (move isReady split)
    rw [List.append_assoc] at others
    exact others

/-- Starting, where it is not refused, connects every connection. -/
theorem start_eq {e e' : Engine} (started : e.start = .ok e') : e' = { e with
    started := true
    registry := (overConnections Connection.connect e.registry e.history).1
    history := (overConnections Connection.connect e.registry e.history).2 } := by
  unfold start at started
  split at started
  · cases started
  · split at started
    · cases started
    · exact (Except.ok.inj started).symm

/-- Starting is a chain of moves. -/
theorem start_moves {names : List String} {e e' : Engine} (started : e.start = .ok e') :
    ReflTransGen Move ⟨names, e⟩ ⟨names, e'⟩ := by
  obtain rfl := start_eq started
  exact (overConnections_moves Connection.connect (fun _ => True) (fun _ => trivial)
    (fun _ split => .connect split) [] e.registry trivial rfl).tail .setStarted

/-- Shutting down is a chain of moves. -/
theorem shutdown_moves {names : List String} (e : Engine) :
    ReflTransGen Move ⟨names, e⟩ ⟨names, e.shutdown⟩ := by
  unfold shutdown
  split
  · exact .refl
  · exact .head .setShutDown (overConnections_moves Connection.close (·.shutDown = true) id
      (fun down split => .close split down) [] e.registry rfl rfl)

private theorem batch_moves {names taken : List String}
    {batch : List (String × ConnectionSettings)} {e : Engine} (running : e.shutDown = false)
    (covered : ∀ name ∈ e.inboxes.map (·.connection), name ∈ taken)
    (free : batchFault? taken batch = none) :
    ReflTransGen Move ⟨names, e⟩ ⟨names, { e with
      registry := e.registry ++ batch.map fun entry => .new entry.1 entry.2 e.connector
      inboxes := e.inboxes ++ batch.map fun entry => ⟨entry.1, []⟩
      history := e.history.recordAll (batch.map fun entry => .configured entry.1) }⟩ := by
  induction batch generalizing e taken with
  | nil =>
    simp only [List.map_nil, List.append_nil]
    exact .refl
  | cons entry rest ih =>
    obtain ⟨name, settings⟩ := entry
    rw [batchFault?] at free
    split at free
    · cases free
    · split at free
      · cases free
      · next new =>
        have more : ∀ n ∈ (e.withNew name settings).inboxes.map (·.connection),
            n ∈ name :: taken := by
          intro n mem
          rw [withNew, List.map_append, List.mem_append] at mem
          rcases mem with mem | mem
          · exact List.mem_cons_of_mem _ (covered n mem)
          · rw [List.mem_singleton.mp mem]
            exact List.mem_cons_self
        have others := ih (e := e.withNew name settings) running more free
        have moves := others.head
          (.configure name settings running fun mem => new (covered name mem))
        simp only [withNew, List.append_assoc] at moves
        exact moves

/-- Connections are added only before shutdown, and where nothing is wrong with them. -/
theorem configure_eq {batch : List (String × ConnectionSettings)} {e e' : Engine}
    (configured : e.configure batch = .ok e') : e.shutDown = false ∧
      batchFault? (e.inboxes.map (·.connection)) batch = none ∧ e' = { e with
        registry := e.registry ++ batch.map fun entry => .new entry.1 entry.2 e.connector
        inboxes := e.inboxes ++ batch.map fun entry => ⟨entry.1, []⟩
        history := e.history.recordAll (batch.map fun entry => .configured entry.1) } := by
  unfold configure at configured
  split at configured
  · cases configured
  · next running =>
    split at configured
    · cases configured
    · next free => exact ⟨Bool.eq_false_iff.mpr running, free, (Except.ok.inj configured).symm⟩

/-- Adding connections is a chain of moves. -/
theorem configure_moves {names : List String} {batch : List (String × ConnectionSettings)}
    {e e' : Engine} (configured : e.configure batch = .ok e') :
    ReflTransGen Move ⟨names, e⟩ ⟨names, e'⟩ := by
  obtain ⟨running, free, rfl⟩ := configure_eq configured
  exact batch_moves running (fun _ mem => mem) free

/-- Dispatching the next command of an inbox is a chain of moves. -/
theorem dispatch_moves {names : List String} {e e' : Engine} {name : String}
    {command : Command} (taken : e.takeCommand name = some (command, e')) :
    ReflTransGen Move ⟨names, e⟩ ⟨names, e'.dispatch name command⟩ :=
  .head (.dispatch name command taken) (moves_of_acts (react_acts _ _) names)

/-- An inbox was empty, or its next command is dispatched before it is emptied. -/
theorem drainInbox_succ {name : String} {bound count : Nat} {e e' : Engine}
    (drained : drainInbox name (bound + 1) e = some (count, e')) :
    e.takeCommand name = none ∧ count = 0 ∧ e' = e ∨
      ∃ command e₁ more, e.takeCommand name = some (command, e₁) ∧
        drainInbox name bound (e₁.dispatch name command) = some (more, e') ∧ count = more + 1 := by
  rw [drainInbox] at drained
  split at drained
  · next empty =>
    obtain ⟨rfl, rfl⟩ := Prod.mk.inj (Option.some.inj drained)
    exact .inl ⟨empty, rfl, rfl⟩
  · next command e₁ taken =>
    obtain ⟨⟨more, final⟩, rest, result⟩ := Option.map_eq_some_iff.mp drained
    obtain ⟨rfl, rfl⟩ := Prod.mk.inj result
    exact .inr ⟨command, e₁, more, taken, rest, rfl⟩

/-- Several inboxes are emptied one after the other. -/
theorem drainInboxes_cons {name : String} {rest : List String} {bound count : Nat}
    {e e' : Engine} (drained : drainInboxes bound (name :: rest) e = some (count, e')) :
    ∃ first e₁ more, drainInbox name bound e = some (first, e₁) ∧
      drainInboxes bound rest e₁ = some (more, e') ∧ count = first + more := by
  rw [drainInboxes] at drained
  obtain ⟨⟨first, e₁⟩, one, drained⟩ := Option.bind_eq_some_iff.mp drained
  obtain ⟨⟨more, e₂⟩, others, result⟩ := Option.bind_eq_some_iff.mp drained
  obtain ⟨rfl, rfl⟩ := Prod.mk.inj (Option.some.inj result)
  exact ⟨first, e₁, more, one, others, rfl⟩

/-- No peer said goodbye, or the first connection whose peer did is removed after its inbox is
emptied. -/
theorem applyDepartures_succ {commandBound bound count : Nat} {e e' : Engine}
    (applied : applyDepartures commandBound (bound + 1) e = some (count, e')) :
    count = 0 ∧ e' = e ∨ ∃ name rest first e₁ more, e.departures = name :: rest ∧
      drainInbox name commandBound { e with departures := rest } = some (first, e₁) ∧
      applyDepartures commandBound bound (e₁.remove name) = some (more, e') ∧
      count = first + more := by
  rw [applyDepartures] at applied
  split at applied
  · obtain ⟨rfl, rfl⟩ := Prod.mk.inj (Option.some.inj applied)
    exact .inl ⟨rfl, rfl⟩
  · next name rest departures =>
    obtain ⟨⟨first, e₁⟩, one, applied⟩ := Option.bind_eq_some_iff.mp applied
    obtain ⟨⟨more, e₂⟩, others, result⟩ := Option.bind_eq_some_iff.mp applied
    obtain ⟨rfl, rfl⟩ := Prod.mk.inj (Option.some.inj result)
    exact .inr ⟨name, rest, first, e₁, more, departures, one, others, rfl⟩

/-- A poll empties the inboxes, then removes the connections whose peers said goodbye. -/
theorem poll_eq_some {bound count : Nat} {e e' : Engine}
    (polled : e.poll bound = some (count, e')) :
    ∃ first e₁ more, drainInboxes bound (e.inboxes.map (·.connection)) e = some (first, e₁) ∧
      applyDepartures bound bound e₁ = some (more, e') ∧ count = first + more := by
  obtain ⟨⟨first, e₁⟩, drained, polled⟩ := Option.bind_eq_some_iff.mp polled
  obtain ⟨⟨more, e₂⟩, departed, result⟩ := Option.bind_eq_some_iff.mp polled
  obtain ⟨rfl, rfl⟩ := Prod.mk.inj (Option.some.inj result)
  exact ⟨first, e₁, more, drained, departed, rfl⟩

/-- Emptying an inbox is a chain of moves, after which the inbox is empty. -/
theorem drainInbox_moves {names : List String} {name : String} {bound count : Nat}
    {e e' : Engine} (drained : drainInbox name bound e = some (count, e')) :
    ReflTransGen Move ⟨names, e⟩ ⟨names, e'⟩ ∧ e'.takeCommand name = none := by
  induction bound generalizing e count with
  | zero => cases drained
  | succ bound ih =>
    rcases drainInbox_succ drained with ⟨empty, -, rfl⟩ | ⟨command, e₁, more, taken, rest, -⟩
    · exact ⟨.refl, empty⟩
    · obtain ⟨moves, empty⟩ := ih rest
      exact ⟨(dispatch_moves taken).trans moves, empty⟩

/-- Emptying several inboxes is a chain of moves. -/
theorem drainInboxes_moves {names order : List String} {bound count : Nat} {e e' : Engine}
    (drained : drainInboxes bound order e = some (count, e')) :
    ReflTransGen Move ⟨names, e⟩ ⟨names, e'⟩ := by
  induction order generalizing e count with
  | nil =>
    obtain ⟨-, rfl⟩ := Prod.mk.inj (Option.some.inj drained)
    exact .refl
  | cons name rest ih =>
    obtain ⟨first, e₁, more, one, others, -⟩ := drainInboxes_cons drained
    exact (drainInbox_moves one).1.trans (ih others)

/-- Removing the connections whose peers said goodbye is a chain of moves. -/
theorem applyDepartures_moves {commandBound bound count : Nat} {e e' : Engine}
    (applied : applyDepartures commandBound bound e = some (count, e')) :
    ReflTransGen Move ⟨[], e⟩ ⟨[], e'⟩ := by
  induction bound generalizing e count with
  | zero => cases applied
  | succ bound ih =>
    rcases applyDepartures_succ applied with
      ⟨-, rfl⟩ | ⟨name, rest, first, e₁, more, departures, one, others, -⟩
    · exact .refl
    · obtain ⟨moves, empty⟩ := drainInbox_moves one
      exact (moves.head (.depart name departures)).trans ((ih others).head (.remove name empty))

/-- Polling is a chain of moves. -/
theorem poll_moves {bound count : Nat} {e e' : Engine} (polled : e.poll bound = some (count, e')) :
    ReflTransGen Move ⟨[], e⟩ ⟨[], e'⟩ := by
  obtain ⟨first, e₁, more, drained, departed, -⟩ := poll_eq_some polled
  exact (drainInboxes_moves drained).trans (applyDepartures_moves departed)

/-- Completing an event is a chain of moves. -/
theorem complete_moves {e e' : Engine} {index : Nat} {event : String}
    (completed : e.complete index = some (event, e')) :
    ReflTransGen Move ⟨[], e⟩ ⟨[], e'⟩ := by
  unfold complete at completed
  split at completed
  · cases completed
  · obtain ⟨-, rfl⟩ := Prod.mk.inj (Option.some.inj completed)
    refine .head (.act (.setPending (e.pending.eraseIdx index))) ?_
    split
    · exact moves_of_acts (react_acts _ _) []
    · exact .refl

/-- Registering a handler, where it is not refused, changes the handlers alone. -/
theorem register_eq {e e' : Engine} {name : String} {handler : Handler}
    (registered : e.register name handler = .ok e') :
    e' = { e with handlers := (Command.normalName name, handler) :: e.handlers } := by
  unfold register at registered
  generalize Command.normalName name = command at registered ⊢
  simp only at registered
  split at registered
  · cases registered
  · split at registered
    · cases registered
    · exact (Except.ok.inj registered).symm

/-- Registering a handler is a move. -/
theorem register_moves {e e' : Engine} {name : String} {handler : Handler}
    (registered : e.register name handler = .ok e') :
    ReflTransGen Move ⟨[], e⟩ ⟨[], e'⟩ := by
  rw [register_eq registered]
  exact .head (.setHandlers _) .refl

/-- Telling the peers of an event is a chain of acts. -/
theorem sendMapped_acts (e : Engine) (event : String) (fields player : Params) :
    ReflTransGen Act e (e.sendMapped event fields player).2 := by
  unfold sendMapped
  split
  · exact send_acts e _
  · exact .refl

/-- Telling the peers of a player variable is a chain of acts. -/
theorem changePlayerVariable_acts (e : Engine) (name value prevValue change : String) :
    ReflTransGen Act e (e.changePlayerVariable name value prevValue change).2 := by
  unfold changePlayerVariable
  split
  · exact send_acts e _
  · exact .refl

private theorem orRefuse_moves {e : Engine} {result : Except EngineFault Engine}
    (moves : ∀ e', result = .ok e' → ReflTransGen Move ⟨[], e⟩ ⟨[], e'⟩) :
    ReflTransGen Move ⟨[], e⟩ ⟨[], (e.orRefuse result).2⟩ := by
  cases result with
  | ok e' => exact moves e' rfl
  | error fault => exact .refl

/-- Every request is a chain of moves. -/
theorem handle_moves (e : Engine) (request : Request) :
    ReflTransGen Move ⟨[], e⟩ ⟨[], (e.handle request).2⟩ := by
  cases request with
  | configure batch => exact orRefuse_moves fun _ => configure_moves
  | start => exact orRefuse_moves fun _ => start_moves
  | send command => exact moves_of_acts (send_acts e command) []
  | sendMapped event fields player => exact moves_of_acts (sendMapped_acts ..) []
  | changePlayerVariable name value prevValue change =>
    exact moves_of_acts (changePlayerVariable_acts ..) []
  | poll bound =>
    rw [handle]
    split
    · next polled => exact poll_moves polled
    · exact .refl
  | register name handler =>
    rw [handle]
    exact orRefuse_moves fun _ registered => register_moves registered
  | complete index =>
    rw [handle]
    split
    · next completed => exact complete_moves completed
    · exact .refl
  | receive session bytes => exact .head (.act (.receive session bytes)) .refl
  | loseSession session => exact .head (.lose session) .refl
  | wait milliseconds => exact .head (.wait milliseconds) .refl
  | shutdown => exact shutdown_moves e

/-- A sequence of requests is a chain of moves. -/
theorem run_moves (e : Engine) (requests : List Request) :
    ReflTransGen Move ⟨[], e⟩ ⟨[], e.run requests⟩ := by
  induction requests generalizing e with
  | nil => exact .refl
  | cons request rest ih => exact (handle_moves e request).trans (ih _)

end Backbox.Engine
