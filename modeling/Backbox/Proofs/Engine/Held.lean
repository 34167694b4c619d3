import Backbox.Proofs.Engine.Poll
import Backbox.Proofs.Engine.Silence

/-!
# Events that the host holds

The host completes events when it likes, in any order. Until it does, an event only waits: whatever
the engine does meanwhile, it would do the same if another event waited in its place. Events that
are completed move up those behind them, so that every event that is held has a place of its own.
-/

namespace Backbox.Engine

/-- The engine, with these events for the host to complete. -/
def withPending (e : Engine) (events : List HostEvent) : Engine := { e with pending := events }

/-- Something that an engine does, short of completing an event: what a poll does is one command or
one connection at a time, so that events are told apart by when they are posted. -/
inductive Step (e : Engine) : Engine → Prop where
  | dispatch {e' : Engine} {name : String} {command : Command}
      (taken : e.takeCommand name = some (command, e')) : Step e (e'.dispatch name command)
  | depart {rest : List String} (name : String) (departures : e.departures = name :: rest) :
    Step e { e with departures := rest }
  | remove (name : String) : Step e (e.remove name)
  | handle (request : Request) (other : request.answers = false) : Step e (e.handle request).2

/-- What an engine does, step by step, while the events at these places are completed. -/
inductive Steps : Engine → List Nat → Engine → Prop where
  | refl (e : Engine) : Steps e [] e
  | step {e e₁ e' : Engine} {completed : List Nat} (step : Step e e₁)
      (later : Steps e₁ completed e') : Steps e completed e'
  | complete {e e₁ e' : Engine} {event : String} {index : Nat} {completed : List Nat}
      (done : e.complete index = some (event, e₁)) (later : Steps e₁ completed e') :
    Steps e (index :: completed) e'

/-- Where an event is held that was at a place before one at another place was completed. -/
def moveUp (index place : Nat) : Nat := if index < place then place - 1 else place

/-- Where an event is held after events were completed one after the other, unless it was one of
them. -/
def heldAt (place : Nat) : List Nat → Option Nat
  | [] => some place
  | index :: rest => if index = place then none else heldAt (moveUp index place) rest

/-- The places of the events that are completed in a run. -/
def completions (e : Engine) : List Request → List Nat
  | [] => []
  | request :: rest =>
    let later := (e.handle request).2.completions rest
    match request with
    | .complete index => if (e.complete index).isSome then index :: later else later
    | _ => later

variable {e e' e'' : Engine}

section Steps

variable {completed more : List Nat}

/-- Some things are done after others. -/
theorem Steps.trans (first : Steps e completed e') (second : Steps e' more e'') :
    Steps e (completed ++ more) e'' := by
  induction first with
  | refl => exact second
  | step step _ ih => exact .step step (ih second)
  | complete done _ ih => exact .complete done (ih second)

/-- One thing is done after others. -/
theorem Steps.tail (steps : Steps e completed e') (step : Step e' e'') :
    Steps e completed e'' := by
  have all := steps.trans (.step step (.refl e''))
  rwa [List.append_nil] at all

/-- In a poll, no event is completed. -/
theorem steps_poll {bound count : Nat} (polled : e.poll bound = some (count, e')) :
    Steps e [] e' :=
  poll_keeps (p := fun _ e' => Steps e [] e') (fun taken steps => steps.tail (.dispatch taken))
    (fun departures steps => steps.tail (.depart _ departures))
    (fun _ steps => steps.tail (.remove _)) polled (.refl e)

/-- Every run is done step by step. -/
theorem steps_run (e : Engine) (requests : List Request) :
    Steps e (e.completions requests) (e.run requests) := by
  induction requests generalizing e with
  | nil => exact .refl e
  | cons request rest ih =>
    have later := ih (e.handle request).2
    have run : e.run (request :: rest) = (e.handle request).2.run rest := rfl
    rw [run]
    cases request with
    | complete index =>
      rw [completions]
      simp only [handle] at later ⊢
      cases completed : e.complete index with
      | none =>
        rw [completed] at later
        exact later
      | some result =>
        rw [completed] at later
        exact .complete completed later
    | poll bound =>
      simp only [completions, handle] at later ⊢
      cases polled : e.poll bound with
      | none =>
        rw [polled] at later
        exact later
      | some result =>
        rw [polled] at later
        exact (steps_poll polled).trans later
    | _ =>
      simp only [completions]
      exact .step (.handle _ rfl) later

end Steps

section Frame

/-- Whatever events are held, this does the same, and puts the same events behind them. -/
def Adds (act : Engine → Engine) : Prop :=
  ∀ e, ∃ more, ∀ events, act (e.withPending events) = (act e).withPending (events ++ more)

variable {act next : Engine → Engine} {request : Request} {events : List HostEvent}

/-- What leaves the events that are held alone adds none. -/
theorem Adds.of_eq (same : ∀ e events, act (e.withPending events) = (act e).withPending events) :
    Adds act :=
  fun e => ⟨[], fun events => by rw [List.append_nil, same]⟩

private theorem adds_id : Adds id := .of_eq fun _ _ => rfl

/-- Things that are done one after the other add events one after the other. -/
theorem Adds.comp (later : Adds next) (first : Adds act) : Adds fun e => next (act e) := by
  intro e
  obtain ⟨new, frame⟩ := first e
  obtain ⟨more, frame'⟩ := later (act e)
  refine ⟨new ++ more, fun events => ?_⟩
  simp only
  rw [frame, frame', List.append_assoc]

/-- What is added stands behind the events that were held. -/
theorem Adds.pending (adds : Adds act) (e : Engine) : ∃ more,
    (act e).pending = e.pending ++ more ∧
      ∀ events, act (e.withPending events) = (act e).withPending (events ++ more) := by
  obtain ⟨more, frame⟩ := adds e
  exact ⟨more, congrArg Engine.pending (frame e.pending), frame⟩

private theorem adds_post (call : HostCall) (event : HostEvent) (adds : Adds act) : Adds fun e =>
      if e.completesAtOnce then act { e with history := e.history.tell call }
      else { e with history := e.history.tell call, pending := e.pending ++ [event] } := by
  intro e
  by_cases atOnce : e.completesAtOnce = true
  · obtain ⟨more, frame⟩ := adds { e with history := e.history.tell call }
    refine ⟨more, fun events => ?_⟩
    have := frame events
    simpa [atOnce, withPending] using this
  · exact ⟨[event], fun events => by simp [atOnce, withPending]⟩

/-- Taking in bytes makes no difference to the events that are held. -/
theorem receive_withPending (e : Engine) (session : Nat) (bytes : Bytes) :
    (e.withPending events).receive session bytes =
      (e.receive session bytes).withPending events := by
  have same : (e.withPending events).connectionOf? session = e.connectionOf? session := rfl
  rw [receive, receive, same]
  cases e.connectionOf? session <;> rfl

private theorem adds_arrival (choice : SessionChoice) (bytes : Bytes) : Adds fun e =>
    match e.session? choice with
    | some session => e.receive session bytes
    | none => e := by
  refine .of_eq fun e events => ?_
  have same : (e.withPending events).session? choice = e.session? choice := rfl
  simp only [same]
  cases e.session? choice with
  | none => rfl
  | some session => exact receive_withPending e session bytes

/-- A reaction leaves the events that are held as they are, and puts its own behind them. -/
theorem adds_react (reaction : Reaction) : Adds (react reaction) := by
  induction reaction with
  | done => exact adds_id
  | send command next ih =>
    -- what follows depends on the count, which is the same whatever events are held
    intro e
    obtain ⟨more, frame⟩ := ih (e.send command).1 (e.send command).2
    exact ⟨more, frame⟩
  | post event fields next ih =>
    exact ih.comp (adds_post (.post event fields false) ⟨event, fields, none⟩ adds_id)
  | postAwaited event fields completion next ihCompletion ih =>
    exact ih.comp (adds_post _ _ ihCompletion)
  | setSwitch name active logical next ih => exact ih.comp (.of_eq fun _ _ => rfl)
  | note note next ih => exact ih.comp (.of_eq fun _ _ => rfl)
  | arrival choice bytes next ih =>
    exact ih.comp (adds_arrival choice bytes)

/-- Dispatching a command puts what is posted then behind the events that are held. -/
theorem adds_dispatch (name : String) (command : Command) : Adds (·.dispatch name command) :=
  fun e => adds_react (.ofCommand (e.handlers.lookup ·) command)
    { e with history := e.history.record (.dispatched name command) }

private theorem orRefuse_withPending (result : Except EngineFault Engine) :
    ((e.withPending events).orRefuse (result.map (·.withPending events))).2 =
      (e.orRefuse result).2.withPending events := by
  cases result <;> rfl

private theorem configure_withPending (batch : List (String × ConnectionSettings)) :
    (e.withPending events).configure batch = (e.configure batch).map (·.withPending events) := by
  unfold configure withPending
  split
  · rfl
  · simp only
    split <;> rfl

private theorem start_withPending :
    (e.withPending events).start = e.start.map (·.withPending events) := by
  unfold start withPending
  split
  · rfl
  · simp only
    split <;> rfl

private theorem register_withPending (name : String) (handler : Handler) :
    (e.withPending events).register name handler =
      (e.register name handler).map (·.withPending events) := by
  unfold register withPending
  generalize Command.normalName name = command
  simp only
  by_cases reserved : command ∈ reservedCommands
  · rw [if_pos reserved, if_pos reserved]
    rfl
  · rw [if_neg reserved, if_neg reserved]
    split <;> rfl

/-- A request that does not let the engine act on what its peers said leaves the events that are
held as they are, and does the same whatever they are. -/
theorem handle_withPending (e : Engine) (other : request.answers = false) :
    ((e.withPending events).handle request).2 = (e.handle request).2.withPending events := by
  cases request with
  | configure batch => simp only [handle, configure_withPending, orRefuse_withPending]
  | start => simp only [handle, start_withPending, orRefuse_withPending]
  | register name handler => simp only [handle, register_withPending, orRefuse_withPending]
  | sendMapped event fields player =>
    simp only [handle, sendMapped, withPending]
    cases e.eventMap.render event fields player <;> rfl
  | changePlayerVariable name value prevValue change =>
    simp only [handle, changePlayerVariable, withPending]
    cases e.playerVariables.render name value prevValue change <;> rfl
  | receive session bytes => exact receive_withPending e session bytes
  | loseSession session =>
    have same : (e.withPending events).connectionOf? session = e.connectionOf? session := rfl
    simp only [handle, loseSession, same]
    cases e.connectionOf? session <;> rfl
  | shutdown =>
    by_cases down : e.shutDown = true <;> simp [handle, shutdown, withPending, down]
  | send | wait => rfl
  | poll | complete => cases other

private theorem takeCommand_withPending {name : String} {command : Command}
    (taken : e.takeCommand name = some (command, e')) (events : List HostEvent) :
    (e.withPending events).takeCommand name = some (command, e'.withPending events) := by
  unfold takeCommand at taken ⊢
  split at taken
  · next first rest found =>
    obtain ⟨rfl, rfl⟩ := Prod.mk.inj (Option.some.inj taken)
    have found : (e.withPending events).inboxes.find? (·.connection = name) = _ := found
    rw [found]
    rfl
  · cases taken

/-- Whatever is done, events that are held stay in their places, and they make no difference. -/
theorem Step.frame (step : Step e e') : ∃ more, e'.pending = e.pending ++ more ∧
    ∀ events, Step (e.withPending events) (e'.withPending (events ++ more)) := by
  cases step with
  | @dispatch e' name command taken =>
    obtain ⟨more, pending, frame⟩ := (adds_dispatch name command).pending e'
    refine ⟨more, ?_, fun events => ?_⟩
    · obtain ⟨-, rfl⟩ := takeCommand_eq taken
      exact pending
    · rw [← frame]
      exact .dispatch (takeCommand_withPending taken events)
  | depart name departures =>
    refine ⟨[], (List.append_nil _).symm, fun events => ?_⟩
    rw [List.append_nil]
    exact .depart (e := e.withPending events) name departures
  | remove name =>
    refine ⟨[], (List.append_nil _).symm, fun events => ?_⟩
    rw [List.append_nil]
    exact .remove (e := e.withPending events) name
  | handle request other =>
    refine ⟨[], ?_, fun events => ?_⟩
    · rw [List.append_nil, pending_handle e other]
    · rw [List.append_nil, ← handle_withPending e other]
      exact .handle request other

/-- What is done when an event is completed. -/
def finish (event : HostEvent) (e : Engine) : Engine :=
  match event.completion with
  | some completion => react completion e
  | none => e

/-- An event that is completed is held no more, and what is to be done is done. -/
theorem complete_eq (e : Engine) (index : Nat) : e.complete index =
    e.pending[index]?.map fun event =>
      (event.name, finish event (e.withPending (e.pending.eraseIdx index))) := by
  unfold complete
  cases e.pending[index]? <;> rfl

/-- Completing an event puts what is posted then behind the events that are held, and they make no
difference. -/
theorem adds_finish (event : HostEvent) : Adds (finish event) := by
  unfold finish
  cases event.completion with
  | none => exact .of_eq fun _ _ => rfl
  | some completion => exact adds_react completion

/-- Completing an event moves up those behind it. What other events are held makes no
difference. -/
theorem complete_frame {index : Nat} {event : String}
    (done : e.complete index = some (event, e')) : ∃ more,
      e'.pending = e.pending.eraseIdx index ++ more ∧ ∀ events, events[index]? = e.pending[index]? →
        (e.withPending events).complete index =
          some (event, e'.withPending (events.eraseIdx index ++ more)) := by
  rw [complete_eq] at done
  obtain ⟨held, found, result⟩ := Option.map_eq_some_iff.mp done
  obtain ⟨rfl, rfl⟩ := Prod.mk.inj result
  obtain ⟨more, pending, frame⟩ :=
    (adds_finish held).pending (e.withPending (e.pending.eraseIdx index))
  refine ⟨more, pending, fun events same => ?_⟩
  have frame := frame (events.eraseIdx index)
  rw [complete_eq]
  change events[index]?.map _ = _
  rw [same, found, Option.map_some]
  exact congrArg (fun e => some (held.name, e)) frame

end Frame

section Places

variable {place place' other index : Nat} {events : List HostEvent} {event : HostEvent}

/-- An event is found where it moves up to. -/
theorem getElem?_moveUp (differ : index ≠ place) :
    (events.eraseIdx index)[moveUp index place]? = events[place]? := by
  rw [moveUp, List.getElem?_eraseIdx]
  split
  · next before =>
    rw [if_neg (by omega), Nat.sub_add_cancel (by omega)]
  · rw [if_pos (by omega)]

/-- An event that is replaced is replaced where it moves up to. -/
theorem set_moveUp (differ : index ≠ place) :
    (events.set place event).eraseIdx index =
      (events.eraseIdx index).set (moveUp index place) event := by
  rw [moveUp]
  split
  · next before => exact List.eraseIdx_set_lt before
  · exact List.eraseIdx_set_gt (by omega)

/-- No two events move up to one place. -/
theorem moveUp_inj (differ : index ≠ place) (differ' : index ≠ place')
    (same : moveUp index place = moveUp index place') : place = place' := by
  unfold moveUp at same
  split at same <;> split at same <;> omega

/-- No two events are held at one place. -/
theorem heldAt_inj {completed : List Nat} {last : Nat} (held : heldAt place completed = some last)
    (held' : heldAt place' completed = some last) : place = place' := by
  induction completed generalizing place place' with
  | nil => exact Option.some.inj (held.trans held'.symm)
  | cons index rest ih =>
    rw [heldAt] at held held'
    split at held
    · cases held
    · next differ =>
      split at held'
      · cases held'
      · next differ' => exact moveUp_inj differ differ' (ih held held')

end Places

/-- An event that is not completed is held, at one place. Until it is completed nothing that is done
depends on it: with another event in its place, the same is done. -/
theorem Steps.held {completed : List Nat} (steps : Steps e completed e') {place place' : Nat}
    (bound : place < e.pending.length) (held : heldAt place completed = some place') :
    e'.pending[place']? = e.pending[place]? ∧ ∀ other,
      Steps (e.withPending (e.pending.set place other)) completed
        (e'.withPending (e'.pending.set place' other)) := by
  induction steps generalizing place with
  | refl e =>
    obtain rfl : place = place' := Option.some.inj held
    exact ⟨rfl, fun other => .refl _⟩
  | @step e e₁ e' completed step later ih =>
    obtain ⟨more, pending, frame⟩ := step.frame
    have bound' : place < e₁.pending.length := by
      rw [pending, List.length_append]
      omega
    obtain ⟨same, others⟩ := ih bound' held
    refine ⟨?_, fun other => .step (frame _) ?_⟩
    · rw [same, pending, List.getElem?_append_left bound]
    · rw [← List.set_append_left place other bound, ← pending]
      exact others other
  | @complete e e₁ e' event index completed done later ih =>
    rw [heldAt] at held
    split at held
    · cases held
    -- another event is completed, and this one is held on, perhaps one place further up
    next differ =>
    obtain ⟨more, pending, frame⟩ := complete_frame done
    have found : (e.pending.eraseIdx index)[moveUp index place]? = e.pending[place]? :=
      getElem?_moveUp differ
    have bound₁ : moveUp index place < (e.pending.eraseIdx index).length := by
      by_contra beyond
      rw [List.getElem?_eq_none (by omega), List.getElem?_eq_getElem bound] at found
      cases found
    have bound' : moveUp index place < e₁.pending.length := by
      rw [pending, List.length_append]
      omega
    obtain ⟨same, others⟩ := ih bound' held
    refine ⟨?_, fun other => .complete (frame _ ?_) ?_⟩
    · rw [same, pending, List.getElem?_append_left bound₁, found]
    · rw [List.getElem?_set_ne (Ne.symm differ)]
    · rw [set_moveUp differ, ← List.set_append_left _ other bound₁, ← pending]
      exact others other

/-- An event that is held no more was completed once. -/
theorem Steps.completed_of_heldAt {completed : List Nat} (steps : Steps e completed e')
    {place : Nat} (gone : heldAt place completed = none) : ∃ before place' later e₁ e₂ event,
      completed = before ++ place' :: later ∧ Steps e before e₁ ∧
        heldAt place before = some place' ∧ e₁.complete place' = some (event, e₂) ∧
        Steps e₂ later e' := by
  induction steps generalizing place with
  | refl e => cases gone
  | step step later ih =>
    obtain ⟨before, place', rest, e₁, e₂, event, rfl, first, held, done, last⟩ := ih gone
    exact ⟨before, place', rest, e₁, e₂, event, rfl, .step step first, held, done, last⟩
  | @complete e e₁ e' event index completed done later ih =>
    rw [heldAt] at gone
    split at gone
    · next its =>
      exact ⟨[], index, completed, e, e₁, event, rfl, .refl e, by rw [heldAt, its], done, later⟩
    · next differ =>
      obtain ⟨before, place', rest, e₁, e₂, event, rfl, first, held, done', last⟩ := ih gone
      refine ⟨index :: before, place', rest, e₁, e₂, event, rfl, .complete done first, ?_, done',
        last⟩
      rw [heldAt, if_neg differ, held]

end Backbox.Engine
