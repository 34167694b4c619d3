import Backbox.Proofs.Connection.Lifecycle

/-!
# What is done to a connection

Everything that an engine does to a connection is a chain of steps. Such a chain adds only
entries about this connection and its sessions to the journal.
-/

namespace Backbox.Connection

/-- A chain of steps, with all the entries that they add to the journal. -/
inductive Steps : Connection → History → List Effect → Connection → History → Prop where
  | none {c : Connection} {h : History} : Steps c h [] c h
  | cons {c c' c'' : Connection} {h h' h'' : History} {es more : List Effect} :
    c.Step h es c' h' → Steps c' h' more c'' h'' → Steps c h (es ++ more) c'' h''

/-- What holds of the entries, the connection and the history after a chain of steps. -/
structure Course (c : Connection) (h : History) (es : List Effect) (c' : Connection)
    (h' : History) : Prop where
  on : h.GoesOn es h'
  name_eq : c'.name = c.name
  /-- Entries name no other connection. -/
  named : ∀ e ∈ es, ∀ name, e.connection? = some name → name = c.name
  /-- Entries are about the session that was live, or about new ones. -/
  numbered : ∀ e ∈ es, ∀ id, e.session? = some id →
    (∃ s, c.session = some s ∧ s.id = id) ∨ h.sessions ≤ id ∧ id < h'.sessions
  /-- The session is still the one that was live, or a new one. -/
  live : ∀ s, c'.session = some s →
    (∃ t, c.session = some t ∧ t.id = s.id) ∨ h.sessions ≤ s.id ∧ s.id < h'.sessions
  /-- No connection is added or removed, and no command dispatched. -/
  stay : ∀ e ∈ es, e.configures = false ∧ e.removes = false ∧ e.dispatches = false

namespace Course

variable {c c' c'' : Connection} {h h' h'' : History} {es more : List Effect}

/-- Nothing is done. -/
theorem refl (c : Connection) (h : History) : c.Course h [] c h where
  on := .refl h
  name_eq := rfl
  named _ he := absurd he List.not_mem_nil
  numbered _ he := absurd he List.not_mem_nil
  live s hs := .inl ⟨s, hs, rfl⟩
  stay _ he := absurd he List.not_mem_nil

/-- One thing is done after another. -/
theorem trans (first : c.Course h es c' h') (second : c'.Course h' more c'' h'') :
    c.Course h (es ++ more) c'' h'' where
  on := first.on.trans second.on
  name_eq := second.name_eq.trans first.name_eq
  named e he name hn := by
    rcases List.mem_append.mp he with he | he
    · exact first.named e he name hn
    · exact (second.named e he name hn).trans first.name_eq
  numbered e he id hid := by
    have := first.on.sessions
    have := second.on.sessions
    rcases List.mem_append.mp he with he | he
    · rcases first.numbered e he id hid with old | new
      · exact .inl old
      · exact .inr ⟨new.1, by omega⟩
    · rcases second.numbered e he id hid with ⟨s, hs, rfl⟩ | new
      · rcases first.live s hs with old | new
        · exact .inl old
        · exact .inr ⟨new.1, by omega⟩
      · exact .inr ⟨by omega, new.2⟩
  live s hs := by
    have := first.on.sessions
    have := second.on.sessions
    rcases second.live s hs with ⟨t, ht, same⟩ | new
    · rcases first.live t ht with ⟨u, hu, old⟩ | new
      · exact .inl ⟨u, hu, old.trans same⟩
      · exact .inr ⟨by omega, by omega⟩
    · exact .inr ⟨by omega, new.2⟩
  stay e he := (List.mem_append.mp he).elim (first.stay e) (second.stay e)

end Course

private inductive OnSession (id : Nat) : Effect → Prop where
  | wrote (line : String) : OnSession id (.wrote id line)
  | closed (cause : SessionEnd) : OnSession id (.closed id cause)
  | read (bytes : Bytes) : OnSession id (.read id bytes)
  | framed (payload : Bytes) : OnSession id (.framed id payload)
  | host (call : HostCall) : OnSession id (.host call)

private theorem course_of_live {c c' : Connection} {h h' : History} {es : List Effect}
    {s : Session} (live : c.session = some s) (on : h.GoesOn es h')
    (own : ∀ e ∈ es, OnSession s.id e) (name : c'.name = c.name)
    (still : ∀ t, c'.session = some t → t.id = s.id) : c.Course h es c' h' where
  on := on
  name_eq := name
  named e he name hn := by
    cases own e he <;> cases hn
  numbered e he id hid := by
    refine .inl ⟨s, live, ?_⟩
    cases own e he with
    | wrote | closed | read | framed => exact Option.some.inj hid
    | host => cases hid
  live t ht := .inl ⟨s, live, (still t ht).symm⟩
  stay e he := by
    cases own e he <;> exact ⟨rfl, rfl, rfl⟩

/-- What holds after one step. -/
theorem Step.course {c c' : Connection} {h h' : History} {es : List Effect}
    (step : c.Step h es c' h') : c.Course h es c' h' := by
  cases step with
  | gaveUp => exact { Course.refl c h with name_eq := rfl, live := fun s hs => .inl ⟨s, hs, rfl⟩ }
  | failed now calls unsettled left on =>
    obtain ⟨state, queue, -, failed⟩ := c.fail_eq now
    rw [failed]
    have entry : ∀ e ∈ Effect.dialled ⟨c.name, c.settings, none⟩ :: calls.map .host,
        e = .dialled ⟨c.name, c.settings, none⟩ ∨ ∃ call, e = .host call := by
      intro e he
      rcases List.mem_cons.mp he with rfl | he
      · exact .inl rfl
      · obtain ⟨call, -, rfl⟩ := List.mem_map.mp he
        exact .inr ⟨call, rfl⟩
    refine ⟨on, rfl, ?_, ?_, fun s hs => .inl ⟨s, hs, rfl⟩, ?_⟩
    · intro e he name hn
      rcases entry e he with rfl | ⟨call, rfl⟩
      · exact (Option.some.inj hn).symm
      · cases hn
    · intro e he id hid
      rcases entry e he with rfl | ⟨call, rfl⟩ <;> cases hid
    · intro e he
      rcases entry e he with rfl | ⟨call, rfl⟩ <;> exact ⟨rfl, rfl, rfl⟩
  | opened unsettled left on =>
    have more : h'.sessions = h.sessions + 1 := on.sessions
    refine ⟨on, rfl, ?_, fun e he id hid => .inr ?_, fun s hs => .inr ?_, ?_⟩
    · intro e he name hn
      rw [List.mem_singleton.mp he] at hn
      exact (Option.some.inj hn).symm
    · rw [List.mem_singleton.mp he] at hid
      obtain rfl : h.sessions = id := Option.some.inj hid
      omega
    · obtain rfl : _ = s := Option.some.inj hs
      simp only
      omega
    · intro e he
      rw [List.mem_singleton.mp he]
      exact ⟨rfl, rfl, rfl⟩
  | accepted message available on =>
    refine ⟨on, rfl, ?_, ?_, fun s hs => .inl ⟨s, hs, rfl⟩, ?_⟩
    · intro e he name hn
      rw [List.mem_singleton.mp he] at hn
      exact (Option.some.inj hn).symm
    · intro e he id hid
      rw [List.mem_singleton.mp he] at hid
      cases hid
    · intro e he
      rw [List.mem_singleton.mp he]
      exact ⟨rfl, rfl, rfl⟩
  | flushed s live on =>
    refine course_of_live live on (fun e he => ?_) rfl
      fun t ht => by rw [Option.some.inj (live.symm.trans ht)]
    obtain ⟨line, -, rfl⟩ := List.mem_map.mp he
    exact .wrote line
  | closedIdle idle =>
    exact { Course.refl c h with name_eq := rfl, live := fun s hs => .inl ⟨s, hs, rfl⟩ }
  | closedLive s live on =>
    refine course_of_live live on (fun e he => ?_) rfl fun t ht => by cases ht
    rcases List.mem_append.mp he with he | he
    · obtain ⟨line, -, rfl⟩ := List.mem_map.mp he
      exact .wrote line
    · rw [List.mem_singleton.mp he]
      exact .closed _
  | lost s cause live flushed unasked on =>
    refine course_of_live live on (fun e he => ?_) rfl fun t ht => by cases ht
    rw [List.mem_singleton.mp he]
    exact .closed _
  | departed s calls live flushed on =>
    refine course_of_live live on (fun e he => ?_) rfl fun t ht => by cases ht
    rcases List.mem_cons.mp he with rfl | he
    · exact .closed _
    · obtain ⟨call, -, rfl⟩ := List.mem_map.mp he
      exact .host call
  | heard s framer bytes live on =>
    refine course_of_live live on (fun e he => ?_) rfl
      fun t ht => by rw [← Option.some.inj ht]
    rw [List.mem_singleton.mp he]
    exact .read _
  | framed s payload live on =>
    refine course_of_live live on (fun e he => ?_) rfl
      fun t ht => by rw [Option.some.inj (live.symm.trans ht)]
    rw [List.mem_singleton.mp he]
    exact .framed _

namespace Steps

variable {c c' c'' : Connection} {h h' h'' : History} {es more : List Effect}

/-- One step is a chain. -/
theorem one (step : c.Step h es c' h') : c.Steps h es c' h' := by
  have chain := Steps.cons step .none
  rwa [List.append_nil] at chain

/-- One chain after another. -/
theorem trans (first : c.Steps h es c' h') (second : c'.Steps h' more c'' h'') :
    c.Steps h (es ++ more) c'' h'' := by
  induction first with
  | none => exact second
  | cons step _ ih =>
    rw [List.append_assoc]
    exact .cons step (ih second)

/-- Every chain of steps keeps the lifecycle. -/
theorem lifecycle (steps : c.Steps h es c' h') (sound : c.Lifecycle) : c'.Lifecycle := by
  induction steps with
  | none => exact sound
  | cons step _ ih => exact ih (step.lifecycle sound)

/-- What holds after a chain of steps. -/
theorem course (steps : c.Steps h es c' h') : c.Course h es c' h' := by
  induction steps with
  | none => exact .refl _ _
  | cons step _ ih => exact step.course.trans ih

end Steps

/-- A connection whose peer said goodbye stays so. -/
theorem Steps.departed {c c' : Connection} {h h' : History} {es : List Effect}
    (steps : c.Steps h es c' h') (gone : c.departed = true) : c'.departed = true := by
  induction steps with
  | none => exact gone
  | cons step _ ih =>
    apply ih
    cases step with
    | failed now =>
      obtain ⟨state, queue, -, failed⟩ := Connection.fail_eq _ now
      rw [failed]
      exact gone
    | departed => rfl
    | gaveUp | opened | accepted | flushed | closedIdle | closedLive | lost | heard | framed =>
      exact gone

/-- Only its goodbye makes a peer depart. -/
theorem Steps.departed_eq {c c' : Connection} {h h' : History} {es : List Effect}
    (steps : c.Steps h es c' h') (silent : ∀ e ∈ es, e.hears = false) :
    c'.departed = c.departed := by
  induction steps with
  | none => rfl
  | cons step _ ih =>
    refine (ih fun e he => silent e (List.mem_append_right _ he)).trans ?_
    cases step with
    | failed now =>
      obtain ⟨state, queue, -, failed⟩ := Connection.fail_eq _ now
      rw [failed]
    | departed => exact absurd (silent _ List.mem_cons_self) (by simp [Effect.hears])
    | gaveUp | opened | accepted | flushed | closedIdle | closedLive | lost | heard | framed => rfl

/-- No step does anything to a connection that is closed. -/
theorem Step.of_closed {c c' : Connection} {h h' : History} {es : List Effect}
    (step : c.Step h es c' h') (sound : c.Lifecycle) (closed : c.state = .closed) :
    es = [] ∧ c' = c := by
  obtain ⟨idle, empty⟩ := sound.closed closed
  have settled : c.isSettled ≠ false := fun unsettled =>
    (unsettled_iff.mp unsettled).2.2.2 closed
  cases step with
  | gaveUp unsettled | failed _ _ unsettled | opened unsettled => exact absurd unsettled settled
  | accepted _ available => exact absurd closed (isAvailable_iff.mp available).2.2
  | closedIdle =>
    obtain ⟨name, settings, connector, state, made, owes, gone, noted, session, limit,
      messages⟩ := c
    obtain rfl : state = .closed := closed
    obtain rfl : messages = [] := empty
    exact ⟨rfl, rfl⟩
  | flushed s live | closedLive s live | lost s _ live | departed s _ live | heard s _ _ live
    | framed s _ live =>
    rw [idle] at live
    cases live

/-- No chain of steps does anything to a connection that is closed. -/
theorem Steps.of_closed {c c' : Connection} {h h' : History} {es : List Effect}
    (steps : c.Steps h es c' h') (sound : c.Lifecycle) (closed : c.state = .closed) :
    es = [] ∧ c' = c := by
  induction steps with
  | none => exact ⟨rfl, rfl⟩
  | cons step _ ih =>
    obtain ⟨rfl, rfl⟩ := step.of_closed sound closed
    exact ih sound closed

/-- What becomes of a connection that can never be reached again: it stays so, and is only
ever closed. -/
structure Rests (c c' : Connection) : Prop where
  past : c'.isAvailable = false
  departed : c'.departed = c.departed
  state : c'.state = c.state ∨ c'.state = .closed

/-- A connection that rests goes on to rest. -/
theorem Rests.trans {c c' c'' : Connection} (first : c.Rests c') (second : c'.Rests c'') :
    c.Rests c'' where
  past := second.past
  departed := second.departed.trans first.departed
  state := second.state.elim (fun same => same ▸ first.state) .inr

/-- No step revives a connection that can never be reached again, tries it, or accepts a
message for it. -/
theorem Step.rests {c c' : Connection} {h h' : History} {es : List Effect}
    (step : c.Step h es c' h') (sound : c.Lifecycle) (past : c.isAvailable = false) :
    c.Rests c' ∧ ∀ e ∈ es, e.dials = false ∧ e.accepts = false := by
  have away : c.isAvailable ≠ true := by simp [past]
  have idle : c.session = none := by
    cases live : c.session with
    | none => rfl
    | some s =>
      refine absurd (isAvailable_iff.mpr ⟨sound.stays live, ?_⟩) away
      simp [sound.connected live]
  have settled : c.isSettled ≠ false := fun unsettled =>
    away (isAvailable_iff.mpr (unsettled_iff.mp unsettled).2)
  cases step with
  | gaveUp unsettled | failed _ _ unsettled | opened unsettled => exact absurd unsettled settled
  | accepted _ available => exact absurd available away
  | closedIdle =>
    exact ⟨⟨isAvailable_of_closed rfl, rfl, .inr rfl⟩, fun _ he => absurd he List.not_mem_nil⟩
  | flushed s live | closedLive s live | lost s _ live | departed s _ live | heard s _ _ live
    | framed s _ live =>
    rw [idle] at live
    cases live

/-- No chain of steps revives a connection that can never be reached again, tries it, or
accepts a message for it. -/
theorem Steps.rests {c c' : Connection} {h h' : History} {es : List Effect}
    (steps : c.Steps h es c' h') (sound : c.Lifecycle) (past : c.isAvailable = false) :
    c.Rests c' ∧ ∀ e ∈ es, e.dials = false ∧ e.accepts = false := by
  induction steps with
  | none => exact ⟨⟨past, rfl, .inl rfl⟩, fun _ he => absurd he List.not_mem_nil⟩
  | cons step _ ih =>
    obtain ⟨rests, quiet⟩ := step.rests sound past
    obtain ⟨rests', still⟩ := ih (step.lifecycle sound) rests.past
    exact ⟨rests.trans rests', fun e he => (List.mem_append.mp he).elim (quiet e) (still e)⟩

/-- A chain of steps in which nothing is heard from the peer, and which closes nothing. -/
def Leads (c : Connection) (h : History) (c' : Connection) (h' : History) : Prop :=
  ∃ es, c.Steps h es c' h' ∧ (∀ e ∈ es, e.hears = false) ∧
    (c'.state = .closed → c.state = .closed)

namespace Leads

variable {c c' c'' : Connection} {h h' h'' : History}

/-- Nothing is done. -/
theorem refl (c : Connection) (h : History) : c.Leads h c h :=
  ⟨[], .none, fun _ he => absurd he List.not_mem_nil, id⟩

/-- One step is a chain. -/
theorem one {es : List Effect} (step : c.Step h es c' h') (silent : ∀ e ∈ es, e.hears = false)
    (still : c'.state = .closed → c.state = .closed) : c.Leads h c' h' :=
  ⟨es, .one step, silent, still⟩

/-- One chain after another. -/
theorem trans (first : c.Leads h c' h') (second : c'.Leads h' c'' h'') : c.Leads h c'' h'' := by
  obtain ⟨es, steps, silent, still⟩ := first
  obtain ⟨more, further, quiet, remains⟩ := second
  exact ⟨es ++ more, steps.trans further,
    fun e he => (List.mem_append.mp he).elim (silent e) (quiet e), still ∘ remains⟩

end Leads

/-- An attempt is no step, or one step. -/
theorem Attempted.leads {c c' : Connection} {h h' : History} (attempted : c.Attempted h c' h') :
    c.Leads h c' h' := by
  cases attempted with
  | settled | waiting => exact .refl c h
  | gaveUp unsettled exhausted =>
    exact .one (.gaveUp unsettled exhausted) (fun _ he => absurd he List.not_mem_nil)
      fun past => by cases past
  | reached unsettled left _ on =>
    refine .one (.opened unsettled left on) (fun e he => ?_) fun past => by cases past
    rw [List.mem_singleton.mp he]
    rfl
  | failed calls unsettled left _ on =>
    refine .one (.failed h.now calls unsettled left on) (fun e he => ?_) fun past => ?_
    · rcases List.mem_cons.mp he with rfl | he
      · rfl
      · obtain ⟨call, -, rfl⟩ := List.mem_map.mp he
        rfl
    · obtain ⟨state, queue, rfl | rfl, failed⟩ := c.fail_eq h.now <;>
        (rw [failed] at past; cases past)

/-- Accepting a message is one step, refusing it is none. -/
theorem accept_leads (c : Connection) (message : String) (h : History) :
    c.Leads h (c.accept message h).2.1 (c.accept message h).2.2 := by
  unfold accept
  split
  · next available =>
    by_cases full : c.queue.limit ≤ c.queue.size
    · have refused : c.queue.offer message = (false, c.queue) := if_pos full
      rw [refused]
      exact .refl c h
    · have taken : c.queue.offer message = (true, c.queue.pushBack message) := if_neg full
      rw [taken]
      refine .one (.accepted message available (.record h rfl)) (fun e he => ?_) id
      rw [List.mem_singleton.mp he]
      rfl
  · exact .refl c h

private theorem goesOn_wrote (h : History) (id : Nat) (lines : List String) :
    h.GoesOn (lines.map (.wrote id)) (h.recordAll (lines.map (.wrote id))) := by
  refine .recordAll h fun e he => ?_
  obtain ⟨line, -, rfl⟩ := List.mem_map.mp he
  rfl

private theorem hears_wrote {id : Nat} {lines : List String} :
    ∀ e ∈ lines.map (Effect.wrote id), e.hears = false := by
  intro e he
  obtain ⟨line, -, rfl⟩ := List.mem_map.mp he
  rfl

/-- Writing what waits is one step, if there is a session to write on. -/
theorem flush_leads (c : Connection) (h : History) :
    c.Leads h (c.flush h).1 (c.flush h).2 := by
  unfold flush
  cases live : c.session with
  | none => exact .refl c h
  | some s => exact .one (.flushed s live (goesOn_wrote h s.id _)) hears_wrote id

/-- Connecting is a chain of steps. -/
theorem connect_leads (c : Connection) (h : History) :
    c.Leads h (c.connect h).1 (c.connect h).2 :=
  (c.attempted h).leads.trans (flush_leads _ _)

/-- Sending is a chain of steps. -/
theorem send_leads (c : Connection) (message : String) (h : History) :
    c.Leads h (c.send message h).2.1 (c.send message h).2.2 :=
  ((c.attempted h).leads.trans (accept_leads _ message _)).trans (flush_leads _ _)

/-- What is written on the session of a connection that is closed, and its end: everything that
waits, and the goodbye. -/
def farewells (c : Connection) : List Effect :=
  match c.session with
  | none => []
  | some s => (c.queue.messages ++ [Command.goodbye.toWire]).map (.wrote s.id) ++
      [.closed s.id .shutdown]

/-- The farewells of a connection with a session. -/
theorem farewells_of_live {c : Connection} {s : Session} (live : c.session = some s) :
    c.farewells = (c.queue.messages ++ [Command.goodbye.toWire]).map (.wrote s.id) ++
      [.closed s.id .shutdown] := by
  rw [farewells, live]

/-- Nothing is heard when a connection is closed. -/
theorem hears_farewells (c : Connection) : ∀ e ∈ c.farewells, e.hears = false := by
  intro e he
  cases live : c.session with
  | none =>
    rw [farewells, live] at he
    exact absurd he List.not_mem_nil
  | some s =>
    rw [farewells_of_live live] at he
    rcases List.mem_append.mp he with he | he
    · exact hears_wrote e he
    · rw [List.mem_singleton.mp he]
      rfl

/-- Closing is one step, in which the farewells are said. -/
theorem close_steps {c : Connection} (sound : c.Lifecycle) (h : History) :
    c.Steps h c.farewells (c.close h).1 (c.close h).2 := by
  rcases Option.eq_none_or_eq_some c.session with idle | ⟨s, live⟩
  · have closed : c.close h = ({ c.dropQueue with state := .closed }, h) := by
      simp [close, endSession, dropQueue, idle]
    rw [closed, farewells, idle]
    exact .one (.closedIdle idle)
  · have owes := sound.owes live
    have closed : c.close h = ({ c.dropQueue with
        session := none, owesGoodbye := false, state := .closed },
        (h.recordAll ((c.queue.messages ++ [Command.goodbye.toWire]).map (.wrote s.id))).record
          (.closed s.id .shutdown)) := by
      simp [close, endSession, live, owes, dropQueue, write, OutboundQueue.clear,
        OutboundQueue.takeAll, OutboundQueue.pushBack]
    rw [closed, farewells_of_live live]
    exact .one (.closedLive s live ((goesOn_wrote h s.id _).trans (.record _ rfl)))

/-- Closing leaves a connection closed. -/
theorem state_close (c : Connection) (h : History) : (c.close h).1.state = .closed := by
  rcases Option.eq_none_or_eq_some c.session with idle | ⟨s, live⟩
  · simp [close, endSession, dropQueue, idle]
  · by_cases owes : c.owesGoodbye = true
    · simp [close, endSession, dropQueue, live, owes, write]
    · simp [close, endSession, dropQueue, live, owes]

/-- Nothing waits to be written while there is a session. -/
def Flushed (c : Connection) : Prop := c.session.isSome → c.queue.messages = []

/-- Writing what waits leaves nothing waiting on a session. -/
theorem flushed_flush (c : Connection) (h : History) : (c.flush h).1.Flushed := by
  unfold flush
  cases live : c.session with
  | none =>
    intro some
    change c.session.isSome at some
    rw [live] at some
    cases some
  | some s => exact fun _ => rfl

/-- Losing a session leaves the connection disconnected. -/
theorem loseSession_eq {c : Connection} (sound : c.Lifecycle) {s : Session}
    (live : c.session = some s) (cause : SessionEnd) (h : History) :
    c.loseSession cause h =
      ({ c with session := none, owesGoodbye := false, state := .disconnected },
        h.record (.closed s.id cause)) := by
  simp [loseSession, endSession, live, sound.connected live]

/-- Losing a session is one step. -/
theorem lose_leads {c : Connection} (sound : c.Lifecycle) (flushed : c.Flushed)
    {cause : SessionEnd} (unasked : cause = .lost ∨ cause = .overlong) (h : History) :
    c.Leads h (c.loseSession cause h).1 (c.loseSession cause h).2 := by
  rcases Option.eq_none_or_eq_some c.session with idle | ⟨s, live⟩
  · have owes := sound.owes_idle idle
    have same : c.loseSession cause h = (c, h) := by
      obtain ⟨⟩ := c
      simp_all [loseSession, endSession]
    rw [same]
    exact .refl c h
  · rw [loseSession_eq sound live]
    refine .one (.lost s cause live (flushed (by rw [live]; rfl)) unasked (.record h rfl))
      (fun e he => ?_) fun past => by cases past
    rw [List.mem_singleton.mp he]
    rcases unasked with rfl | rfl <;> rfl

end Backbox.Connection
