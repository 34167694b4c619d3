import Backbox.Proofs.Connection.Intake
import Backbox.Proofs.History.Alarm

/-!
# What a connection may set off

An attempt on a required connection that fails, and the goodbye of its peer, are fatal; nothing
else that is done to a connection is. The journal tells whose a session is by the call that opened
it.
-/

namespace Backbox

namespace Connection

/-- The session of a connection was opened by a call of its own. -/
def Opened (c : Connection) (h : History) : Prop :=
  ∀ s, c.session = some s → callOf? s.id h.journal = some ⟨c.name, c.settings, some s.id⟩

/-- What the journal tells about a connection: which call opened its session, and that something
fatal happened if the connection is required and its last attempt failed. -/
structure Traced (c : Connection) (h : History) : Prop where
  opened : c.Opened h
  numbered : ∀ s, c.session = some s → s.id < h.sessions
  failed : c.settings.required = true → 0 < c.attemptsMade → ¬ Calm h.journal

variable {c c' : Connection} {h h' : History} {es : List Effect}

/-- Nothing is told of a connection that has not been tried yet. -/
theorem traced_new (name : String) (settings : ConnectionSettings) (connector : Connector)
    (h : History) : (new name settings connector).Traced h where
  opened s live := by cases live
  numbered s live := by cases live
  failed _ made := absurd made (Nat.lt_irrefl 0)

/-- A connection is still told of as it is after entries that open only new sessions, if its session
is the same or over and no more of its attempts have failed. -/
theorem Traced.still (traced : c.Traced h) (on : h.GoesOn es h')
    (new : ∀ e ∈ es, e.opens = true → ∀ id, e.session? = some id → h.sessions ≤ id)
    (name : c'.name = c.name) (settings : c'.settings = c.settings)
    (made : c'.attemptsMade = c.attemptsMade)
    (same : ∀ s, c'.session = some s → ∃ t, c.session = some t ∧ t.id = s.id) : c'.Traced h' where
  opened s live := by
    obtain ⟨t, held, own⟩ := same s live
    have known := traced.opened t held
    have numbered := traced.numbered t held
    rw [on.journal, callOf?_append fun e he its => ?_, ← own, known, name, settings]
    rw [← Bool.not_eq_true]
    intro opens
    have := new e he opens s.id its
    omega
  numbered s live := by
    obtain ⟨t, held, own⟩ := same s live
    have := on.sessions_le
    have := traced.numbered t held
    omega
  failed required some calm := by
    refine traced.failed (settings ▸ required) (made ▸ some) (calm.of_suffix ?_)
    exact on.journal ▸ List.suffix_append _ _

/-- A connection is still told of as it is when others open sessions. -/
theorem Traced.keep (traced : c.Traced h) (on : h.GoesOn es h')
    (new : ∀ e ∈ es, e.opens = true → ∀ id, e.session? = some id → h.sessions ≤ id) :
    c.Traced h' :=
  traced.still on new rfl rfl rfl fun s live => ⟨s, live, rfl⟩

/-- Every session that a step opens is new. -/
theorem Step.opens_new (step : c.Step h es c' h') :
    ∀ e ∈ es, e.opens = true → ∀ id, e.session? = some id → h.sessions ≤ id := by
  intro e he opens id own
  have none_opened (closed : ∀ e ∈ es, e.opens = false) : h.sessions ≤ id := by
    rw [closed e he] at opens
    cases opens
  cases step with
  | opened =>
    rw [List.mem_singleton.mp he] at own
    exact Nat.le_of_eq (Option.some.inj own)
  | gaveUp | failed | accepted | flushed | closedIdle | closedLive | lost | departed | heard
    | framed => exact none_opened (by simp [Effect.opens, or_imp, forall_and])

/-- Every session that a chain of steps opens is new. -/
theorem Steps.opens_new (steps : c.Steps h es c' h') :
    ∀ e ∈ es, e.opens = true → ∀ id, e.session? = some id → h.sessions ≤ id := by
  induction steps with
  | none => exact fun _ he => absurd he List.not_mem_nil
  | cons step _ ih =>
    intro e he opens id own
    rcases List.mem_append.mp he with he | he
    · exact step.opens_new e he opens id own
    · exact Nat.le_trans step.course.on.sessions_le (ih e he opens id own)

/-- No step changes the settings of a connection. -/
theorem Step.settings_eq (step : c.Step h es c' h') : c'.settings = c.settings := by
  cases step with
  | failed now =>
    obtain ⟨state, queue, -, failed⟩ := c.fail_eq now
    rw [failed]
  | gaveUp | opened | accepted | flushed | closedIdle | closedLive | lost | departed | heard
    | framed => rfl

/-- Every step is told of. -/
theorem Step.traced (step : c.Step h es c' h') (traced : c.Traced h) : c'.Traced h' := by
  -- steps after which the session is the same or over, and no more attempts have failed
  have quiet (still : ∀ s, c'.session = some s → ∃ t, c.session = some t ∧ t.id = s.id)
      (made : c'.attemptsMade = c.attemptsMade) : c'.Traced h' :=
    traced.still step.course.on step.opens_new step.course.name_eq step.settings_eq made still
  have same (live : c'.session = c.session) :
      ∀ s, c'.session = some s → ∃ t, c.session = some t ∧ t.id = s.id :=
    fun s held => ⟨s, live ▸ held, rfl⟩
  have ended (idle : c'.session = none) :
      ∀ s, c'.session = some s → ∃ t, c.session = some t ∧ t.id = s.id :=
    fun s held => by rw [idle] at held; cases held
  cases step with
  | opened unsettled left on =>
    refine ⟨fun s held => ?_, fun s held => ?_, fun _ made => absurd made (Nat.lt_irrefl 0)⟩
    · obtain rfl := Option.some.inj held
      rw [on.journal]
      exact callOf?_dialled rfl
    · obtain rfl := Option.some.inj held
      rw [on.sessions]
      exact Nat.lt_succ_self _
  | failed now calls unsettled left on =>
    obtain ⟨idle, -⟩ := unsettled_iff.mp unsettled
    obtain ⟨state, queue, -, failed⟩ := c.fail_eq now
    rw [failed]
    refine ⟨fun s held => ?_, fun s held => ?_, fun required _ => ?_⟩
    · cases idle.symm.trans held
    · cases idle.symm.trans held
    · have fatal : (Effect.dialled ⟨c.name, c.settings, none⟩).isFatal h.journal = true := required
      refine not_calm_of_isFatal ?_ fatal
      rw [on.journal, List.reverse_cons, List.append_assoc]
      exact List.suffix_append _ _
  | gaveUp | accepted | flushed | framed => exact quiet (same rfl) rfl
  | closedIdle idle => exact quiet (same rfl) rfl
  | closedLive | lost | departed => exact quiet (ended rfl) rfl
  | heard s framer bytes live =>
    refine quiet (fun t held => ⟨s, live, ?_⟩) rfl
    rw [← Option.some.inj held]

/-- Every chain of steps is told of. -/
theorem Steps.traced (steps : c.Steps h es c' h') (traced : c.Traced h) : c'.Traced h' := by
  induction steps with
  | none => exact traced
  | cons step _ ih => exact ih (step.traced traced)

end Connection

namespace History.Latched

variable {h : History}

/-- When a required peer is not reached, the host is asked to shut down. -/
theorem dial (latched : h.Latched) {connector : Connector} {name : String}
    {settings : ConnectionSettings} {session : Option Nat} {h' : History}
    (dialled : h.dial connector name settings = (session, h')) :
    (if session = none ∧ settings.required then h'.requestShutdown else h').Latched := by
  obtain ⟨rfl, rfl⟩ := Prod.mk.inj dialled
  generalize (if connector h.dials name settings = true then some h.sessions else none) = session
  have before : History.Latched { h with
      dials := ⟨name, settings, session⟩ :: h.dials
      sessions := if connector h.dials name settings then h.sessions + 1 else h.sessions } :=
    latched.congr rfl rfl
  split
  · next missed => exact before.alarm (by simp [Effect.isFatal, missed.1, missed.2])
  · next fine =>
    refine before.record rfl fun fatal => absurd ?_ fine
    simpa [Effect.isFatal] using fatal

/-- An attempt asks the host to shut down when a required peer is not reached. -/
theorem attempt (latched : h.Latched) (c : Connection) : (c.attempt h).2.Latched := by
  unfold Connection.attempt
  split
  · exact latched
  · split
    · exact latched
    · split
      · exact latched
      · rcases dialled : h.dial c.connector c.name c.settings with ⟨session, h'⟩
        have after := latched.dial dialled
        cases session with
        | none => simpa using after
        | some id => exact after

private theorem wrote (latched : h.Latched) (id : Nat) (lines : List String) :
    (h.recordAll (lines.map (.wrote id))).Latched := by
  refine latched.recordAll_plain fun e he => ?_
  obtain ⟨line, -, rfl⟩ := List.mem_map.mp he
  rfl

/-- Writing what waits is no reason to shut down. -/
theorem flush (latched : h.Latched) (c : Connection) : (c.flush h).2.Latched := by
  unfold Connection.flush
  split
  · exact latched.wrote ..
  · exact latched

/-- Accepting or refusing a message is no reason to shut down. -/
theorem accept (latched : h.Latched) (c : Connection) (message : String) :
    (c.accept message h).2.2.Latched := by
  unfold Connection.accept
  split
  · dsimp only
    split
    · exact latched.record_plain rfl
    · exact latched
  · exact latched

/-- Connecting asks the host to shut down as its attempt does. -/
theorem connect (latched : h.Latched) (c : Connection) : (c.connect h).2.Latched :=
  (latched.attempt c).flush _

/-- Sending asks the host to shut down as its attempt does. -/
theorem send (latched : h.Latched) (c : Connection) (message : String) :
    (c.send message h).2.2.Latched :=
  ((latched.attempt c).accept _ message).flush _

/-- Ending a session is no reason to shut down unless the peer said goodbye. -/
theorem endSession (latched : h.Latched) (c : Connection) {cause : SessionEnd}
    (unasked : cause ≠ .farewell) : (c.endSession cause h).2.Latched := by
  unfold Connection.endSession
  split
  · exact latched
  · next session _ =>
    have plain : (Effect.closed session.id cause).isPlain = true := by
      cases cause with
      | farewell => exact absurd rfl unasked
      | shutdown | lost | overlong => rfl
    dsimp only
    split
    · exact (latched.wrote ..).record_plain plain
    · exact latched.record_plain plain

/-- Closing is no reason to ask the host to shut down. -/
theorem close (latched : h.Latched) (c : Connection) : (c.close h).2.Latched :=
  latched.endSession _ (by decide)

/-- Losing a session is no reason to shut down. -/
theorem loseSession (latched : h.Latched) (c : Connection) {cause : SessionEnd}
    (unasked : cause ≠ .farewell) : (c.loseSession cause h).2.Latched :=
  latched.endSession _ unasked

end History.Latched

namespace Intake

variable {x : Intake} {valueCase : ValueCase}

/-- In the middle of hearing from a peer, it is known whose the session is. -/
structure Watched (x : Intake) : Prop where
  latched : x.history.Latched
  opened : x.connection.Opened x.history

/-- A goodbye of a required peer is fatal. -/
theorem Watched.depart (watched : x.Watched) {s : Session} (live : x.connection.session = some s) :
    x.depart.Watched := by
  have known := watched.opened s live
  have fatal : (Effect.closed s.id .farewell).isFatal x.history.journal =
      x.connection.settings.required := by
    rw [Effect.isFatal, known]
    rfl
  rw [depart_of_live live]
  refine ⟨?_, fun t held => by cases held⟩
  dsimp only
  split
  · next required => exact watched.latched.alarm (fatal.trans required)
  · next optional =>
    exact watched.latched.record rfl fun its => absurd (fatal.symm.trans its) optional

/-- Of the commands of a peer, only a goodbye may be fatal. -/
theorem Watched.takeCommand (watched : x.Watched) {s : Session}
    (live : x.connection.session = some s) (command : Command) :
    (x.takeCommand command).Watched := by
  unfold Intake.takeCommand
  split
  · exact watched
  · split
    · exact watched.depart live
    · exact ⟨watched.latched, watched.opened⟩

/-- Of the lines of a peer, only a goodbye may be fatal. -/
theorem Watched.takeLine (watched : x.Watched) (valueCase : ValueCase) (line : Bytes) :
    (x.takeLine valueCase line).Watched := by
  rcases Option.eq_none_or_eq_some x.connection.session with idle | ⟨s, live⟩
  · rwa [takeLine_of_idle idle]
  · cases kind : Line.ofBytes line with
    | frame payload =>
      rw [takeLine_of_frame live kind]
      exact ⟨watched.latched.record_plain rfl, watched.opened⟩
    | message text =>
      rw [takeLine_of_message live kind]
      exact watched.takeCommand live _

/-- Lines are taken in, one after the other. -/
theorem Watched.takeLines (watched : x.Watched) (valueCase : ValueCase) (lines : List Bytes) :
    (lines.foldl (Intake.takeLine valueCase) x).Watched := by
  induction lines generalizing x with
  | nil => exact watched
  | cons line rest ih => exact ih (watched.takeLine valueCase line)

/-- What is read is not fatal but for the lines in it. -/
theorem Watched.takeRead (watched : x.Watched) (valueCase : ValueCase) (bytes : Bytes) :
    (x.takeRead valueCase bytes).Watched := by
  unfold Intake.takeRead
  cases live : x.connection.session with
  | none => exact watched
  | some s =>
    dsimp only
    have heard (framer : Framer) : (x.hearing s framer bytes).Watched := by
      refine ⟨watched.latched.record_plain rfl, fun t held => ?_⟩
      obtain rfl := Option.some.inj held
      exact watched.opened s live
    split
    · exact (heard _).takeLines valueCase _
    · refine ⟨(heard s.framer).latched.loseSession _ (by decide), fun t held => ?_⟩
      simp [Connection.loseSession, Connection.endSession] at held

end Intake

/-- Whatever a connection hears from its peer, only a goodbye may be fatal. -/
theorem Connection.Opened.receive {c : Connection} {h : History} (opened : c.Opened h)
    (latched : h.Latched) (valueCase : ValueCase) (bytes : Bytes) :
    (c.receive valueCase bytes h).history.Latched := by
  suffices fold : ∀ (reads : List Bytes) (x : Intake), x.Watched →
      (reads.foldl (Intake.takeRead valueCase) x).Watched from
    (fold _ ⟨c, h, #[], false⟩ ⟨latched, opened⟩).latched
  intro reads
  induction reads with
  | nil => exact fun _ watched => watched
  | cons bytes rest ih => exact fun x watched => ih _ (watched.takeRead valueCase bytes)

end Backbox
