import Backbox.Proofs.Connection.Record

/-!
# What a connection writes

A session is greeted first, then carries the messages of callers, and ends with a goodbye
only when the engine shuts down. What callers had accepted is what was written on the
sessions so far, then what waits, then what was dropped once the connection could never be
reached again.
-/

namespace Backbox

/-- The greeting is the command `hello` with the protocol's version. -/
theorem toWire_hello : (Command.hello protocolVersion).toWire = "hello?version=1.0" := by
  decide +kernel

/-- The farewell is the command `goodbye`. -/
theorem toWire_goodbye : Command.goodbye.toWire = "goodbye" := by
  decide +kernel

namespace SessionLog

/-- What is written at the end of a session, given how it ended. -/
def farewell (log : SessionLog) : List String :=
  if log.endings = [.shutdown] then ["goodbye"] else []

/-- The messages of callers among the lines of a session: all lines but the greeting and the
farewell. -/
def callerLines (log : SessionLog) : List String :=
  (log.written.drop 1).take (log.written.length - 1 - log.farewell.length)

/-- A session that ended, once, and on which nothing is missing. -/
structure IsOver (log : SessionLog) : Prop where
  ended : ∃ cause, log.endings = [cause]
  written : log.written = "hello?version=1.0" :: log.callerLines ++ log.farewell

/-- The callers' lines of a session that began with a greeting and ended with its farewell. -/
theorem callerLines_of_written {log : SessionLog} {own : List String}
    (h : log.written = "hello?version=1.0" :: own ++ log.farewell) : log.callerLines = own := by
  rw [callerLines, h]
  simp

/-- A session that ended, and on which callers' lines were written between a greeting and the
farewell, is over. -/
theorem isOver_of_written {log : SessionLog} {own : List String} {cause : SessionEnd}
    (ended : log.endings = [cause])
    (h : log.written = "hello?version=1.0" :: own ++ log.farewell) : log.IsOver :=
  ⟨⟨cause, ended⟩, by rw [callerLines_of_written h, h]⟩

end SessionLog

namespace History

/-- The messages of callers that were written on some sessions, session by session. -/
def callerLines (h : History) (ids : List Nat) : List String :=
  ids.flatMap fun id => (h.log id).callerLines

/-- What was written on sessions on which nothing is written and which do not end stays the
same. -/
theorem callerLines_congr {h h' : History} {ids : List Nat}
    (same : ∀ id ∈ ids, (h'.log id).written = (h.log id).written ∧
      (h'.log id).endings = (h.log id).endings) : h'.callerLines ids = h.callerLines ids := by
  refine congrArg List.flatten (List.map_congr_left fun id hid => ?_)
  obtain ⟨written, endings⟩ := same id hid
  simp only [SessionLog.callerLines, SessionLog.farewell, written, endings]

/-- What was written on sessions whose logs stay the same stays the same. -/
theorem callerLines_eq {h h' : History} {ids : List Nat}
    (same : ∀ id ∈ ids, h'.log id = h.log id) : h'.callerLines ids = h.callerLines ids := by
  refine callerLines_congr fun id hid => ?_
  rw [same id hid]
  exact ⟨rfl, rfl⟩

end History

namespace Connection

/-- What a connection has written, what waits, and what it accepted. -/
structure Outgoing (c : Connection) (l : Life) (h : History) : Prop where
  /-- Every session but the live one ended as it should. -/
  past : ∀ id ∈ l.opened, (∀ s, c.session = some s → id ≠ s.id) → (h.log id).IsOver
  /-- On the live session, the greeting goes ahead of what was accepted since. -/
  live : ∀ s, c.session = some s → (h.log s.id).endings = [] ∧
    ∃ own, (h.log s.id).written ++ c.queue.messages = "hello?version=1.0" :: own ∧
      l.accepted = h.callerLines l.opened.dropLast ++ own
  /-- Without a session, messages wait, and they are dropped only for good. -/
  idle : c.session = none → ∃ dropped,
    l.accepted = h.callerLines l.opened ++ c.queue.messages ++ dropped ∧
      (c.isAvailable = true → dropped = [])

variable {c c' : Connection} {h h' : History} {es : List Effect} {l : Life}

-- Without a session nothing is live, so every session on record is over.
private theorem Outgoing.past_idle (out : c.Outgoing l h) (idle : c.session = none) :
    ∀ id ∈ l.opened, (h.log id).IsOver :=
  fun id hid => out.past id hid fun s live => by
    rw [idle] at live
    cases live

-- What a connection that is not reachable any more, and was idle before, has dropped.
private theorem Outgoing.drop (out : c.Outgoing l h) (idle : c.session = none)
    (idle' : c'.session = none) (empty : c'.queue.messages = [])
    (past : c'.isAvailable = false) (same : ∀ id, h'.log id = h.log id) :
    c'.Outgoing l h' := by
  obtain ⟨dropped, accepted, -⟩ := out.idle idle
  have lines : h'.callerLines l.opened = h.callerLines l.opened :=
    History.callerLines_eq fun id _ => same id
  refine ⟨fun id hid _ => same id ▸ out.past_idle idle id hid, ?_, ?_⟩
  · intro s live
    rw [idle'] at live
    cases live
  · intro _
    refine ⟨c.queue.messages ++ dropped, ?_, ?_⟩
    · rw [accepted, lines, empty, List.append_nil, List.append_assoc]
    · intro available
      rw [past] at available
      cases available

-- The end of a session on which the messages `own` of callers were written.
private theorem Outgoing.ended {s : Session} {own : List String} (out : c.Outgoing l h)
    (rec : c.Recorded l h) (live : c.session = some s)
    (accepted : l.accepted = h.callerLines l.opened.dropLast ++ own)
    (apart : ∀ id, id ≠ s.id → h'.log id = h.log id) (past : (h'.log s.id).IsOver)
    (lines : (h'.log s.id).callerLines = own) (idle : c'.session = none)
    (empty : c'.queue.messages = []) : c'.Outgoing l h' := by
  obtain ⟨earlier, opened, notMem⟩ := rec.eq_append live
  have before : h'.callerLines earlier = h.callerLines earlier :=
    History.callerLines_eq fun id hid => apart id fun same => notMem (same ▸ hid)
  refine ⟨?_, ?_, fun _ => ⟨[], ?_, fun _ => rfl⟩⟩
  · intro id hid _
    by_cases same : id = s.id
    · exact same ▸ past
    · rw [apart id same]
      refine out.past id hid fun t ht => ?_
      rw [← Option.some.inj (live.symm.trans ht)]
      exact same
  · intro t ht
    rw [idle] at ht
    cases ht
  · rw [opened, List.dropLast_concat] at accepted
    rw [accepted, opened, empty, List.append_nil, List.append_nil, ← before,
      History.callerLines, History.callerLines, List.flatMap_append, List.flatMap_singleton,
      lines]

-- The end of a session on which nothing waits, and which needs no goodbye.
private theorem Outgoing.abandoned {s : Session} {cause : SessionEnd} (out : c.Outgoing l h)
    (rec : c.Recorded l h) (live : c.session = some s) (flushed : c.queue.messages = [])
    (unasked : cause ≠ .shutdown) (apart : ∀ id, id ≠ s.id → h'.log id = h.log id)
    (own_log : h'.log s.id =
      { h.log s.id with endings := (h.log s.id).endings ++ [cause] })
    (idle : c'.session = none) (empty : c'.queue.messages = []) : c'.Outgoing l h' := by
  obtain ⟨endings, own, written, accepted⟩ := out.live s live
  rw [flushed, List.append_nil] at written
  rw [endings, List.nil_append] at own_log
  have none_owed : (h'.log s.id).farewell = [] := by
    rw [own_log]
    exact if_neg (by simp [unasked])
  have whole : (h'.log s.id).written =
      "hello?version=1.0" :: own ++ (h'.log s.id).farewell := by
    rw [none_owed, List.append_nil, own_log]
    exact written
  exact out.ended rec live accepted apart
    (SessionLog.isOver_of_written (by rw [own_log]) whole)
    (SessionLog.callerLines_of_written whole) idle empty

private theorem Outgoing.keep {s : Session} (out : c.Outgoing l h) (live : c.session = some s)
    (same : ∀ id, (h'.log id).written = (h.log id).written ∧
      (h'.log id).endings = (h.log id).endings) (queue : c'.queue = c.queue)
    (still : ∃ t, c'.session = some t ∧ t.id = s.id) : c'.Outgoing l h' := by
  obtain ⟨t, live', id_eq⟩ := still
  constructor
  · intro id hid apart
    have past := out.past id hid fun u hu => by
      rw [← Option.some.inj (live.symm.trans hu), ← id_eq]
      exact apart t live'
    obtain ⟨written, endings⟩ := same id
    have farewell : (h'.log id).farewell = (h.log id).farewell := by
      rw [SessionLog.farewell, SessionLog.farewell, endings]
    obtain ⟨cause, ended⟩ := past.ended
    have whole : (h'.log id).written =
        "hello?version=1.0" :: (h.log id).callerLines ++ (h'.log id).farewell := by
      rw [written, farewell]
      exact past.written
    exact SessionLog.isOver_of_written (endings.trans ended) whole
  · intro u hu
    obtain rfl : t = u := Option.some.inj (live'.symm.trans hu)
    obtain ⟨endings, own, written, accepted⟩ := out.live s live
    rw [id_eq]
    refine ⟨(same s.id).2.trans endings, own, ?_, ?_⟩
    · rw [(same s.id).1, queue, written]
    · rw [accepted, History.callerLines_congr fun id _ => same id]
  · intro idle
    rw [live'] at idle
    cases idle

private theorem Outgoing.opened (out : c.Outgoing l h) (unsettled : c.isSettled = false)
    (same : ∀ id, h'.log id = h.log id) (fresh : h'.log h.sessions = .empty) :
    (c.openSession h.sessions).Outgoing { l with opened := l.opened ++ [h.sessions] } h' := by
  obtain ⟨idle, ready⟩ := unsettled_iff.mp unsettled
  obtain ⟨dropped, accepted, kept⟩ := out.idle idle
  refine ⟨?_, ?_, fun idle' => by cases idle'⟩
  · intro id hid apart
    rcases List.mem_append.mp hid with hid | hid
    · exact same id ▸ out.past_idle idle id hid
    · exact absurd (List.mem_singleton.mp hid) (apart _ rfl)
  · intro s live
    obtain rfl : _ = s := Option.some.inj live
    refine ⟨by rw [fresh]; rfl, c.queue.messages, ?_, ?_⟩
    · rw [fresh, ← toWire_hello]
      rfl
    · rw [kept (isAvailable_iff.mpr ready), List.append_nil] at accepted
      rw [List.dropLast_concat, accepted, History.callerLines_eq fun id _ => same id]

private theorem Outgoing.accepted (out : c.Outgoing l h) (available : c.isAvailable = true)
    (message : String) (same : ∀ id, h'.log id = h.log id) :
    { c with queue := c.queue.pushBack message }.Outgoing
      { l with accepted := l.accepted ++ [message] } h' := by
  have lines (ids : List Nat) : h'.callerLines ids = h.callerLines ids :=
    History.callerLines_eq fun id _ => same id
  refine ⟨fun id hid apart => same id ▸ out.past id hid apart, ?_,
    fun idle => ⟨[], ?_, fun _ => rfl⟩⟩
  · intro s live
    obtain ⟨endings, own, written, accepted⟩ := out.live s live
    refine ⟨same s.id ▸ endings, own ++ [message], ?_, ?_⟩
    · rw [same s.id, OutboundQueue.pushBack, ← List.append_assoc, written]
      rfl
    · rw [lines, accepted, List.append_assoc]
  · obtain ⟨dropped, accepted, kept⟩ := out.idle idle
    rw [lines, accepted, kept available, List.append_nil, List.append_nil, List.append_assoc]
    rfl

private theorem Outgoing.flushed {s : Session} (out : c.Outgoing l h) (rec : c.Recorded l h)
    (live : c.session = some s) (apart : ∀ id, id ≠ s.id → h'.log id = h.log id)
    (own_log : h'.log s.id =
      { h.log s.id with written := (h.log s.id).written ++ c.queue.messages }) :
    c.dropQueue.Outgoing l h' := by
  obtain ⟨endings, own, written, accepted⟩ := out.live s live
  obtain ⟨earlier, opened, notMem⟩ := rec.eq_append live
  constructor
  · intro id hid other
    rw [apart id (other s live)]
    exact out.past id hid other
  · intro t ht
    obtain rfl : s = t := Option.some.inj (live.symm.trans ht)
    refine ⟨by rw [own_log]; exact endings, own, ?_, ?_⟩
    · rw [own_log, ← written]
      exact List.append_nil _
    · have lines : h'.callerLines earlier = h.callerLines earlier :=
        History.callerLines_eq fun id hid => apart id fun same => notMem (same ▸ hid)
      rw [accepted, opened, List.dropLast_concat, lines]
  · intro idle
    rw [show c.dropQueue.session = c.session from rfl, live] at idle
    cases idle

private theorem Outgoing.closed {s : Session} (out : c.Outgoing l h) (rec : c.Recorded l h)
    (live : c.session = some s) (apart : ∀ id, id ≠ s.id → h'.log id = h.log id)
    (own_log : h'.log s.id = { h.log s.id with
      written := (h.log s.id).written ++ (c.queue.messages ++ [Command.goodbye.toWire])
      endings := (h.log s.id).endings ++ [.shutdown] })
    (idle : c'.session = none) (empty : c'.queue.messages = []) : c'.Outgoing l h' := by
  obtain ⟨endings, own, written, accepted⟩ := out.live s live
  rw [← List.append_assoc, written, endings, toWire_goodbye] at own_log
  have whole : (h'.log s.id).written =
      "hello?version=1.0" :: own ++ (h'.log s.id).farewell := by
    rw [own_log]
    rfl
  exact out.ended rec live accepted apart
    (SessionLog.isOver_of_written (by rw [own_log]; rfl) whole)
    (SessionLog.callerLines_of_written whole) idle empty

/-- Every step keeps what is written, waiting and accepted in agreement. -/
theorem Step.outgoing (step : c.Step h es c' h') (rec : c.Recorded l h)
    (numbered : h.Numbered) (out : c.Outgoing l h) : c'.Outgoing (l.after es) h' := by
  cases step with
  | gaveUp unsettled exhausted =>
    have idle := (unsettled_iff.mp unsettled).1
    exact out.drop idle idle rfl (isAvailable_giveUp c) fun _ => rfl
  | failed now calls unsettled left on =>
    obtain ⟨idle, ready⟩ := unsettled_iff.mp unsettled
    have same (id : Nat) : h'.log id = h.log id :=
      History.log_apart on (by simp [Effect.session?])
    rw [rec.after_failed]
    simp only [fail]
    split
    · exact out.drop idle idle rfl (isAvailable_giveUp _) same
    · obtain ⟨dropped, accepted, kept⟩ := out.idle idle
      have lines : h'.callerLines l.opened = h.callerLines l.opened :=
        History.callerLines_eq fun id _ => same id
      refine ⟨fun id hid _ => same id ▸ out.past_idle idle id hid, ?_,
        fun _ => ⟨dropped, ?_, fun _ => kept (isAvailable_iff.mpr ready)⟩⟩
      · intro s live
        rw [idle] at live
        cases live
      · rw [lines]
        exact accepted
  | opened unsettled left on =>
    have same (id : Nat) : h'.log id = h.log id := History.log_of_goesOn on id
    have fresh : h'.log h.sessions = .empty :=
      (same _).trans (History.log_unopened numbered (Nat.le_refl _))
    rw [rec.after_opened]
    exact out.opened unsettled same fresh
  | accepted message available on =>
    have same (id : Nat) : h'.log id = h.log id :=
      History.log_apart on (by simp [Effect.session?])
    rw [rec.after_accepted]
    exact out.accepted available message same
  | flushed s live on =>
    have apart (id : Nat) (other : id ≠ s.id) : h'.log id = h.log id :=
      History.log_apart on (by simp [Effect.session?, other.symm])
    have own_log : h'.log s.id =
        { h.log s.id with written := (h.log s.id).written ++ c.queue.messages } := by
      rw [History.log_of_goesOn on, SessionLog.after_wrote]
    rw [Life.after_unnamed (by simp [Effect.connection?])]
    exact out.flushed rec live apart own_log
  | closedIdle idle =>
    exact out.drop idle idle rfl (isAvailable_of_closed rfl) fun _ => rfl
  | closedLive s live on =>
    have apart (id : Nat) (other : id ≠ s.id) : h'.log id = h.log id :=
      History.log_apart on (by simp [Effect.session?, other.symm, or_imp, forall_and])
    have own_log : h'.log s.id = { h.log s.id with
        written := (h.log s.id).written ++ (c.queue.messages ++ [Command.goodbye.toWire])
        endings := (h.log s.id).endings ++ [.shutdown] } := by
      rw [History.log_of_goesOn on, SessionLog.after_append, SessionLog.after_wrote,
        SessionLog.after_closed]
    rw [Life.after_unnamed (by simp [Effect.connection?, or_imp, forall_and])]
    exact out.closed rec live apart own_log rfl rfl
  | lost s cause live flushed unasked on =>
    have apart (id : Nat) (other : id ≠ s.id) : h'.log id = h.log id :=
      History.log_apart on (by simp [Effect.session?, other.symm])
    have unowed : cause ≠ .shutdown := by
      rcases unasked with rfl | rfl <;> decide
    have own_log : h'.log s.id =
        { h.log s.id with endings := (h.log s.id).endings ++ [cause] } := by
      rw [History.log_of_goesOn on, SessionLog.after_closed]
    rw [Life.after_unnamed (by simp [Effect.connection?])]
    exact out.abandoned rec live flushed unowed apart own_log rfl flushed
  | departed s calls live flushed on =>
    have apart (id : Nat) (other : id ≠ s.id) : h'.log id = h.log id :=
      History.log_apart on (by simp [Effect.session?, other.symm])
    have asked (log : SessionLog) : log.after s.id (calls.map .host) = log :=
      SessionLog.after_of_ne log (by simp [Effect.session?])
    have unowed : SessionEnd.farewell ≠ .shutdown := by decide
    have own_log : h'.log s.id =
        { h.log s.id with endings := (h.log s.id).endings ++ [.farewell] } := by
      rw [History.log_of_goesOn on, ← List.singleton_append, SessionLog.after_append, asked,
        SessionLog.after_closed]
    rw [Life.after_unnamed (by simp [Effect.connection?])]
    exact out.abandoned rec live flushed unowed apart own_log rfl rfl
  | heard s framer bytes live on =>
    rw [Life.after_unnamed (by simp [Effect.connection?])]
    refine out.keep live (fun id => ?_) rfl ⟨_, rfl, rfl⟩
    obtain ⟨written, endings, -⟩ := (h.log id).note_read s.id bytes
    rw [History.log_of_goesOn on]
    exact ⟨written, endings⟩
  | framed s payload live on =>
    rw [Life.after_unnamed (by simp [Effect.connection?])]
    refine out.keep live (fun id => ?_) rfl ⟨s, live, rfl⟩
    obtain ⟨written, endings, -⟩ := (h.log id).note_framed s.id payload
    rw [History.log_of_goesOn on]
    exact ⟨written, endings⟩

/-- A connection between two happenings: its fields hang together, it is on record, nothing
waits while it has a session, and its messages are accounted for. -/
structure InOrder (c : Connection) (l : Life) (h : History) : Prop where
  lifecycle : c.Lifecycle
  recorded : c.Recorded l h
  flushed : c.Flushed
  outgoing : c.Outgoing l h
  numbered : h.Numbered

/-- A chain of steps leaves a connection in order if nothing waits on a session after it. -/
theorem InOrder.steps (order : c.InOrder l h) (steps : c.Steps h es c' h')
    (flushed : c'.Flushed) : c'.InOrder (l.after es) h' := by
  obtain ⟨sound, rec, -, out, numbered⟩ := order
  induction steps generalizing l with
  | none => exact ⟨sound, rec, flushed, out, numbered⟩
  | cons step _ ih =>
    rw [Life.after_append]
    refine ih flushed (step.lifecycle sound) (step.recorded rec)
      (step.outgoing rec numbered out) ?_
    exact step.course.history_numbered numbered fun s live =>
      rec.opened_lt s.id (rec.mem_opened live)

private theorem InOrder.live (order : c.InOrder l h) {s : Session} (live : c.session = some s) :
    (h.log s.id).endings = [] ∧ (h.log s.id).farewell = [] ∧
      (h.log s.id).written = "hello?version=1.0" :: (h.log s.id).callerLines ∧
      l.accepted = h.callerLines l.opened := by
  obtain ⟨endings, own, written, accepted⟩ := order.outgoing.live s live
  have none_owed : (h.log s.id).farewell = [] := if_neg (by rw [endings]; simp)
  rw [order.flushed (by rw [live]; rfl), List.append_nil] at written
  have lines : (h.log s.id).callerLines = own :=
    SessionLog.callerLines_of_written (by rw [none_owed, List.append_nil, written])
  obtain ⟨earlier, opened, -⟩ := order.recorded.eq_append live
  refine ⟨endings, none_owed, by rw [lines, written], ?_⟩
  rw [accepted, opened, List.dropLast_concat, History.callerLines, History.callerLines,
    List.flatMap_append, List.flatMap_singleton, lines]

/-- What is written on the sessions of a connection that is in order. -/
theorem InOrder.written (order : c.InOrder l h) {id : Nat} (mem : id ∈ l.opened) :
    (h.log id).written = "hello?version=1.0" :: (h.log id).callerLines ++ (h.log id).farewell ∧
      ((∃ cause, (h.log id).endings = [cause]) ∨
        (h.log id).endings = [] ∧ ∃ s, c.session = some s ∧ s.id = id) := by
  by_cases own : ∃ s, c.session = some s ∧ s.id = id
  · obtain ⟨s, live, rfl⟩ := own
    obtain ⟨endings, none_owed, written, -⟩ := order.live live
    rw [none_owed, List.append_nil]
    exact ⟨written, .inr ⟨endings, s, live, rfl⟩⟩
  · have past := order.outgoing.past id mem fun s live same => own ⟨s, live, same.symm⟩
    exact ⟨past.written, .inl past.ended⟩

/-- What a connection that is in order accepted was written, waits, or was dropped because the
connection can never be reached again. -/
theorem InOrder.accepted (order : c.InOrder l h) :
    ∃ dropped, l.accepted = h.callerLines l.opened ++ c.queue.messages ++ dropped ∧
      (c.isAvailable = true → dropped = []) := by
  rcases Option.eq_none_or_eq_some c.session with idle | ⟨s, live⟩
  · exact order.outgoing.idle idle
  · obtain ⟨-, -, -, accepted⟩ := order.live live
    refine ⟨[], ?_, fun _ => rfl⟩
    rw [order.flushed (by rw [live]; rfl), List.append_nil, List.append_nil]
    exact accepted

end Connection

end Backbox
