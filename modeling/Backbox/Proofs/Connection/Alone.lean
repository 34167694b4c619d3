import Backbox.Proofs.Connection.Record

/-!
# A connection on its own

What sending makes of a connection depends on the connection, the time, and what comes of calling
its peer; if this depends only on the calls for the same connection, nothing that happens to others
matters. Sessions are numbered across all connections, so the numbers alone may differ. Something
that is sent on another connection changes nothing of what a connection depends on. What all of
them share is the request for shutdown, which is made once.
-/

namespace Backbox

/-- What came of the attempts on a connection, the newest first: the settings of each, and whether
it reached the peer. -/
def outcomes (name : String) (dials : List Dial) : List (ConnectionSettings × Bool) :=
  (dials.filter (·.connection = name)).map fun dial => (dial.settings, dial.session.isSome)

/-- Whether an attempt reaches a peer depends on the attempts on its own connection only. -/
def Connector.Separate (connector : Connector) : Prop :=
  ∀ dials dials' name settings, outcomes name dials = outcomes name dials' →
    connector dials name settings = connector dials' name settings

variable {name : String} {dial : Dial} {dials : List Dial}

private theorem outcomes_own (name : String) (settings : ConnectionSettings) (session : Option Nat)
    (dials : List Dial) : outcomes name (⟨name, settings, session⟩ :: dials) =
      (settings, session.isSome) :: outcomes name dials := by
  rw [outcomes, List.filter_cons_of_pos (by simp)]
  rfl

/-- What the host is told by an entry. -/
def Effect.hostCall? : Effect → Option HostCall
  | .host call => some call
  | _ => none

namespace History

variable {h h' h'' : History}

/-- What the host was told so far, the oldest first. -/
def hostCalls (h : History) : List HostCall := h.journal.reverse.filterMap Effect.hostCall?

/-- An entry that tells the host nothing is added. -/
theorem hostCalls_record (h : History) {e : Effect} (silent : e.hostCall? = none) :
    (h.record e).hostCalls = h.hostCalls := by
  simp [hostCalls, record, silent]

private theorem requestShutdown_kept (h : History) : h.requestShutdown.dials = h.dials ∧
    (∀ id, h.requestShutdown.log id = h.log id) ∧ h.requestShutdown.shutdownRequested = true := by
  unfold requestShutdown
  split
  · next asked => exact ⟨rfl, fun _ => rfl, asked⟩
  · exact ⟨rfl, fun _ => rfl, rfl⟩

/-- All that the host is told from one history to a later one is to shut down, and this if it was
not asked before. -/
structure OnlyAsks (h h' : History) : Prop where
  kept : h.shutdownRequested = true → h'.shutdownRequested = true
  calls : h'.hostCalls = h.hostCalls ++
    if !h.shutdownRequested && h'.shutdownRequested then [.requestShutdown] else []

namespace OnlyAsks

/-- The host is told nothing. -/
theorem of_eq (asked : h'.shutdownRequested = h.shutdownRequested)
    (calls : h'.hostCalls = h.hostCalls) : h.OnlyAsks h' where
  kept before := asked.trans before
  calls := by rw [asked, calls, Bool.not_and_self, if_neg Bool.false_ne_true, List.append_nil]

/-- One thing happens after another. -/
theorem trans (first : h.OnlyAsks h') (second : h'.OnlyAsks h'') : h.OnlyAsks h'' where
  kept := second.kept ∘ first.kept
  calls := by
    have kept := first.kept
    have kept' := second.kept
    rw [second.calls, first.calls, List.append_assoc]
    congr 1
    cases before : h.shutdownRequested <;> cases between : h'.shutdownRequested <;>
      cases after : h''.shutdownRequested <;> simp_all

/-- Entries that tell the host nothing are added. -/
theorem recordAll (h : History) {es : List Effect} (silent : ∀ e ∈ es, e.hostCall? = none) :
    h.OnlyAsks (h.recordAll es) := by
  rw [recordAll_eq]
  refine .of_eq rfl ?_
  have none : es.filterMap Effect.hostCall? = [] := List.filterMap_eq_nil_iff.mpr silent
  simp only [hostCalls, List.reverse_append, List.reverse_reverse, List.filterMap_append, none,
    List.append_nil]

/-- The host is asked to shut down. -/
theorem requested (h : History) : h.OnlyAsks h.requestShutdown := by
  unfold History.requestShutdown
  cases asked : h.shutdownRequested with
  | true => exact .of_eq rfl rfl
  | false =>
    refine ⟨fun _ => rfl, ?_⟩
    simp [hostCalls, tell, record, asked, Effect.hostCall?]

end OnlyAsks

end History

namespace Connection

/-- A connection by itself: without the number of its session, and with no way to other peers. -/
def core (c : Connection) : Connection :=
  { c with
    connector := fun dials _ _ => c.connector dials c.name c.settings
    session := c.session.map fun s => { s with id := 0 } }

/-- The lines that were written on the session of a connection. -/
def linesWritten (c : Connection) (h : History) : List String :=
  match c.session with
  | some s => (h.log s.id).written
  | none => []

/-- Two connections are alike, each in its own history: they are the same but for the number of the
session and the way to other peers, at the same time, after the same outcomes of attempts, and with
the same lines written. -/
structure Alike (c : Connection) (h : History) (d : Connection) (k : History) : Prop where
  same : c.core = d.core
  now : h.now = k.now
  outcomes : outcomes c.name h.dials = outcomes c.name k.dials
  lines : c.linesWritten h = d.linesWritten k

variable {c d b c' : Connection} {h k h' k' l : History} {message : String}

namespace Alike

/-- A connection is like itself. -/
theorem refl (c : Connection) (h : History) : Alike c h c h := ⟨rfl, rfl, rfl, rfl⟩

/-- Both have the same name. -/
theorem name_eq (alike : Alike c h d k) : c.name = d.name := congrArg (·.name) alike.same

/-- Both have the same settings. -/
theorem settings_eq (alike : Alike c h d k) : c.settings = d.settings :=
  congrArg (·.settings) alike.same

/-- Each of them is like the other. -/
theorem symm (alike : Alike c h d k) : Alike d k c h where
  same := alike.same.symm
  now := alike.now.symm
  outcomes := by rw [← alike.name_eq, alike.outcomes]
  lines := alike.lines.symm

/-- Both are like what one of them is like. -/
theorem trans (first : Alike c h d k) (second : Alike d k b l) : Alike c h b l where
  same := first.same.trans second.same
  now := first.now.trans second.now
  outcomes := first.outcomes.trans (first.name_eq ▸ second.outcomes)
  lines := first.lines.trans second.lines

end Alike

/-! ### Attempts -/

/-- Whether an attempt reaches the peer if it is made now. -/
def reaches (c : Connection) (h : History) : Bool := c.connector h.dials c.name c.settings

/-- What becomes of a connection without an attempt: it is given up if none is left for it. -/
def untried (c : Connection) : Connection :=
  if !c.isSettled && c.settings.attempts.isExhausted c.attemptsMade then c.giveUp else c

/-- Where no attempt is due, nothing happens. -/
theorem attempt_of_undue (undue : c.isDue h.now = false) : c.attempt h = (c.untried, h) := by
  rw [isDue_eq] at undue
  unfold attempt untried
  cases settled : c.isSettled with
  | true => rfl
  | false =>
    cases exhausted : c.settings.attempts.isExhausted c.attemptsMade with
    | true => rfl
    | false =>
      have waiting : c.isWaiting h.now = true := by simpa [settled, exhausted] using undue
      simp [waiting]

private theorem unsettled_of_due (due : c.isDue h.now = true) : c.isSettled = false ∧
    c.settings.attempts.isExhausted c.attemptsMade = false ∧ c.isWaiting h.now = false := by
  rw [isDue_eq] at due
  simp only [Bool.and_eq_true, Bool.not_eq_true'] at due
  exact ⟨due.1.1, due.1.2, due.2⟩

/-- An attempt that reaches the peer opens the next session. -/
theorem attempt_of_reached (due : c.isDue h.now = true) (reached : c.reaches h = true) :
    c.attempt h = (c.openSession h.sessions, { h with
      dials := ⟨c.name, c.settings, some h.sessions⟩ :: h.dials
      sessions := h.sessions + 1
      journal := .dialled ⟨c.name, c.settings, some h.sessions⟩ :: h.journal }) := by
  obtain ⟨unsettled, left, elapsed⟩ := unsettled_of_due due
  rw [reaches] at reached
  simp only [attempt, unsettled, left, elapsed, History.dial, reached, if_true]
  rfl

/-- What has happened after an attempt that does not reach the peer. -/
def afterFailure (c : Connection) (h : History) : History :=
  { h with
    dials := ⟨c.name, c.settings, none⟩ :: h.dials
    journal := .dialled ⟨c.name, c.settings, none⟩ :: h.journal }

/-- An attempt that does not reach the peer fails, and the host is asked to shut down if the peer is
required. -/
theorem attempt_of_unreached (due : c.isDue h.now = true) (unreached : c.reaches h = false) :
    c.attempt h = (c.fail h.now,
      if c.settings.required then (c.afterFailure h).requestShutdown else c.afterFailure h) := by
  obtain ⟨unsettled, left, elapsed⟩ := unsettled_of_due due
  rw [reaches] at unreached
  simp only [attempt, unsettled, left, elapsed, History.dial, unreached]
  rfl

/-- Whether an attempt is due, on a required peer that it does not reach. -/
def losesRequired (c : Connection) (h : History) : Bool :=
  c.isDue h.now && !c.reaches h && c.settings.required

/-! ### Alike connections -/

private theorem linesWritten_congr (session : c'.session = c.session)
    (log : ∀ s, c.session = some s → (h'.log s.id).written = (h.log s.id).written) :
    c'.linesWritten h' = c.linesWritten h := by
  unfold linesWritten
  rw [session]
  cases live : c.session with
  | none => rfl
  | some s => exact log s live

private theorem linesWritten_idle (idle : c.session = none) : c.linesWritten h = [] := by
  unfold linesWritten
  rw [idle]

private theorem linesWritten_opened (numbered : h.Numbered) :
    (c.openSession h.sessions).linesWritten { h with
      dials := ⟨c.name, c.settings, some h.sessions⟩ :: h.dials
      sessions := h.sessions + 1
      journal := .dialled ⟨c.name, c.settings, some h.sessions⟩ :: h.journal } = [] := by
  have unopened := History.log_unopened numbered (Nat.le_refl h.sessions)
  exact congrArg SessionLog.written unopened

private theorem log_record (h : History) {e : Effect} (other : e.session? = none) (id : Nat) :
    (h.record e).log id = h.log id :=
  SessionLog.note_of_ne _ (by simp [other])

private theorem linesWritten_accepted (c : Connection) (queue : OutboundQueue) (h : History)
    (name message : String) : { c with queue := queue }.linesWritten
      (h.record (.accepted name message)) = c.linesWritten h :=
  linesWritten_congr rfl fun s _ => by rw [log_record h rfl]

private theorem isDue_core (c : Connection) (now : Nat) :
    c.core.isDue now = c.isDue now := by
  rw [isDue, isDue, core, Option.isNone_map]

private theorem untried_core (c : Connection) : c.untried.core = c.core.untried := by
  have settled : c.core.isSettled = c.isSettled := by
    simp [isSettled, core, isAvailable]
  unfold untried
  rw [settled]
  change _ = if !c.isSettled && c.settings.attempts.isExhausted c.attemptsMade then _ else _
  split <;> rfl

private theorem untried_name (c : Connection) : c.untried.name = c.name := by
  unfold untried
  split <;> rfl

private theorem untried_session (c : Connection) : c.untried.session = c.session := by
  unfold untried
  split <;> rfl

private theorem fail_core (c : Connection) (now : Nat) :
    (c.fail now).core = c.core.fail now := by
  simp only [fail]
  change _ = if c.settings.attempts.isExhausted (nextAttempt c.attemptsMade) then _ else _
  split <;> rfl

private theorem fail_kept (c : Connection) (now : Nat) :
    (c.fail now).name = c.name ∧ (c.fail now).session = c.session := by
  obtain ⟨state, queue, -, failed⟩ := c.fail_eq now
  rw [failed]
  exact ⟨rfl, rfl⟩

private theorem idle_of_due (due : c.isDue h.now = true) : c.session = none :=
  (unsettled_iff.mp (unsettled_of_due due).1).1

private theorem flush_of_idle (idle : c.session = none) : c.flush h = (c, h) := by
  unfold flush
  rw [idle]

private theorem flush_of_live {s : Session} (live : c.session = some s) :
    c.flush h = c.write s .opened h := by
  unfold flush
  rw [live]

private theorem accept_history (c : Connection) (message : String) (h : History) :
    ∃ es, (c.accept message h).2.2 = h.recordAll es ∧ ∀ e ∈ es, e = .accepted c.name message := by
  unfold accept
  split
  · obtain ⟨accepted, queue⟩ := c.queue.offer message
    cases accepted with
    | true => exact ⟨[.accepted c.name message], rfl, fun e he => List.mem_singleton.mp he⟩
    | false => exact ⟨[], rfl, fun e he => absurd he List.not_mem_nil⟩
  · exact ⟨[], rfl, fun e he => absurd he List.not_mem_nil⟩

private theorem flush_history (c : Connection) (h : History) :
    ∃ es, (c.flush h).2 = h.recordAll es ∧
      ∀ e ∈ es, ∃ s line, c.session = some s ∧ e = .wrote s.id line := by
  cases live : c.session with
  | none =>
    rw [flush_of_idle live]
    exact ⟨[], rfl, fun e he => absurd he List.not_mem_nil⟩
  | some s =>
    rw [flush_of_live live]
    refine ⟨c.queue.messages.map (.wrote s.id), rfl, fun e he => ?_⟩
    obtain ⟨line, -, rfl⟩ := List.mem_map.mp he
    exact ⟨s, line, rfl, rfl⟩

private theorem dials_flush (c : Connection) (h : History) : (c.flush h).2.dials = h.dials := by
  obtain ⟨es, written, -⟩ := c.flush_history h
  rw [written, History.recordAll_eq]

private theorem linesWritten_flush {s : Session} (live : c.session = some s) (h : History) :
    (c.flush h).1.linesWritten (c.flush h).2 = c.linesWritten h ++ c.queue.messages := by
  have on : h.GoesOn (c.queue.messages.map (.wrote s.id))
      (h.recordAll (c.queue.messages.map (.wrote s.id))) := by
    refine .recordAll h fun e he => ?_
    obtain ⟨line, -, rfl⟩ := List.mem_map.mp he
    rfl
  have log := History.log_of_goesOn on s.id
  rw [SessionLog.after_wrote] at log
  rw [flush_of_live live]
  unfold linesWritten write
  simp only [live]
  exact congrArg SessionLog.written log

private theorem requested_eq (required : Bool) (h : History) :
    (if required then h.requestShutdown else h).now = h.now ∧
      (if required then h.requestShutdown else h).dials = h.dials := by
  split
  · exact ⟨h.now_requestShutdown, h.requestShutdown_kept.1⟩
  · exact ⟨rfl, rfl⟩

namespace Alike

/-- An attempt is due on both or on neither. -/
theorem isDue_eq (alike : Alike c h d k) : c.isDue h.now = d.isDue k.now := by
  rw [← isDue_core c, ← isDue_core d, alike.same, alike.now]

/-- Both peers are reached or neither is. -/
theorem reaches_eq (alike : Alike c h d k) (separate : c.connector.Separate) :
    c.reaches h = d.reaches k := by
  have answers := congrArg (fun b : Connection => b.connector k.dials b.name b.settings) alike.same
  exact (separate _ _ _ _ alike.outcomes).trans answers

private theorem dialled (alike : Alike c h d k) {session session' : Option Nat}
    (both : session.isSome = session'.isSome) :
    Backbox.outcomes c.name (⟨c.name, c.settings, session⟩ :: h.dials) =
      Backbox.outcomes c.name (⟨d.name, d.settings, session'⟩ :: k.dials) := by
  rw [← alike.name_eq, ← alike.settings_eq, outcomes_own, outcomes_own, alike.outcomes, both]

/-- They stay alike after an attempt on each. -/
theorem attempt (alike : Alike c h d k) (separate : c.connector.Separate) (numbered : h.Numbered)
    (numbered' : k.Numbered) :
    Alike (c.attempt h).1 (c.attempt h).2 (d.attempt k).1 (d.attempt k).2 := by
  have both := alike.isDue_eq
  have answers := alike.reaches_eq separate
  cases due : c.isDue h.now with
  | false =>
    rw [attempt_of_undue due, attempt_of_undue (both ▸ due)]
    refine ⟨?_, alike.now, ?_, ?_⟩
    · rw [untried_core, untried_core, alike.same]
    · rw [untried_name]
      exact alike.outcomes
    · exact (linesWritten_congr c.untried_session fun _ _ => rfl).trans
        (alike.lines.trans (linesWritten_congr d.untried_session fun _ _ => rfl).symm)
  | true =>
    cases reached : c.reaches h with
    | true =>
      rw [attempt_of_reached due reached, attempt_of_reached (both ▸ due) (answers ▸ reached)]
      refine ⟨congrArg (openSession · 0) alike.same, alike.now, alike.dialled rfl, ?_⟩
      rw [linesWritten_opened numbered, linesWritten_opened numbered']
    | false =>
      rw [attempt_of_unreached due reached, attempt_of_unreached (both ▸ due) (answers ▸ reached)]
      obtain ⟨now, dials⟩ := requested_eq c.settings.required (c.afterFailure h)
      obtain ⟨now', dials'⟩ := requested_eq d.settings.required (d.afterFailure k)
      refine ⟨?_, now.trans (alike.now.trans now'.symm), ?_, ?_⟩
      · rw [fail_core, fail_core, alike.same, alike.now]
      · rw [(fail_kept c h.now).1, dials, dials']
        exact alike.dialled rfl
      · rw [linesWritten_idle ((fail_kept c h.now).2.trans (idle_of_due due)),
          linesWritten_idle ((fail_kept d k.now).2.trans (idle_of_due (both ▸ due)))]

private theorem requeued (same : c.core = d.core) (queue : OutboundQueue) :
    { c with queue := queue }.core = { d with queue := queue }.core :=
  congrArg (fun b : Connection => { b with queue := queue }) same

/-- Both accept a message or none does, and they stay alike. -/
theorem accept (alike : Alike c h d k) (message : String) :
    (c.accept message h).1 = (d.accept message k).1 ∧
      Alike (c.accept message h).2.1 (c.accept message h).2.2 (d.accept message k).2.1
        (d.accept message k).2.2 := by
  have available : c.isAvailable = d.isAvailable := (congrArg isAvailable alike.same :)
  have queue : c.queue = d.queue := congrArg (·.queue) alike.same
  unfold Connection.accept
  rw [← available, ← queue]
  split
  · obtain ⟨accepted, rest⟩ := c.queue.offer message
    have same := requeued alike.same rest
    refine ⟨rfl, ?_⟩
    cases accepted with
    | true =>
      refine ⟨same, alike.now, alike.outcomes, ?_⟩
      exact (linesWritten_accepted ..).trans (alike.lines.trans (linesWritten_accepted ..).symm)
    | false => exact ⟨same, alike.now, alike.outcomes, alike.lines⟩
  · exact ⟨rfl, alike⟩

private theorem isSome_eq (alike : Alike c h d k) : c.session.isSome = d.session.isSome := by
  have both := congrArg (fun b : Connection => b.session.isSome) alike.same
  simpa only [core, Option.isSome_map] using both

/-- They stay alike when what waits is written. -/
theorem flush (alike : Alike c h d k) :
    Alike (c.flush h).1 (c.flush h).2 (d.flush k).1 (d.flush k).2 := by
  have queue : c.queue = d.queue := congrArg (·.queue) alike.same
  have sessions := alike.isSome_eq
  cases live : c.session with
  | none =>
    have idle : d.session = none := by simpa [live] using sessions
    rw [flush_of_idle live, flush_of_idle idle]
    exact alike
  | some s =>
    rw [live] at sessions
    obtain ⟨t, live'⟩ := Option.isSome_iff_exists.mp sessions.symm
    refine ⟨?_, ?_, ?_, ?_⟩
    · rw [flush_of_live live, flush_of_live live', write, write, ← queue]
      exact requeued alike.same _
    · rw [now_flush, now_flush, alike.now]
    · obtain ⟨⟨rest, kept⟩, -⟩ := flush_entries c h
      rw [dials_flush, dials_flush, kept]
      exact alike.outcomes
    · rw [linesWritten_flush live, linesWritten_flush live', alike.lines, queue]

/-- They stay alike when the same is sent on each, and both accept it or none does. -/
theorem send (alike : Alike c h d k) (separate : c.connector.Separate) (numbered : h.Numbered)
    (numbered' : k.Numbered) (message : String) :
    (c.send message h).1 = (d.send message k).1 ∧
      Alike (c.send message h).2.1 (c.send message h).2.2 (d.send message k).2.1
        (d.send message k).2.2 := by
  obtain ⟨accepted, queued⟩ := (alike.attempt separate numbered numbered').accept message
  exact ⟨accepted, queued.flush⟩

end Alike

/-! ### What is sent on another connection -/

private theorem attempt_history (c : Connection) (h : History) :
    (∀ id, (c.attempt h).2.log id = h.log id) ∧
    ((c.attempt h).2.dials = h.dials ∨
      ∃ session, (c.attempt h).2.dials = ⟨c.name, c.settings, session⟩ :: h.dials) ∧
    h.OnlyAsks (c.attempt h).2 ∧
    (c.attempt h).2.shutdownRequested = (h.shutdownRequested || c.losesRequired h) := by
  unfold losesRequired
  cases due : c.isDue h.now with
  | false =>
    rw [attempt_of_undue due]
    exact ⟨fun _ => rfl, .inl rfl, .of_eq rfl rfl, (Bool.or_false _).symm⟩
  | true =>
    cases reached : c.reaches h with
    | true =>
      rw [attempt_of_reached due reached]
      refine ⟨fun _ => rfl, .inr ⟨_, rfl⟩, .of_eq rfl ?_, (Bool.or_false _).symm⟩
      exact History.hostCalls_record h rfl
    | false =>
      have told : h.OnlyAsks (c.afterFailure h) := .of_eq rfl (History.hostCalls_record h rfl)
      rw [attempt_of_unreached due reached]
      cases required : c.settings.required with
      | false => exact ⟨fun _ => rfl, .inr ⟨_, rfl⟩, told, (Bool.or_false _).symm⟩
      | true =>
        obtain ⟨dials, log, asked⟩ := History.requestShutdown_kept (c.afterFailure h)
        exact ⟨log, .inr ⟨none, dials⟩, told.trans (.requested _),
          asked.trans (Bool.or_true _).symm⟩

-- After the attempt, entries are only added about the message and about the session.
private theorem send_history (c : Connection) (message : String) (h : History) :
    ∃ es, (c.send message h).2.2 = (c.attempt h).2.recordAll es ∧ ∀ e ∈ es,
      (∃ s line, (c.send message h).2.1.session = some s ∧ e = .wrote s.id line) ∨
        e = .accepted (c.attempt h).1.name message := by
  obtain ⟨taken, accepted, entries⟩ := (c.attempt h).1.accept_history message (c.attempt h).2
  obtain ⟨written, flushed, entries'⟩ := flush_history
    ((c.attempt h).1.accept message (c.attempt h).2).2.1
    ((c.attempt h).1.accept message (c.attempt h).2).2.2
  obtain ⟨⟨queue, kept⟩, -⟩ := flush_entries
    ((c.attempt h).1.accept message (c.attempt h).2).2.1
    ((c.attempt h).1.accept message (c.attempt h).2).2.2
  have session : (c.send message h).2.1.session =
      ((c.attempt h).1.accept message (c.attempt h).2).2.1.session :=
    congrArg (·.session) kept
  refine ⟨taken ++ written, ?_, fun e he => ?_⟩
  · rw [History.recordAll, List.foldl_append]
    exact flushed.trans (congrArg (History.recordAll · written) accepted)
  · rcases List.mem_append.mp he with he | he
    · exact .inr (entries e he)
    · rw [session]
      exact .inl (entries' e he)

/-- No step changes how a connection reaches its peer. -/
theorem Steps.connector_eq {es : List Effect} (steps : c.Steps h es c' h') :
    c'.connector = c.connector := by
  induction steps with
  | none => rfl
  | cons step _ ih =>
    refine ih.trans ?_
    cases step with
    | failed now =>
      obtain ⟨state, queue, -, failed⟩ := Connection.fail_eq _ now
      rw [failed]
    | gaveUp | opened | accepted | flushed | closedIdle | closedLive | lost | departed | heard
      | framed => rfl

/-! ### What the host is told by sending -/

/-- Alike connections fail to reach a required peer both or not at all. -/
theorem Alike.losesRequired_eq (alike : Alike c h d k) (separate : c.connector.Separate) :
    c.losesRequired h = d.losesRequired k := by
  rw [losesRequired, losesRequired, alike.isDue_eq, alike.reaches_eq separate, alike.settings_eq]

/-- All that connecting tells the host is to shut down, if a required peer is not reached. -/
theorem connect_asks (c : Connection) (h : History) :
    h.OnlyAsks (c.connect h).2 ∧
      (c.connect h).2.shutdownRequested = (h.shutdownRequested || c.losesRequired h) := by
  obtain ⟨es, flushed, entries⟩ := (c.attempt h).1.flush_history (c.attempt h).2
  obtain ⟨-, -, asks, asked⟩ := c.attempt_history h
  have silent : ∀ e ∈ es, e.hostCall? = none := by
    intro e he
    obtain ⟨s, line, -, rfl⟩ := entries e he
    rfl
  have connected : (c.connect h).2 = (c.attempt h).2.recordAll es := flushed
  refine ⟨asks.trans (connected ▸ .recordAll _ silent), ?_⟩
  rw [connected, History.recordAll_eq]
  exact asked

/-- All that sending tells the host is to shut down, if a required peer is not reached. -/
theorem send_asks (c : Connection) (message : String) (h : History) :
    h.OnlyAsks (c.send message h).2.2 ∧
      (c.send message h).2.2.shutdownRequested = (h.shutdownRequested || c.losesRequired h) := by
  obtain ⟨es, sent, entries⟩ := c.send_history message h
  obtain ⟨-, -, asks, asked⟩ := c.attempt_history h
  have silent : ∀ e ∈ es, e.hostCall? = none := by
    intro e he
    rcases entries e he with ⟨s, line, -, rfl⟩ | rfl <;> rfl
  refine ⟨asks.trans (sent ▸ .recordAll _ silent), ?_⟩
  rw [sent, History.recordAll_eq]
  exact asked

end Connection

end Backbox
