import Backbox.Connection.Attempt
import Backbox.Proofs.History.Journal

/-!
# When a peer is called

An attempt calls the peer once if it is due, and else not at all. Starting makes one attempt,
and so does sending, before the message is accepted or refused; the journal tells of each
call and of each message that is accepted.
-/

namespace Backbox

/-- The call that an entry tells of: whose it is, and with which settings it was made. -/
def Effect.call? : Effect → Option (String × ConnectionSettings)
  | .dialled dial => some (dial.connection, dial.settings)
  | _ => none

/-- The message that an entry tells was accepted, and the connection that accepted it. -/
def Effect.accepted? : Effect → Option (String × String)
  | .accepted connection message => some (connection, message)
  | _ => none

/-- The entries that tell of accepted messages tell of all of them. -/
theorem Effect.filterMap_accepted? (es : List Effect) :
    es.filterMap accepted? = (es.filter accepts).filterMap accepted? := by
  rw [List.filterMap_filter]
  refine congrArg (List.filterMap · es) (funext fun e => ?_)
  cases e <;> rfl

namespace History

/-- Adding entries takes no time. -/
theorem now_recordAll (h : History) (es : List Effect) : (h.recordAll es).now = h.now := by
  rw [recordAll_eq]

/-- Asking the host to shut down takes no time. -/
theorem now_requestShutdown (h : History) : h.requestShutdown.now = h.now := by
  unfold requestShutdown
  split <;> rfl

end History

namespace Connection

/-- Whether an attempt is due: there is no session, the peer has not departed, the connection
is neither given up nor closed, its limit leaves an attempt, and the retry delay since its
last failure is over. -/
def isDue (c : Connection) (now : Nat) : Bool :=
  c.session.isNone && !c.departed && !c.state.isTerminal &&
    !c.settings.attempts.isExhausted c.attemptsMade &&
    c.lastFailure.all fun failedAt => c.settings.retryDelayMs.toNat ≤ now - failedAt

/-- An attempt is due when nothing of what keeps it from the peer holds. -/
theorem isDue_eq (c : Connection) (now : Nat) :
    c.isDue now = (!c.isSettled && !c.settings.attempts.isExhausted c.attemptsMade &&
      !c.isWaiting now) := by
  have elapsed :
      (c.lastFailure.all fun failedAt => c.settings.retryDelayMs.toNat ≤ now - failedAt) =
      !c.isWaiting now := by
    unfold isWaiting
    cases c.lastFailure with
    | none => rfl
    | some failedAt =>
      rw [Option.all_some, ← decide_not]
      exact decide_eq_decide.mpr Nat.not_lt.symm
  rw [isDue, elapsed, isSettled, isAvailable]
  cases c.session <;> cases c.departed <;> cases c.state.isTerminal <;> rfl

/-- A connection that is given up is never reached again. -/
theorem isAvailable_giveUp (c : Connection) : c.giveUp.isAvailable = false := by
  simp [isAvailable, giveUp, ConnectionState.isTerminal]

/-- A connection that is given up is settled. -/
theorem isSettled_giveUp (c : Connection) : c.giveUp.isSettled = true := by
  rw [isSettled, isAvailable_giveUp, Bool.not_false, Bool.or_true]

/-- A failed attempt is counted and noted. Otherwise it changes the state and the queue at
most. -/
theorem fail_eq (c : Connection) (now : Nat) :
    ∃ state queue, (state = .connecting ∨ state = .givingUp) ∧ c.fail now = { c with
      state := state
      attemptsMade := nextAttempt c.attemptsMade
      lastFailure := some now
      queue := queue } := by
  simp only [fail]
  split
  · exact ⟨_, _, .inr rfl, rfl⟩
  · exact ⟨_, _, .inl rfl, rfl⟩

/-- After a failed attempt, whoever is not given up has another one left. -/
theorem isExhausted_fail {c : Connection} {now : Nat} (unsettled : (c.fail now).isSettled = false) :
    (c.fail now).settings.attempts.isExhausted (c.fail now).attemptsMade = false := by
  simp only [fail] at unsettled ⊢
  split at unsettled
  · rw [isSettled_giveUp] at unsettled
    cases unsettled
  · next left =>
    rw [if_neg left]
    exact Bool.eq_false_iff.mpr left

/-- What starting or sending at a time makes of a connection. -/
structure TriedAt (now : Nat) (c c' : Connection) : Prop where
  name_eq : c'.name = c.name
  settings_eq : c'.settings = c.settings
  /-- A call reaches the peer, or its failure is counted and noted. -/
  called : c.isDue now = true →
    c'.session.isSome ∧ c'.attemptsMade = 0 ∧ c'.lastFailure = none ∨
      c'.session = none ∧ c'.attemptsMade = nextAttempt c.attemptsMade ∧ c'.lastFailure = some now
  /-- Without a call nothing is counted or noted. -/
  uncalled : c.isDue now = false →
    c'.session = c.session ∧ c'.attemptsMade = c.attemptsMade ∧ c'.lastFailure = c.lastFailure
  /-- Whoever is not settled then has another attempt left. -/
  left : c'.isSettled = false → c'.settings.attempts.isExhausted c'.attemptsMade = false

/-- What an attempt comes to. -/
inductive Attempted (c : Connection) (h : History) : Connection → History → Prop where
  | settled (settled : c.isSettled = true) : Attempted c h c h
  /-- No attempt was left. -/
  | gaveUp (unsettled : c.isSettled = false)
      (exhausted : c.settings.attempts.isExhausted c.attemptsMade = true) :
    Attempted c h c.giveUp h
  | waiting (unsettled : c.isSettled = false)
      (left : c.settings.attempts.isExhausted c.attemptsMade = false)
      (waiting : c.isWaiting h.now = true) : Attempted c h c h
  | reached {h' : History} (unsettled : c.isSettled = false)
      (left : c.settings.attempts.isExhausted c.attemptsMade = false)
      (elapsed : c.isWaiting h.now = false)
      (on : h.GoesOn [.dialled ⟨c.name, c.settings, some h.sessions⟩] h') (now : h'.now = h.now) :
    Attempted c h (c.openSession h.sessions) h'
  /-- The peer was not reached, and the host may be asked to shut down. -/
  | failed {h' : History} (calls : List HostCall) (unsettled : c.isSettled = false)
      (left : c.settings.attempts.isExhausted c.attemptsMade = false)
      (elapsed : c.isWaiting h.now = false)
      (on : h.GoesOn (.dialled ⟨c.name, c.settings, none⟩ :: calls.map .host) h')
      (now : h'.now = h.now) : Attempted c h (c.fail h.now) h'

/-- Every attempt comes to one of these. -/
theorem attempted (c : Connection) (h : History) :
    c.Attempted h (c.attempt h).1 (c.attempt h).2 := by
  unfold attempt
  split
  · next settled => exact .settled settled
  · next unsettled =>
    rw [Bool.not_eq_true] at unsettled
    split
    · next exhausted => exact .gaveUp unsettled exhausted
    · next left =>
      rw [Bool.not_eq_true] at left
      split
      · next waiting => exact .waiting unsettled left waiting
      · next elapsed =>
        rw [Bool.not_eq_true] at elapsed
        obtain ⟨session, h', dialled, outcome, on⟩ :=
          History.GoesOn.dial h c.connector c.name c.settings
        have now : h'.now = h.now := congrArg (·.2.now) dialled.symm
        rw [dialled]
        rcases outcome with rfl | rfl
        · exact .reached unsettled left elapsed on now
        · simp only [now]
          split
          · obtain ⟨calls, asked⟩ := History.GoesOn.requestShutdown h'
            exact .failed calls unsettled left elapsed (on.trans asked)
              ((History.now_requestShutdown h').trans now)
          · exact .failed [] unsettled left elapsed on now

namespace Attempted

variable {c c' : Connection} {h h' : History}

/-- What an attempt makes of a connection. -/
theorem triedAt (attempted : c.Attempted h c' h') : c.TriedAt h.now c' := by
  -- attempts that come to no call
  have still (due : c.isDue h.now = false) (left : c'.isSettled = false →
      c'.settings.attempts.isExhausted c'.attemptsMade = false)
      (same : ∃ state queue, c' = { c with state := state, queue := queue }) :
      c.TriedAt h.now c' := by
    obtain ⟨state, queue, rfl⟩ := same
    refine ⟨rfl, rfl, fun here => ?_, fun _ => ⟨rfl, rfl, rfl⟩, left⟩
    rw [due] at here
    cases here
  cases attempted with
  | settled settled =>
    exact still (by simp [isDue_eq, settled]) (fun unsettled => by simp [settled] at unsettled)
      ⟨_, _, rfl⟩
  | gaveUp _ exhausted =>
    refine still (by simp [isDue_eq, exhausted]) (fun unsettled => ?_) ⟨_, _, rfl⟩
    rw [isSettled_giveUp] at unsettled
    cases unsettled
  | waiting _ left waiting =>
    exact still (by simp [isDue_eq, waiting]) (fun _ => left) ⟨_, _, rfl⟩
  | reached unsettled left elapsed =>
    refine ⟨rfl, rfl, fun _ => .inl ⟨rfl, rfl, rfl⟩, fun undue => ?_, fun free => by cases free⟩
    simp [isDue_eq, unsettled, left, elapsed] at undue
  | failed calls unsettled left elapsed =>
    have idle : c.session = none := by
      rw [isSettled, Bool.or_eq_false_iff] at unsettled
      exact Option.not_isSome_iff_eq_none.mp (Bool.eq_false_iff.mp unsettled.1)
    obtain ⟨state, queue, -, failed⟩ := c.fail_eq h.now
    refine ⟨by rw [failed], by rw [failed], fun _ => .inr ?_, fun undue => ?_, isExhausted_fail⟩
    · rw [failed]
      exact ⟨idle, rfl, rfl⟩
    · simp [isDue_eq, unsettled, left, elapsed] at undue

/-- An attempt takes no time. -/
theorem now_eq (attempted : c.Attempted h c' h') : h'.now = h.now := by
  cases attempted with
  | settled | waiting | gaveUp => rfl
  | reached _ _ _ _ now | failed _ _ _ _ _ now => exact now

/-- An attempt calls the peer once if it is due, and else not at all. -/
theorem entries (attempted : c.Attempted h c' h') :
    ∃ es, h.GoesOn es h' ∧ es.filter Effect.accepts = [] ∧
      es.filterMap Effect.call? = if c.isDue h.now then [(c.name, c.settings)] else [] := by
  rw [isDue_eq]
  cases attempted with
  | settled settled => exact ⟨[], .refl h, rfl, by simp [settled]⟩
  | gaveUp _ exhausted => exact ⟨[], .refl h, rfl, by simp [exhausted]⟩
  | waiting _ _ waiting => exact ⟨[], .refl h, rfl, by simp [waiting]⟩
  | reached unsettled left elapsed on =>
    exact ⟨_, on, rfl, by simp [unsettled, left, elapsed, Effect.call?]⟩
  | failed calls unsettled left elapsed on =>
    exact ⟨_, on, by simp [Effect.accepts],
      by simp [unsettled, left, elapsed, Effect.call?]⟩

end Attempted

/-- Accepting a message changes the queue at most; the journal tells of each message that is
accepted. -/
theorem accept_entries (c : Connection) (message : String) (h : History) :
    (∃ queue, (c.accept message h).2.1 = { c with queue := queue }) ∧
    ∃ es, h.GoesOn es (c.accept message h).2.2 ∧ es.filterMap Effect.call? = [] ∧
      es.filter Effect.accepts =
        if (c.accept message h).1 then [.accepted c.name message] else [] := by
  unfold accept
  split
  · refine ⟨⟨_, rfl⟩, ?_⟩
    cases accepted : (c.queue.offer message).1 with
    | false => exact ⟨[], by simpa [accepted] using .refl h, rfl, by simp⟩
    | true =>
      refine ⟨[.accepted c.name message], ?_, rfl, by simp [Effect.accepts]⟩
      simpa [accepted] using .record h rfl
  · exact ⟨⟨c.queue, rfl⟩, [], .refl h, rfl, rfl⟩

/-- Writing what waits changes the queue at most. -/
theorem flush_entries (c : Connection) (h : History) :
    (∃ queue, (c.flush h).1 = { c with queue := queue }) ∧
    ∃ es, h.GoesOn es (c.flush h).2 ∧ es.filterMap Effect.call? = [] ∧
      es.filter Effect.accepts = [] := by
  rcases Option.eq_none_or_eq_some c.session with idle | ⟨s, live⟩
  · have kept : c.flush h = (c, h) := by rw [flush, idle]
    rw [kept]
    exact ⟨⟨c.queue, rfl⟩, [], .refl h, rfl, rfl⟩
  · have written : c.flush h = c.write s .opened h := by rw [flush, live]
    rw [written]
    refine ⟨⟨_, rfl⟩, _, .recordAll h fun e he => ?_, ?_, ?_⟩
    · obtain ⟨line, -, rfl⟩ := List.mem_map.mp he
      rfl
    · simp [Effect.call?]
    · simp [Effect.accepts]

/-- Writing what waits takes no time. -/
theorem now_flush (c : Connection) (h : History) : (c.flush h).2.now = h.now := by
  unfold flush
  split
  · exact History.now_recordAll _ _
  · rfl

/-- Accepting a message takes no time. -/
theorem now_accept (c : Connection) (message : String) (h : History) :
    (c.accept message h).2.2.now = h.now := by
  unfold accept
  split
  · simp only
    split <;> rfl
  · rfl

/-- Connecting calls the peer once if an attempt is due, and else not at all. -/
theorem connect_entries (c : Connection) (h : History) :
    ∃ es, h.GoesOn es (c.connect h).2 ∧
      es.filterMap Effect.call? = if c.isDue h.now then [(c.name, c.settings)] else [] := by
  obtain ⟨tried, on, -, called⟩ := (c.attempted h).entries
  obtain ⟨-, written, on', none, -⟩ := flush_entries (c.attempt h).1 (c.attempt h).2
  refine ⟨tried ++ written, on.trans on', ?_⟩
  rw [List.filterMap_append, called, none, List.append_nil]

/-- Sending calls the peer once if an attempt is due, and else not at all. It tells whether
the message was accepted: then the journal says so once, and else not at all. -/
theorem send_entries (c : Connection) (message : String) (h : History) :
    ∃ es, h.GoesOn es (c.send message h).2.2 ∧
      (es.filterMap Effect.call? = if c.isDue h.now then [(c.name, c.settings)] else []) ∧
      es.filter Effect.accepts =
        if (c.send message h).1 then [.accepted c.name message] else [] := by
  obtain ⟨tried, on, silent, called⟩ := (c.attempted h).entries
  obtain ⟨-, taken, on', none, told⟩ := accept_entries (c.attempt h).1 message (c.attempt h).2
  obtain ⟨-, written, on'', none', silent'⟩ := flush_entries
    ((c.attempt h).1.accept message (c.attempt h).2).2.1
    ((c.attempt h).1.accept message (c.attempt h).2).2.2
  refine ⟨tried ++ taken ++ written, (on.trans on').trans on'', ?_, ?_⟩
  · rw [List.filterMap_append, List.filterMap_append, called, none, none', List.append_nil,
      List.append_nil]
  · rw [List.filter_append, List.filter_append, silent, told, silent', List.append_nil,
      (c.attempted h).triedAt.name_eq]
    rfl

/-- Connecting takes no time. -/
theorem now_connect (c : Connection) (h : History) : (c.connect h).2.now = h.now :=
  (now_flush _ _).trans (c.attempted h).now_eq

/-- Sending takes no time. -/
theorem now_send (c : Connection) (message : String) (h : History) :
    (c.send message h).2.2.now = h.now :=
  ((now_flush _ _).trans (now_accept _ message _)).trans (c.attempted h).now_eq

private theorem TriedAt.of_queue {now : Nat} {c c' : Connection} (tried : c.TriedAt now c')
    (queue : OutboundQueue) : c.TriedAt now { c' with queue := queue } :=
  ⟨tried.name_eq, tried.settings_eq, tried.called, tried.uncalled, tried.left⟩

/-- What connecting makes of a connection. -/
theorem connect_triedAt (c : Connection) (h : History) : c.TriedAt h.now (c.connect h).1 := by
  obtain ⟨⟨queue, written⟩, -⟩ := flush_entries (c.attempt h).1 (c.attempt h).2
  have tried := (c.attempted h).triedAt.of_queue queue
  rw [← written] at tried
  exact tried

/-- What sending makes of a connection. -/
theorem send_triedAt (c : Connection) (message : String) (h : History) :
    c.TriedAt h.now (c.send message h).2.1 := by
  obtain ⟨⟨taken, accepted⟩, -⟩ := accept_entries (c.attempt h).1 message (c.attempt h).2
  obtain ⟨⟨queue, written⟩, -⟩ := flush_entries
    ((c.attempt h).1.accept message (c.attempt h).2).2.1
    ((c.attempt h).1.accept message (c.attempt h).2).2.2
  have tried := (c.attempted h).triedAt.of_queue taken
  rw [← accepted] at tried
  have tried := tried.of_queue queue
  rw [← written] at tried
  exact tried

/-- A message for a connection that can never be reached again is refused. -/
theorem send_refused {c : Connection} (past : c.isAvailable = false) (message : String)
    (h : History) : (c.send message h).1 = false := by
  have settled : c.isSettled = true := by rw [isSettled, past, Bool.not_false, Bool.or_true]
  have same : c.attempt h = (c, h) := if_pos settled
  have refused : c.accept message h = (false, c, h) :=
    if_neg (Bool.eq_false_iff.mp past)
  rw [send, same]
  simp only [refused]

end Connection

end Backbox
