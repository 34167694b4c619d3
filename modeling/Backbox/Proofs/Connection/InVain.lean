import Backbox.Proofs.Connection.Alone

/-!
# Attempts in vain

A connection that never reaches its peer has one chance at the start and one more with every message
that is sent. Without a delay between attempts it takes every chance until its limit is reached, and
is given up with the attempt that reaches it. The host is asked to shut down with the first attempt
on a required connection, and not at all where no attempt is allowed.
-/

namespace Backbox

namespace AttemptLimit

/-- How many attempts were made at this many chances, if all of them failed. -/
def spent (limit : AttemptLimit) (chances : Nat) : Nat :=
  match limit with
  | unbounded => min chances maxCount
  | bounded count => min count.toNat chances

variable {limit : AttemptLimit} {chances : Nat}

/-- No attempt is left exactly if there were as many chances as attempts are allowed. -/
theorem isExhausted_spent (limit : AttemptLimit) (chances : Nat) :
    limit.isExhausted (limit.spent chances) = limit.isExhausted chances := by
  cases limit with
  | unbounded => rfl
  | bounded count =>
    rw [isExhausted, spent, isExhausted, decide_eq_decide]
    omega

/-- Nothing was spent before there was a chance. -/
theorem spent_zero (limit : AttemptLimit) : limit.spent 0 = 0 := by
  cases limit with
  | unbounded => rfl
  | bounded count => exact Nat.min_zero count.toNat

/-- No attempt is left before the first one only where none is allowed. -/
theorem isExhausted_zero_iff (limit : AttemptLimit) :
    limit.isExhausted 0 = true ↔ limit = .bounded 0 := by
  cases limit with
  | unbounded => simp [isExhausted]
  | bounded count =>
    rw [isExhausted, decide_eq_true_iff, Nat.le_zero, bounded.injEq, ← UInt32.toNat_inj]
    rfl

/-- A limit that is reached stays so. -/
theorem isExhausted_succ (exhausted : limit.isExhausted chances = true) :
    limit.isExhausted (chances + 1) = true := by
  cases limit with
  | unbounded => cases exhausted
  | bounded count => exact decide_eq_true (Nat.le_succ_of_le (of_decide_eq_true exhausted))

/-- Where no attempt is allowed, none is left at any time. -/
theorem isExhausted_of_zero (none : limit.isExhausted 0 = true) (chances : Nat) :
    limit.isExhausted chances = true := by
  induction chances with
  | zero => exact none
  | succ chances ih => exact isExhausted_succ ih

/-- A chance makes no difference where no attempt is left. -/
theorem spent_succ_of_exhausted (exhausted : limit.isExhausted chances = true) :
    limit.spent (chances + 1) = limit.spent chances := by
  cases limit with
  | unbounded => cases exhausted
  | bounded count =>
    have within : count.toNat ≤ chances := of_decide_eq_true exhausted
    rw [spent, spent]
    omega

/-- A chance is taken where an attempt is left. -/
theorem nextAttempt_spent (left : limit.isExhausted chances = false) :
    Connection.nextAttempt (limit.spent chances) = limit.spent (chances + 1) := by
  cases limit with
  | unbounded =>
    rw [Connection.nextAttempt, spent, spent]
    omega
  | bounded count =>
    have beyond : ¬ count.toNat ≤ chances := of_decide_eq_false left
    have counted : count.toNat < 2 ^ 32 := count.toNat_lt
    rw [Connection.nextAttempt, spent, spent, maxCount]
    omega

end AttemptLimit

namespace Connection

/-- A connection that had so many chances to reach its peer and did not reach it. -/
structure Vain (chances : Nat) (c : Connection) : Prop where
  idle : c.session = none
  present : c.departed = false
  spent : c.attemptsMade = c.settings.attempts.spent chances
  state : c.state = if chances = 0 then .disconnected
    else if c.settings.attempts.isExhausted chances then .givingUp else .connecting

variable {c : Connection} {h : History} {chances : Nat}

/-- A connection that was not tried had no chance yet. -/
theorem vain_new (name : String) (settings : ConnectionSettings) (connector : Connector) :
    Vain 0 (.new name settings connector) where
  idle := rfl
  present := rfl
  spent := settings.attempts.spent_zero.symm
  state := rfl

namespace Vain

/-- What waits in the queue makes no difference. -/
theorem of_queue (vain : c.Vain chances) (queue : OutboundQueue) :
    Vain chances { c with queue := queue } :=
  ⟨vain.idle, vain.present, vain.spent, vain.state⟩

/-- Without a delay between attempts, one is due while any is left. -/
theorem isDue_eq (vain : c.Vain chances) (prompt : c.settings.retryDelayMs = 0) (now : Nat) :
    c.isDue now = !c.settings.attempts.isExhausted chances := by
  have elapsed : (c.lastFailure.all fun failedAt =>
      decide (c.settings.retryDelayMs.toNat ≤ now - failedAt)) = true := by
    rw [prompt]
    cases c.lastFailure <;> rfl
  rw [isDue, elapsed, vain.idle, vain.present, vain.spent, AttemptLimit.isExhausted_spent,
    vain.state]
  cases c.settings.attempts.isExhausted chances with
  | true => simp
  | false =>
    by_cases first : chances = 0
    · simp [first, ConnectionState.isTerminal]
    · simp [first, ConnectionState.isTerminal]

/-- Where no attempt is left, the connection is given up, if it was not before. -/
theorem untried_eq (vain : c.Vain chances)
    (exhausted : c.settings.attempts.isExhausted chances = true) :
    ∃ queue, c.untried = { c with state := .givingUp, queue := queue } := by
  have state := vain.state
  by_cases first : chances = 0
  · rw [if_pos first] at state
    have unsettled : c.isSettled = false := by
      simp [isSettled, isAvailable, vain.idle, vain.present, state, ConnectionState.isTerminal]
    have reached : c.settings.attempts.isExhausted c.attemptsMade = true := by
      rw [vain.spent, AttemptLimit.isExhausted_spent, exhausted]
    refine ⟨c.queue.clear.2, ?_⟩
    rw [untried, unsettled, reached]
    rfl
  · rw [if_neg first, if_pos exhausted] at state
    have settled : c.isSettled = true := by
      simp [isSettled, isAvailable, state, ConnectionState.isTerminal]
    refine ⟨c.queue, ?_⟩
    rw [untried, settled, ← state]
    rfl

end Vain

/-- An attempt that is due does not reach the peer, if no session is opened at all. -/
theorem reaches_of_unopened (due : c.isDue h.now = true)
    (unopened : (c.attempt h).2.sessions = 0) : c.reaches h = false := by
  cases reached : c.reaches h with
  | false => rfl
  | true =>
    rw [attempt_of_reached due reached] at unopened
    cases unopened

namespace Vain

/-- A chance is one chance more, if no session is opened. -/
theorem attempt (vain : c.Vain chances) (prompt : c.settings.retryDelayMs = 0)
    (unopened : (c.attempt h).2.sessions = 0) : (c.attempt h).1.Vain (chances + 1) := by
  have due := vain.isDue_eq prompt h.now
  cases exhausted : c.settings.attempts.isExhausted chances with
  | true =>
    rw [exhausted] at due
    obtain ⟨queue, given⟩ := vain.untried_eq exhausted
    rw [attempt_of_undue due, given]
    refine ⟨vain.idle, vain.present, ?_, ?_⟩
    · exact vain.spent.trans (AttemptLimit.spent_succ_of_exhausted exhausted).symm
    · exact (if_pos (AttemptLimit.isExhausted_succ exhausted)).symm
  | false =>
    rw [exhausted] at due
    rw [attempt_of_unreached due (reaches_of_unopened due unopened)]
    have counted := AttemptLimit.nextAttempt_spent exhausted
    rw [← vain.spent] at counted
    simp only [fail, counted, AttemptLimit.isExhausted_spent]
    split
    · next last => exact ⟨vain.idle, vain.present, rfl, (if_pos last).symm⟩
    · next more => exact ⟨vain.idle, vain.present, rfl, (if_neg more).symm⟩

/-- A required peer is lost with a chance exactly if an attempt is left, and no session is opened. -/
theorem losesRequired_eq (vain : c.Vain chances) (prompt : c.settings.retryDelayMs = 0)
    (unopened : (c.attempt h).2.sessions = 0) : c.losesRequired h =
      (!c.settings.attempts.isExhausted chances && c.settings.required) := by
  have due := vain.isDue_eq prompt h.now
  rw [losesRequired, due]
  cases exhausted : c.settings.attempts.isExhausted chances with
  | true => rfl
  | false =>
    rw [exhausted] at due
    rw [reaches_of_unopened due unopened]
    rfl

/-- Connecting is a chance. -/
theorem connect (vain : c.Vain chances) (prompt : c.settings.retryDelayMs = 0)
    (unopened : (c.connect h).2.sessions = 0) : (c.connect h).1.Vain (chances + 1) ∧
      c.losesRequired h = (!c.settings.attempts.isExhausted chances && c.settings.required) := by
  obtain ⟨⟨queue, written⟩, es, on, -⟩ := flush_entries (c.attempt h).1 (c.attempt h).2
  have before : (c.attempt h).2.sessions = 0 := Nat.le_zero.mp (unopened ▸ on.sessions_le)
  refine ⟨?_, vain.losesRequired_eq prompt before⟩
  rw [Connection.connect]
  simp only [written]
  exact (vain.attempt prompt before).of_queue queue

/-- Sending is a chance. -/
theorem send {message : String} (vain : c.Vain chances) (prompt : c.settings.retryDelayMs = 0)
    (unopened : (c.send message h).2.2.sessions = 0) :
    (c.send message h).2.1.Vain (chances + 1) ∧
      c.losesRequired h = (!c.settings.attempts.isExhausted chances && c.settings.required) := by
  obtain ⟨⟨taken, accepted⟩, es, on, -⟩ := accept_entries (c.attempt h).1 message (c.attempt h).2
  obtain ⟨⟨queue, written⟩, es', on', -⟩ := flush_entries
    ((c.attempt h).1.accept message (c.attempt h).2).2.1
    ((c.attempt h).1.accept message (c.attempt h).2).2.2
  have before : (c.attempt h).2.sessions = 0 :=
    Nat.le_zero.mp (unopened ▸ Nat.le_trans on.sessions_le on'.sessions_le)
  refine ⟨?_, vain.losesRequired_eq prompt before⟩
  have tried := (vain.attempt prompt before).of_queue taken
  rw [← accepted] at tried
  have tried := tried.of_queue queue
  rw [← written] at tried
  exact tried

end Vain

end Connection

end Backbox
