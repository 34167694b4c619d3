import Backbox.Proofs.Engine.Run

/-!
# What the peers are sent

In every run, every session belongs to one connection, begins with the greeting, and ends
with a goodbye if and only if it ended with the engine. Between them stand the messages of
callers. Session after session, then in the queue, they are the messages that the connection
accepted, in that order and each of them once. Messages are only dropped when the connection
can never be reached again.
-/

namespace Backbox

namespace Connection

/-- Sending tells whether the message was accepted: then the journal says so once, and else
not at all. -/
theorem send_accepts (c : Connection) (message : String) (h : History) :
    ∃ es, h.GoesOn es (c.send message h).2.2 ∧ es.filter Effect.accepts =
      if (c.send message h).1 then [.accepted c.name message] else [] := by
  obtain ⟨es, on, -, told⟩ := send_entries c message h
  exact ⟨es, on, told⟩

end Connection

namespace Engine

/-- In every run, every session belongs to one connection, and carries the greeting, messages
of callers and, if it ended with the engine, the goodbye. What a connection accepted was
written in its order on its sessions, or waits, or was dropped because it can never be reached
again; and it accepted what sending said it did. -/
theorem outbound_fifo_of_run {e₀ : Engine} (fresh : e₀.Fresh) (requests : List Request) :
    let e := e₀.run requests
    let h := e.history
    (∀ c ∈ e.registry, ∃ l ∈ h.lives, l.name = c.name ∧ l.left = false) ∧
    (∀ id < h.sessions, ∃ l ∈ h.lives, id ∈ l.opened ∧ ∀ k ∈ h.lives, id ∈ k.opened → k = l) ∧
    (∀ l ∈ h.lives, ∀ id ∈ l.opened,
      (h.log id).written =
        "hello?version=1.0" :: (h.log id).callerLines ++ (h.log id).farewell ∧
      ((∃ cause, (h.log id).endings = [cause]) ∨
        (h.log id).endings = [] ∧ ∃ c ∈ e.registry, c.name = l.name ∧
          ∃ s, c.session = some s ∧ s.id = id)) ∧
    (∀ l ∈ h.lives, ∃ queued dropped, l.accepted = h.callerLines l.opened ++ queued ++ dropped ∧
      (l.left = true → queued = []) ∧
      (l.left = false → ∃ c ∈ e.registry, c.name = l.name ∧ queued = c.queue.messages ∧
        (c.isAvailable = true → dropped = []))) ∧
    ∀ c ∈ e.registry, ∀ message, ∃ es, h.GoesOn es (c.send message h).2.2 ∧
      es.filter Effect.accepts =
        if (c.send message h).1 then [.accepted c.name message] else [] := by
  intro e h
  have sound : Sound ⟨[], e⟩ := sound_of_run fresh requests
  refine ⟨sound.alive, ?_, ?_, ?_, fun c _ message => Connection.send_accepts c message h⟩
  · intro id hid
    obtain ⟨l, hl, mem⟩ := sound.orderly.covered id hid
    exact ⟨l, hl, mem, fun k hk its => sound.orderly.eq_of_session hk hl its mem⟩
  · intro l hl id hid
    cases present : l.left with
    | true =>
      have past := (sound.settled l hl present).past id hid
      exact ⟨past.written, .inl past.ended⟩
    | false =>
      obtain ⟨c, hc, i, hi, name, -, agrees⟩ := sound.exists_connection hl present
      obtain ⟨written, ended | ⟨open_, live⟩⟩ := agrees.order.written hid
      · exact ⟨written, .inl ended⟩
      · exact ⟨written, .inr ⟨open_, c, hc, name, live⟩⟩
  · intro l hl
    cases present : l.left with
    | true =>
      obtain ⟨dropped, accepted⟩ := (sound.settled l hl present).accepted
      refine ⟨[], dropped, ?_, fun _ => rfl, ?_⟩
      · rw [List.append_nil]
        exact accepted
      · intro lasts
        cases lasts
    | false =>
      obtain ⟨c, hc, i, hi, name, -, agrees⟩ := sound.exists_connection hl present
      obtain ⟨dropped, accepted, kept⟩ := agrees.order.accepted
      refine ⟨c.queue.messages, dropped, accepted, ?_, fun _ => ⟨c, hc, name, rfl, kept⟩⟩
      intro past
      cases past

/-- What is sent while the peer is not reached follows the greeting once it is. -/
theorem outbound_fifo_of_run_retried :
    let e₀ := new fun dials _ _ => 2 ≤ dials.length
    let requests := [Request.configure [("peer", .ofHost "host")], .start,
      .send (.ofName "ball"), .send (.ofName "tilt"), .shutdown]
    let h := (e₀.run requests).history
    e₀.Fresh ∧ (h.log 0).written = ["hello?version=1.0", "ball", "tilt", "goodbye"] ∧
      ∀ l ∈ h.lives, ∃ queued dropped, l.accepted = h.callerLines l.opened ++ queued ++ dropped := by
  intro e₀ requests h
  have fresh : e₀.Fresh := fresh_new _
  refine ⟨fresh, by decide +kernel, ?_⟩
  intro l hl
  obtain ⟨queued, dropped, accepted, -⟩ := (outbound_fifo_of_run fresh requests).2.2.2.1 l hl
  exact ⟨queued, dropped, accepted⟩

end Engine

end Backbox
