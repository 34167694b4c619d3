import Backbox.Proofs.Engine.Poll
import Backbox.Proofs.Engine.Run

/-!
# What becomes of everything that peers say

In every run, what the lines of a connection's sessions say before a goodbye is not lost,
repeated or reordered: each display frame was given to the host, and each command but a
greeting was dispatched or waits in the inbox. A connection is only removed when its peer said
goodbye and nothing waits any more.
-/

namespace Backbox.Engine

/-- In every run, the display frames of each connection were shown, its commands were
dispatched or wait, in the order in which its peer sent them, and none waits when the
connection is removed, which takes a goodbye. A poll answers with the number of commands that
it dispatched, whatever its bound, and it answers if nothing arrives meanwhile. -/
theorem inbound_once_of_run {e₀ : Engine} (fresh : e₀.Fresh) (requests : List Request) :
    let e := e₀.run requests
    let h := e.history
    (∀ c ∈ e.registry, ∃ l ∈ h.lives, l.name = c.name ∧ l.left = false) ∧
    (∀ l ∈ h.lives,
      let said := (h.linesRead l.opened).map (Line.said e.valueCase)
      h.framesShown l.opened = (Said.heard said).filterMap Said.payload? ∧
      ∃ waiting, (Said.heard said).filterMap Said.command? = l.dispatched ++ waiting ∧
        (l.left = true → waiting = [] ∧ .goodbye ∈ said) ∧
        (l.left = false → ∃ i ∈ e.inboxes, i.connection = l.name ∧ waiting = i.commands)) ∧
    (∀ line (intake : Intake), Line.said e.valueCase line = .hello →
      intake.takeLine e.valueCase line = intake) ∧
    (∀ bound count e', e.poll bound = some (count, e') →
      (∃ es, h.GoesOn es e'.history ∧ es.countP Effect.dispatches = count) ∧
      ∀ more, bound ≤ more → e.poll more = some (count, e')) ∧
    (e.Quiet → ∀ bound, (∀ i ∈ e.inboxes, i.commands.length < bound) →
      e.departures.length < bound → ∃ count e', e.poll bound = some (count, e')) := by
  intro e h
  have sound : Sound ⟨[], e⟩ := sound_of_run fresh requests
  refine ⟨sound.alive, ?_, ?_, ?_, fun quiet bound short few => poll_of_quiet quiet short few⟩
  · intro l hl
    cases present : l.left with
    | true =>
      obtain ⟨-, -, frames, commands, parted⟩ := sound.settled l hl present
      refine ⟨frames, [], ?_, fun _ => ⟨rfl, parted⟩, ?_⟩
      · rw [List.append_nil]
        exact commands
      · intro lasts
        cases lasts
    | false =>
      obtain ⟨c, hc, i, hi, -, inbox, agrees⟩ := sound.exists_connection hl present
      obtain ⟨frames, commands, -⟩ := agrees.incoming.heard
      refine ⟨frames, i.commands, commands, ?_, fun _ => ⟨i, hi, inbox, rfl⟩⟩
      intro past
      cases past
  · intro line intake hello
    exact intake.takeLine_of_hello hello
  · intro bound count e' polled
    exact ⟨poll_counts sound polled, fun more le => poll_mono polled le⟩

/-- Of what a peer says on two sessions, only the unfinished line of the first and what follows
the goodbye on the second is never dispatched. -/
theorem inbound_once_of_run_reconnected :
    let e₀ := new fun _ _ _ => true
    let requests := [Request.configure [("peer", .ofHost "host")], .start,
      .receive 0 (Text.bytes "ball?n=1\nti"), .loseSession 0, .send (.ofName "reset"),
      .receive 1 (Text.bytes "tilt\ngoodbye\nball\n"), .poll 9]
    let e := e₀.run requests
    e₀.Fresh ∧ e.history.lives.map (·.dispatched.map (·.name)) = [["ball", "tilt"]] ∧
      ∀ l ∈ e.history.lives, (Said.heard ((e.history.linesRead l.opened).map
        (Line.said e.valueCase))).filterMap Said.command? = l.dispatched := by
  intro e₀ requests e
  have fresh : e₀.Fresh := fresh_new _
  have past : ∀ l ∈ e.history.lives, l.left = true := by decide +kernel
  refine ⟨fresh, by decide +kernel, ?_⟩
  intro l hl
  obtain ⟨-, waiting, commands, settled, -⟩ := (inbound_once_of_run fresh requests).2.1 l hl
  rw [(settled (past l hl)).1, List.append_nil] at commands
  exact commands

end Backbox.Engine
