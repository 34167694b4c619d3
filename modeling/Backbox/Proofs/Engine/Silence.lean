import Backbox.Proofs.Engine.Attempt
import Backbox.Proofs.Engine.Kept

/-!
# When nothing is said

Connections accept messages when the host speaks through the engine, and while the engine acts on
what its peers said. Otherwise none accepts any: not when connections are added, tried or closed,
not when bytes arrive, and not when a session ends. Nothing is left for the host to complete then
that was not there before.
-/

namespace Backbox

/-- The requests by which the host speaks to the peers. -/
def Request.speaks : Request → Bool
  | .send _ | .sendMapped .. | .changePlayerVariable .. => true
  | .configure _ | .start | .poll _ | .register .. | .complete _ | .receive .. | .loseSession _
    | .wait _ | .shutdown => false

/-- The requests by which the host lets an engine act on what its peers said. -/
def Request.answers : Request → Bool
  | .poll _ | .complete _ => true
  | .configure _ | .start | .send _ | .sendMapped .. | .changePlayerVariable .. | .register ..
    | .receive .. | .loseSession _ | .wait _ | .shutdown => false

/-- The history goes on, and meanwhile no connection accepts a message. -/
def History.Silent (h h' : History) : Prop :=
  ∃ es, h.GoesOn es h' ∧ es.filterMap Effect.accepted? = []

namespace History.Silent

variable {h h' h'' : History} {es : List Effect}

/-- Nothing happens. -/
theorem refl (h : History) : h.Silent h := ⟨[], .refl h, rfl⟩

/-- One thing happens after another. -/
theorem trans (first : h.Silent h') (second : h'.Silent h'') : h.Silent h'' := by
  obtain ⟨es, on, none⟩ := first
  obtain ⟨more, on', none'⟩ := second
  exact ⟨es ++ more, on.trans on', by rw [List.filterMap_append, none, none', List.append_nil]⟩

/-- No entry tells of a message that was accepted. -/
theorem of_accepts (on : h.GoesOn es h') (none : es.filter Effect.accepts = []) : h.Silent h' :=
  ⟨es, on, by rw [Effect.filterMap_accepted?, none, List.filterMap_nil]⟩

/-- Entries that name no connection tell of no message that one accepted. -/
theorem of_unnamed (on : h.GoesOn es h') (unnamed : ∀ e ∈ es, e.connection? = none) :
    h.Silent h' := by
  refine ⟨es, on, List.filterMap_eq_nil_iff.mpr fun e mem => ?_⟩
  cases e with
  | accepted => cases unnamed _ mem
  | _ => rfl

end History.Silent

namespace Connection

open History

/-- Connecting, a connection accepts no message. -/
theorem silent_connect (c : Connection) (h : History) : h.Silent (c.connect h).2 := by
  obtain ⟨tried, on, none, -⟩ := (c.attempted h).entries
  obtain ⟨-, written, on', -, none'⟩ := flush_entries (c.attempt h).1 (c.attempt h).2
  exact (Silent.of_accepts on none).trans (.of_accepts on' none')

private theorem silent_endSession (c : Connection) (cause : SessionEnd) (h : History) :
    h.Silent (c.endSession cause h).2 := by
  rcases Option.eq_none_or_eq_some c.session with idle | ⟨s, live⟩
  · have same : c.endSession cause h = (c, h) := by rw [endSession, idle]
    rw [same]
    exact .refl h
  · have closed (h : History) : h.Silent (h.record (.closed s.id cause)) := ⟨_, .record h rfl, rfl⟩
    by_cases owes : c.owesGoodbye = true
    · have ended : (c.endSession cause h).2 =
          (h.recordAll ((c.queue.messages ++ [Command.goodbye.toWire]).map (.wrote s.id))).record
            (.closed s.id cause) := by
        simp [endSession, live, owes, write, OutboundQueue.takeAll, OutboundQueue.pushBack]
      rw [ended]
      refine .trans (.of_unnamed (.recordAll h fun e mem => ?_) fun e mem => ?_) (closed _)
      all_goals
        obtain ⟨line, -, rfl⟩ := List.mem_map.mp mem
        rfl
    · have ended : (c.endSession cause h).2 = h.record (.closed s.id cause) := by
        simp [endSession, live, owes]
      rw [ended]
      exact closed h

/-- Closing, a connection accepts no message. -/
theorem silent_close (c : Connection) (h : History) : h.Silent (c.close h).2 :=
  silent_endSession _ .shutdown h

/-- Losing its session, a connection accepts no message. -/
theorem silent_loseSession (c : Connection) (cause : SessionEnd) (h : History) :
    h.Silent (c.loseSession cause h).2 :=
  silent_endSession _ cause h

end Connection

namespace Engine

open History

variable {names : List String} {e e' : Engine}

/-- When no connection accepts a message in its turn, none does. -/
theorem silent_overConnections {act : Connection → History → Connection × History}
    (each : ∀ (c : Connection) (h : History), h.Silent (act c h).2) (cs : List Connection) (h : History) :
    h.Silent (overConnections act cs h).2 := by
  induction cs generalizing h with
  | nil => exact .refl h
  | cons c rest ih => exact (each c h).trans (ih _)

private theorem silent_configure {batch : List (String × ConnectionSettings)}
    (configured : e.configure batch = .ok e') : e.history.Silent e'.history := by
  obtain ⟨-, -, rfl⟩ := configure_eq configured
  refine ⟨_, .recordAll _ fun entry mem => ?_, ?_⟩
  · obtain ⟨_, -, rfl⟩ := List.mem_map.mp mem
    rfl
  · rw [List.filterMap_map]
    exact List.filterMap_eq_nil_iff.mpr fun _ _ => rfl

private theorem silent_receive (sound : Sound ⟨names, e⟩) (session : Nat) (bytes : Bytes) :
    e.history.Silent (e.receive session bytes).history := by
  rcases sound.receive_eq session bytes with
    lost | ⟨front, back, c, es, split, -, steps, unnamed, -, heard⟩
  · rw [lost]
    exact .refl _
  · rw [heard]
    exact .of_unnamed steps.course.on unnamed

private theorem silent_orRefuse {result : Except EngineFault Engine}
    (silent : ∀ e', result = .ok e' → e.history.Silent e'.history) :
    e.history.Silent (e.orRefuse result).2.history := by
  cases result with
  | ok e' => exact silent e' rfl
  | error fault => exact .refl _

/-- Unless the host speaks or lets the engine act on what peers said, nothing is said. -/
theorem silent_handle (sound : Sound ⟨names, e⟩) {request : Request}
    (mute : request.speaks = false) (other : request.answers = false) :
    e.history.Silent (e.handle request).2.history := by
  cases request with
  | configure batch => exact silent_orRefuse fun _ => silent_configure
  | start =>
    refine silent_orRefuse fun e' started => ?_
    obtain rfl := start_eq started
    exact silent_overConnections Connection.silent_connect _ _
  | register name handler =>
    rw [handle]
    refine silent_orRefuse fun e' registered => ?_
    obtain rfl := register_eq registered
    exact .refl _
  | receive session bytes => exact silent_receive sound session bytes
  | loseSession session =>
    rw [handle, loseSession]
    split
    · exact .refl _
    · exact Connection.silent_loseSession _ .lost _
  | wait milliseconds => exact ⟨[], ⟨rfl, rfl⟩, rfl⟩
  | shutdown =>
    rw [handle, shutdown]
    split
    · exact .refl _
    · exact silent_overConnections Connection.silent_close _ _
  | send | sendMapped | changePlayerVariable => cases mute
  | poll | complete => cases other

/-- Only while it acts on what its peers said does an engine change what the host has to
complete. -/
theorem pending_handle (e : Engine) {request : Request} (other : request.answers = false) :
    (e.handle request).2.pending = e.pending := by
  cases request with
  | configure batch =>
    rw [handle]
    cases configured : e.configure batch with
    | error fault => rfl
    | ok e' =>
      obtain ⟨-, -, rfl⟩ := configure_eq configured
      rfl
  | start =>
    rw [handle]
    cases started : e.start with
    | error fault => rfl
    | ok e' =>
      obtain rfl := start_eq started
      rfl
  | register name handler =>
    rw [handle]
    cases registered : e.register name handler with
    | error fault => rfl
    | ok e' =>
      obtain rfl := register_eq registered
      rfl
  | sendMapped event fields player =>
    change (e.sendMapped event fields player).2.pending = _
    unfold sendMapped
    split <;> rfl
  | changePlayerVariable name value prevValue change =>
    change (e.changePlayerVariable name value prevValue change).2.pending = _
    unfold changePlayerVariable
    split <;> rfl
  | receive session bytes =>
    rw [handle, Engine.receive]
    split <;> rfl
  | loseSession session =>
    rw [handle, Engine.loseSession]
    split <;> rfl
  | shutdown =>
    rw [handle, Engine.shutdown]
    split <;> rfl
  | send | wait => rfl
  | poll | complete => cases other

end Engine

end Backbox
