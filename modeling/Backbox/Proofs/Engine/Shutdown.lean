import Backbox.Proofs.Engine.Attempt
import Backbox.Proofs.Engine.Setup

/-!
# Shutdown is final

When an engine is shut down, every live session gets what waits for it and the goodbye, and every
connection is closed. From then on no connection changes any more: commands that wait are still
dispatched, events that are pending are still completed, and connections whose peers said goodbye
are still removed, but no peer is called and nothing is written, accepted or heard.
-/

namespace Backbox

/-- Whether an entry tells of nothing that is done to a connection or on a session, apart from the
removal of a connection. -/
def Effect.isLocal : Effect → Bool
  | .left _ | .dispatched .. | .host _ => true
  | .configured _ | .dialled _ | .accepted .. | .wrote .. | .closed .. | .read ..
  | .framed .. => false

namespace Engine

open Relation

/-- An engine that was shut down: all its connections are closed. -/
structure Down (e : Engine) : Prop where
  down : e.shutDown = true
  closed : ∀ c ∈ e.registry, c.state = .closed

/-- What happens after shutdown: nothing is done to a connection, except that those whose peers
said goodbye are removed. -/
structure Aftermath (e : Engine) (es : List Effect) (e' : Engine) : Prop where
  on : e.history.GoesOn es e'.history
  local_only : ∀ entry ∈ es, entry.isLocal = true
  registry : ∀ c ∈ e'.registry, c ∈ e.registry
  stays : ∀ c ∈ e.registry, c.departed = false → c ∈ e'.registry

namespace Aftermath

variable {e e' e'' : Engine} {es more : List Effect}

/-- Nothing happens. -/
theorem refl (e : Engine) : e.Aftermath [] e where
  on := .refl _
  local_only _ he := absurd he List.not_mem_nil
  registry _ hc := hc
  stays _ hc _ := hc

/-- One thing happens after another. -/
theorem trans (first : e.Aftermath es e') (second : e'.Aftermath more e'') :
    e.Aftermath (es ++ more) e'' where
  on := first.on.trans second.on
  local_only entry he :=
    (List.mem_append.mp he).elim (first.local_only entry) (second.local_only entry)
  registry c hc := first.registry c (second.registry c hc)
  stays c hc remains := second.stays c (first.stays c hc remains) remains

/-- Whoever is left is still closed. -/
theorem closed (aftermath : e.Aftermath es e') (down : Down e) :
    ∀ c ∈ e'.registry, c.state = .closed :=
  fun c hc => down.closed c (aftermath.registry c hc)

end Aftermath

variable {m m' : Moment} {e e' : Engine} {es : List Effect}

/-- After shutdown no shift does anything to a connection that stays. -/
theorem Shift.aftermath (shift : Shift m es m') (sound : Sound m) (down : Down m.engine) :
    Aftermath m.engine es m'.engine := by
  have on := shift.on
  cases shift with
  | touched touches =>
    cases touches with
    | told _ registry host =>
      refine ⟨on, fun entry he => ?_, fun c hc => registry ▸ hc, fun c hc _ => registry ▸ hc⟩
      obtain ⟨call, rfl⟩ := host entry he
      rfl
    | @changed front back c c' split steps registry =>
      have hc : c ∈ m.engine.registry := split ▸ mem_changed.mpr (.inl rfl)
      obtain ⟨rfl, rfl⟩ := steps.of_closed (sound.lifecycle hc) (down.closed c hc)
      have same : m'.engine.registry = m.engine.registry := registry.trans split.symm
      exact ⟨on, fun _ he => absurd he List.not_mem_nil, fun d hd => same ▸ hd,
        fun d hd _ => same ▸ hd⟩
  | dispatched name command entry _ registry =>
    exact ⟨on, by simp [entry, Effect.isLocal], fun c hc => registry ▸ hc,
      fun c hc _ => registry ▸ hc⟩
  | added name settings running =>
    rw [down.down] at running
    cases running
  | removed mem departed entry _ registry =>
    refine ⟨on, by simp [entry, Effect.isLocal], fun c hc => ((registry c).mp hc).1,
      fun c hc stays => (registry c).mpr ⟨hc, fun same => ?_⟩⟩
    rw [sound.eq_of_name hc mem same, departed] at stays
    cases stays

/-- Two connections never hold the same session. -/
theorem Sound.session_ne {names : List String} (sound : Sound ⟨names, e⟩) {c d : Connection}
    (hc : c ∈ e.registry) (hd : d ∈ e.registry) (differ : d.name ≠ c.name) {s t : Session}
    (live : c.session = some s) (its : d.session = some t) : t.id ≠ s.id := by
  intro same
  obtain ⟨i, -, l, hl, -, named, -, agrees⟩ := sound.exists_agrees hc
  obtain ⟨j, -, k, hk, -, named', -, agrees'⟩ := sound.exists_agrees hd
  have mine := agrees.order.recorded.mem_opened live
  have theirs := agrees'.order.recorded.mem_opened its
  rw [same] at theirs
  rw [sound.orderly.eq_of_session hl hk mine theirs] at named
  exact differ (named'.symm.trans named)

end Engine

end Backbox
