import Backbox.Proofs.Engine.Run
import Backbox.Proofs.Engine.Turn

/-!
# The lifecycle of every connection

In every run the fields of every connection hang together, and what is over stays over. A
connection that is closed stays closed, one that is given up is only ever closed, and a name
whose connection can never be reached again is not dialled until it is added again.
-/

namespace Backbox.Engine

open Relation

/-- What has become of a connection that could never be reached again, given the entries
since. -/
inductive Fate (c : Connection) (es : List Effect) (m : Moment) : Prop where
  /-- It rests in its place. -/
  | rests {c' : Connection} (mem : c' ∈ m.engine.registry) (name : c'.name = c.name)
      (rests : c.Rests c') (spared : ∀ entry ∈ es, entry.Spares c.name)
  /-- It was removed. -/
  | removed (departed : c.departed = true) (absent : ∀ d ∈ m.engine.registry, d.name ≠ c.name)
      (spared : ∀ entry ∈ es, entry.Spares c.name)
  /-- It was removed, and one of its name was added. -/
  | renewed {before after : List Effect} (departed : c.departed = true)
      (running : c.state ≠ .closed) (split : es = before ++ .configured c.name :: after)
      (spared : ∀ entry ∈ before, entry.Spares c.name)

/-- Every connection that can never be reached again meets one of these fates. -/
theorem fates_of_moves {m m' : Moment} (moves : ReflTransGen Move m m') (sound : Sound m) :
    ∃ es, m.engine.history.GoesOn es m'.engine.history ∧
      (m.engine.shutDown = true → m'.engine.shutDown = true) ∧
      ∀ c ∈ m.engine.registry, c.isAvailable = false → Fate c es m' := by
  induction moves with
  | refl =>
    exact ⟨[], .refl _, id, fun c hc past =>
      .rests hc rfl ⟨past, rfl, .inl rfl⟩ fun _ he => absurd he List.not_mem_nil⟩
  | tail moves move ih =>
    obtain ⟨es, on, down, fates⟩ := ih
    obtain ⟨more, turn⟩ := move.turn (sound_of_moves moves sound)
    have spares {name : String} (first : ∀ entry ∈ es, entry.Spares name)
        (second : ∀ entry ∈ more, entry.Spares name) : ∀ entry ∈ es ++ more, entry.Spares name :=
      fun entry he => (List.mem_append.mp he).elim (first entry) (second entry)
    refine ⟨es ++ more, on.trans turn.on, turn.down ∘ down, ?_⟩
    intro c hc past
    cases fates c hc past with
    | rests mem name rests spared =>
      obtain ⟨quiet, still | ⟨departed, absent⟩⟩ := turn.present _ mem rests.past
      · obtain ⟨d, hd, same, further⟩ := still
        exact .rests hd (same.trans name) (rests.trans further) (spares spared (name ▸ quiet))
      · exact .removed (rests.departed ▸ departed) (name ▸ absent) (spares spared (name ▸ quiet))
    | removed departed absent spared =>
      rcases turn.absent c.name absent with ⟨quiet, absent⟩ | ⟨running, rfl⟩
      · exact .removed departed absent (spares spared quiet)
      · refine .renewed departed (fun closed => ?_) rfl spared
        rw [down (sound.closed c hc closed)] at running
        cases running
    | renewed departed running split spared =>
      exact .renewed departed running (by rw [split, List.append_assoc]; rfl) spared

/-- A name whose connection can never be reached again is dialled only after it was added
again. -/
theorem Fate.configured_mem {c : Connection} {es before after : List Effect} {m : Moment}
    {dial : Dial} (fate : Fate c es m) (split : es = before ++ .dialled dial :: after)
    (own : dial.connection = c.name) : .configured c.name ∈ before := by
  have unspared : ¬ (Effect.dialled dial).Spares c.name := by
    intro spares
    have quiet := (spares (congrArg some own)).2.1
    cases quiet
  have mem : .dialled dial ∈ es := split ▸ List.mem_append_right _ List.mem_cons_self
  cases fate with
  | rests _ _ _ spared => exact absurd (spared _ mem) unspared
  | removed _ _ spared => exact absurd (spared _ mem) unspared
  | renewed _ _ split' spared =>
    rw [split] at split'
    rcases List.append_eq_append_iff.mp split' with ⟨k, rfl, rest⟩ | ⟨k, rfl, rest⟩
    · cases k with
      | nil => cases rest
      | cons first k =>
        obtain ⟨rfl, -⟩ := List.cons.inj rest
        exact absurd (spared _ (List.mem_append_right _ List.mem_cons_self)) unspared
    · cases k with
      | nil => cases rest
      | cons first k =>
        obtain ⟨rfl, -⟩ := List.cons.inj rest
        exact List.mem_append_right _ List.mem_cons_self

/-- In every run, every connection is as its state says, and goes on as its state allows: what
is closed stays closed, what is given up is only ever closed, and where the peer said goodbye,
or the state is final, the name is dialled again only for a connection that is added later. -/
theorem lifecycle_of_run {e₀ : Engine} (fresh : e₀.Fresh) (requests more : List Request) :
    (∀ c ∈ (e₀.run requests).registry, c.Lifecycle) ∧
    ∃ es, (e₀.run requests).history.GoesOn es (e₀.run (requests ++ more)).history ∧
      ∀ c ∈ (e₀.run requests).registry,
        (c.state = .closed → ∀ c' ∈ (e₀.run (requests ++ more)).registry, c'.name = c.name →
          c'.state = .closed) ∧
        (c.state = .givingUp → ∃ c' ∈ (e₀.run (requests ++ more)).registry, c'.name = c.name ∧
          (c'.state = .givingUp ∨ c'.state = .closed)) ∧
        (c.departed = true ∨ c.state.isTerminal = true → ∀ before dial after,
          es = before ++ .dialled dial :: after → dial.connection = c.name →
            .configured c.name ∈ before) := by
  have sound := sound_of_run fresh requests
  have lifecycle : ∀ c ∈ (e₀.run requests).registry, c.Lifecycle := by
    intro c hc
    obtain ⟨i, hi, l, hl, -, -, -, agrees⟩ := sound.exists_agrees hc
    exact agrees.order.lifecycle
  rw [run_append]
  have moves := run_moves (e₀.run requests) more
  have sound' := sound_of_moves moves sound
  obtain ⟨es, on, -, fates⟩ := fates_of_moves moves sound
  refine ⟨lifecycle, es, on, fun c hc =>
    ⟨fun closed d hd same => ?_, fun up => ?_, fun past => ?_⟩⟩
  · cases fates c hc (Connection.isAvailable_of_closed closed) with
    | rests mem name rests =>
      obtain rfl := sound'.eq_of_name hd mem (same.trans name.symm)
      exact rests.state.elim (·.trans closed) id
    | removed _ absent => exact absurd same (absent d hd)
    | renewed _ running => exact absurd closed running
  · have stays : c.departed = false := ((lifecycle c hc).gaveUp up).2.2.2
    have past : c.isAvailable = false := by
      simp [Connection.isAvailable, up, ConnectionState.isTerminal]
    cases fates c hc past with
    | rests mem name rests => exact ⟨_, mem, name, rests.state.imp_left (·.trans up)⟩
    | removed departed | renewed departed => exact absurd (stays ▸ departed) Bool.false_ne_true
  · have away : c.isAvailable = false := by
      rcases past with gone | final
      · simp [Connection.isAvailable, gone]
      · simp [Connection.isAvailable, final]
    exact fun before dial after split own => (fates c hc away).configured_mem split own

/-- A peer that is never reached is given up after its only attempt, and then stays given up
or is closed when the engine is shut down. -/
theorem lifecycle_of_run_unreached :
    let e₀ := new fun _ _ _ => false
    let settings := { ConnectionSettings.ofHost "host" with attempts := .bounded 1 }
    let requests := [Request.configure [("peer", settings)], .start]
    e₀.Fresh ∧ (e₀.run requests).registry.map (·.state) = [.givingUp] ∧
      ∃ c ∈ (e₀.run (requests ++ [.shutdown])).registry,
        c.name = "peer" ∧ (c.state = .givingUp ∨ c.state = .closed) := by
  intro e₀ settings requests
  have states : (e₀.run requests).registry.map (fun c => (c.name, c.state)) =
      [("peer", .givingUp)] := by decide +kernel
  have fresh := fresh_new fun _ _ _ => false
  obtain ⟨-, es, -, after⟩ := lifecycle_of_run fresh requests [.shutdown]
  obtain ⟨c, hc, its⟩ := List.mem_map.mp (states ▸ List.mem_cons_self)
  obtain ⟨name, up⟩ := Prod.mk.inj its
  refine ⟨fresh, by decide +kernel, ?_⟩
  exact name ▸ (after c hc).2.1 up

end Backbox.Engine
