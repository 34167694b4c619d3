import Backbox.Proofs.Engine.Kept

/-!
# What becomes of a connection that can never be reached again

Every move is a shift: it changes one connection by a chain of steps, adds or removes one, or
leaves all of them as they are. A connection that is given up, closed or left by its peer
therefore rests until it is removed, and its name is not dialled before a connection of this
name is added again.
-/

namespace Backbox.Engine

open Relation

/-- What happens when no connection is added or removed and no command is dispatched: a chain
of steps changes one connection, or the host is told something. -/
inductive Touches (e : Engine) (es : List Effect) (e' : Engine) : Prop where
  | told (on : e.history.GoesOn es e'.history) (registry : e'.registry = e.registry)
      (host : ∀ entry ∈ es, ∃ call, entry = .host call)
  | changed {front back : List Connection} {c c' : Connection}
      (split : e.registry = front ++ c :: back) (steps : c.Steps e.history es c' e'.history)
      (registry : e'.registry = front ++ c' :: back)

namespace Touches

variable {names : List String} {e e' : Engine} {es : List Effect}

/-- Nothing happens to the connections, and no entry is added. -/
theorem none (registry : e'.registry = e.registry)
    (sessions : e'.history.sessions = e.history.sessions)
    (journal : e'.history.journal = e.history.journal) : e.Touches [] e' :=
  .told ⟨journal, sessions⟩ registry fun _ he => absurd he List.not_mem_nil

/-- The history goes on by the entries. -/
theorem on (touches : e.Touches es e') : e.history.GoesOn es e'.history := by
  cases touches with
  | told on => exact on
  | changed split steps registry => exact steps.course.on

/-- No connection is added or removed, and no command is dispatched. -/
theorem stay (touches : e.Touches es e') :
    ∀ entry ∈ es, entry.configures = false ∧ entry.removes = false ∧
      entry.dispatches = false := by
  cases touches with
  | told on registry host =>
    intro entry he
    obtain ⟨call, rfl⟩ := host entry he
    exact ⟨rfl, rfl, rfl⟩
  | changed split steps registry => exact steps.course.stay

end Touches

/-- No act shuts an engine down. -/
theorem Act.shutDown {e e' : Engine} (act : e.Act e') : e'.shutDown = e.shutDown := by
  cases act with
  | receive session bytes =>
    unfold Engine.receive
    split <;> rfl
  | send | tell | setPending => rfl

/-- An act changes one connection at most. -/
theorem Act.touches {names : List String} {e e' : Engine} (act : e.Act e')
    (sound : Sound ⟨names, e⟩) : ∃ es, e.Touches es e' := by
  cases act with
  | send message split =>
    obtain ⟨es, steps, -⟩ := Connection.send_leads _ message e.history
    exact ⟨es, .changed split steps rfl⟩
  | receive session bytes =>
    rcases sound.receive_eq session bytes with
      lost | ⟨front, back, c, es, split, -, steps, -, -, heard⟩
    · exact ⟨[], .none (by rw [lost]) (by rw [lost]) (by rw [lost])⟩
    · rw [heard]
      exact ⟨es, .changed split steps rfl⟩
  | tell call =>
    refine ⟨[.host call], .told (.record _ rfl) rfl fun entry he => ⟨call, ?_⟩⟩
    exact List.mem_singleton.mp he
  | setPending pending => exact ⟨[], .none rfl rfl rfl⟩

/-- What a move does to the connections and to the journal. -/
inductive Shift (m : Moment) (es : List Effect) (m' : Moment) : Prop where
  | touched (touches : m.engine.Touches es m'.engine)
  | dispatched (name : String) (command : Command) (entry : es = [.dispatched name command])
      (on : m.engine.history.GoesOn es m'.engine.history)
      (registry : m'.engine.registry = m.engine.registry)
  | added (name : String) (settings : ConnectionSettings) (running : m.engine.shutDown = false)
      (new : ∀ c ∈ m.engine.registry, c.name ≠ name) (entry : es = [.configured name])
      (on : m.engine.history.GoesOn es m'.engine.history)
      (registry : m'.engine.registry =
        m.engine.registry ++ [.new name settings m.engine.connector])
  /-- A connection whose peer said goodbye is removed. -/
  | removed {d : Connection} (mem : d ∈ m.engine.registry) (departed : d.departed = true)
      (entry : es = [.left d.name]) (on : m.engine.history.GoesOn es m'.engine.history)
      (registry : ∀ c, c ∈ m'.engine.registry ↔ c ∈ m.engine.registry ∧ c.name ≠ d.name)

/-- The history goes on by the entries. -/
theorem Shift.on {m m' : Moment} {es : List Effect} (shift : Shift m es m') :
    m.engine.history.GoesOn es m'.engine.history := by
  cases shift with
  | touched touches => exact touches.on
  | dispatched _ _ _ on | added _ _ _ _ _ on | removed _ _ _ on => exact on

/-- No move revives an engine that was shut down. -/
theorem Move.down {m m' : Moment} (move : Move m m') (down : m.engine.shutDown = true) :
    m'.engine.shutDown = true := by
  cases move with
  | act act => exact act.shutDown.trans down
  | lose session =>
    rw [loseSession]
    split <;> exact down
  | dispatch name command taken =>
    obtain ⟨-, rfl⟩ := takeCommand_eq taken
    exact down
  | setShutDown => rfl
  | connect | close | wait | setHandlers | setStarted | configure | depart | remove => exact down

/-- Every move is one of these shifts. -/
theorem Move.shift {m m' : Moment} (move : Move m m') (sound : Sound m) :
    ∃ es, Shift m es m' := by
  cases move with
  | act act =>
    obtain ⟨es, touches⟩ := act.touches sound
    exact ⟨es, .touched touches⟩
  | connect split =>
    obtain ⟨es, steps, -⟩ := Connection.connect_leads _ _
    exact ⟨es, .touched (.changed split steps rfl)⟩
  | @close names e front back c split down =>
    have hc : c ∈ e.registry := split ▸ List.mem_append_right _ List.mem_cons_self
    have steps := Connection.close_steps (sound.lifecycle hc) e.history
    exact ⟨_, .touched (.changed split steps rfl)⟩
  | @lose names e session =>
    rcases sound.loseSession_eq session with
      past | ⟨front, back, c, es, split, steps, -, -, -, lost⟩
    · rw [past]
      exact ⟨[], .touched (.none rfl rfl rfl)⟩
    · rw [lost]
      exact ⟨es, .touched (.changed split steps rfl)⟩
  | wait | setHandlers | setStarted | setShutDown | depart =>
    exact ⟨[], .touched (.none rfl rfl rfl)⟩
  | @configure names e name settings running new =>
    rw [sound.inboxes] at new
    exact ⟨_, .added name settings running
      (fun c hc same => new (List.mem_map.mpr ⟨c, hc, same⟩)) rfl (.record _ rfl) rfl⟩
  | @dispatch names e e' name command taken =>
    obtain ⟨-, rfl⟩ := takeCommand_eq taken
    exact ⟨_, .dispatched name command rfl (.record _ rfl) rfl⟩
  | @remove names e name drained =>
    obtain ⟨registry, -⟩ := sound.mem_remove name
    obtain ⟨d, hd, rfl, departed⟩ := sound.departed name List.mem_cons_self
    exact ⟨_, .removed hd departed rfl (.record _ rfl) registry⟩

/-- Whatever moves are made, the history goes on. -/
theorem goesOn_of_moves {m m' : Moment} (moves : ReflTransGen Move m m') (sound : Sound m) :
    ∃ es, m.engine.history.GoesOn es m'.engine.history := by
  induction moves with
  | refl => exact ⟨[], .refl _⟩
  | tail moves move ih =>
    obtain ⟨es, on⟩ := ih
    obtain ⟨more, shift⟩ := move.shift (sound_of_moves moves sound)
    exact ⟨es ++ more, on.trans shift.on⟩

/-- What a move does to connections that can never be reached again, and to names that no
connection has. -/
structure Turn (m : Moment) (es : List Effect) (m' : Moment) : Prop where
  on : m.engine.history.GoesOn es m'.engine.history
  down : m.engine.shutDown = true → m'.engine.shutDown = true
  /-- A connection that can never be reached again rests, or is removed after its peer said
  goodbye. -/
  present : ∀ c ∈ m.engine.registry, c.isAvailable = false → (∀ entry ∈ es, entry.Spares c.name) ∧
    ((∃ c' ∈ m'.engine.registry, c'.name = c.name ∧ c.Rests c') ∨
      c.departed = true ∧ ∀ d ∈ m'.engine.registry, d.name ≠ c.name)
  /-- A name that no connection has is not used, or a connection of this name is added. -/
  absent : ∀ name, (∀ c ∈ m.engine.registry, c.name ≠ name) →
    (∀ entry ∈ es, entry.Spares name) ∧ (∀ c ∈ m'.engine.registry, c.name ≠ name) ∨
      m.engine.shutDown = false ∧ es = [.configured name]

/-- While the connections stay as they are, and no entry adds or dials one, all rest. -/
theorem Turn.still {m m' : Moment} {es : List Effect}
    (on : m.engine.history.GoesOn es m'.engine.history)
    (down : m.engine.shutDown = true → m'.engine.shutDown = true)
    (registry : m'.engine.registry = m.engine.registry)
    (spared : ∀ name, ∀ entry ∈ es, entry.Spares name) : Turn m es m' where
  on := on
  down := down
  present c hc past := ⟨spared c.name, .inl ⟨c, registry ▸ hc, rfl, past, rfl, .inl rfl⟩⟩
  absent name absent := .inl ⟨spared name, registry ▸ absent⟩

/-- Nothing that is done to one connection revives it, or concerns other names. -/
theorem Touches.turn {names names' : List String} {e e' : Engine} {es : List Effect}
    (touches : e.Touches es e') (sound : Sound ⟨names, e⟩)
    (down : e.shutDown = true → e'.shutDown = true) : Turn ⟨names, e⟩ es ⟨names', e'⟩ := by
  have on := touches.on
  have stay := touches.stay
  cases touches with
  | told _ registry host =>
    refine .still on down registry fun name entry he named => ?_
    obtain ⟨call, rfl⟩ := host entry he
    cases named
  | @changed front back d d' split steps registry =>
    have hd : d ∈ e.registry := split ▸ List.mem_append_right _ List.mem_cons_self
    have course := steps.course
    have foreign {name : String} (differ : d.name ≠ name) : ∀ entry ∈ es, entry.Spares name :=
      fun entry he named => absurd (course.named entry he name named).symm differ
    have members : ∀ c, c ∈ e'.registry ↔ c = d' ∨ c ∈ front ++ back := fun c => by
      rw [registry]
      exact mem_changed
    refine ⟨on, down, ?_, fun name absent => .inl ⟨?_, fun c hc => ?_⟩⟩
    · intro c hc past
      by_cases own : c = d
      · obtain ⟨rests, quiet⟩ := steps.rests (sound.lifecycle hd) (own ▸ past)
        refine ⟨fun entry he _ => ⟨(stay entry he).1, quiet entry he⟩, .inl ⟨d', ?_, ?_, ?_⟩⟩
        · exact (members d').mpr (.inl rfl)
        · rw [own, course.name_eq]
        · exact own ▸ rests
      · have differ : d.name ≠ c.name := fun same => own (sound.eq_of_name hc hd same.symm)
        refine ⟨foreign differ, .inl ⟨c, (members c).mpr (.inr ?_), rfl, past, rfl, .inl rfl⟩⟩
        exact (mem_changed.mp (split ▸ hc)).resolve_left own
    · exact foreign (absent d hd)
    · rcases (members c).mp hc with rfl | hc
      · rw [course.name_eq]
        exact absent d hd
      · exact absent c (split ▸ mem_changed.mpr (.inr hc))

/-- Every move does to the connections what a turn may do. -/
theorem Move.turn {m m' : Moment} (move : Move m m') (sound : Sound m) :
    ∃ es, Turn m es m' := by
  obtain ⟨es, shift⟩ := move.shift sound
  refine ⟨es, ?_⟩
  cases shift with
  | touched touches => exact touches.turn sound move.down
  | dispatched name command entry on registry =>
    refine .still on move.down registry fun n e he _ => ?_
    rw [entry] at he
    rw [List.mem_singleton.mp he]
    exact ⟨rfl, rfl, rfl⟩
  | added name settings running new entry on registry =>
    subst entry
    have foreign {n : String} (other : n ≠ name) : ∀ e ∈ [Effect.configured name], e.Spares n := by
      intro e he named
      rw [List.mem_singleton.mp he] at named
      exact absurd (Option.some.inj named).symm other
    refine ⟨on, move.down, fun c hc past => ⟨foreign (new c hc), .inl ⟨c, ?_, rfl, past, rfl,
      .inl rfl⟩⟩, fun n absent => ?_⟩
    · rw [registry]
      exact List.mem_append_left _ hc
    · by_cases own : n = name
      · exact .inr ⟨running, by rw [own]⟩
      · refine .inl ⟨foreign own, fun c hc => ?_⟩
        rcases List.mem_append.mp (registry ▸ hc) with hc | hc
        · exact absent c hc
        · rw [List.mem_singleton.mp hc]
          exact Ne.symm own
  | @removed d hd departed entry on registry =>
    have spared (n : String) : ∀ e ∈ es, e.Spares n := by
      intro e he _
      rw [entry] at he
      rw [List.mem_singleton.mp he]
      exact ⟨rfl, rfl, rfl⟩
    refine ⟨on, move.down, fun c hc past => ⟨spared _, ?_⟩,
      fun n absent => .inl ⟨spared n, fun c hc => absent c ((registry c).mp hc).1⟩⟩
    by_cases own : c.name = d.name
    · obtain rfl := sound.eq_of_name hc hd own
      exact .inr ⟨departed, fun k hk => ((registry k).mp hk).2⟩
    · exact .inl ⟨c, (registry c).mpr ⟨hc, own⟩, rfl, past, rfl, .inl rfl⟩

end Backbox.Engine
