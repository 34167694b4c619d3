import Backbox.Proofs.Engine.Lifecycle
import Backbox.Proofs.Engine.Poll

/-!
# The registry, the inboxes and the departures

An engine keeps its connections, their inboxes and the departures that are still to be carried
out in three lists, which are matched by name only. They agree in every run: a departure is noted
exactly for every connection whose peer said goodbye, and a poll carries all of them out. A name
that is used again belongs to a new connection, which the departure of an earlier one never
removes.
-/

namespace Backbox.Engine

open Relation

/-- What the journal and the departures say of the connections, given those that are about to be
removed. -/
structure Listed (m : Moment) : Prop where
  /-- The connections stand in the order in which they were added. -/
  order : m.engine.registry.map (·.name) = m.engine.history.present
  /-- Every departure is noted. -/
  noted : ∀ c ∈ m.engine.registry, c.departed = true → c.name ∈ m.leaving ++ m.engine.departures

variable {names : List String} {e e' : Engine} {m m' : Moment}

namespace Listed

/-- Nothing changes that concerns the registry. -/
theorem congr (listed : Listed ⟨names, e⟩) (registry : e'.registry = e.registry)
    (departures : e'.departures = e.departures)
    (present : e'.history.present = e.history.present) : Listed ⟨names, e'⟩ where
  order := by rw [registry, present]; exact listed.order
  noted := by rw [registry, departures]; exact listed.noted

/-- A chain of steps changes one connection in its place, and its departure is noted. -/
theorem steps (listed : Listed ⟨names, e⟩) {front back : List Connection} {c c' : Connection}
    {h' : History} {es : List Effect} (split : e.registry = front ++ c :: back)
    (steps : c.Steps e.history es c' h') (registry : e'.registry = front ++ c' :: back)
    (history : e'.history = h') (kept : ∀ name ∈ e.departures, name ∈ e'.departures)
    (departs : c'.departed = true → c.departed = true ∨ c.name ∈ e'.departures) :
    Listed ⟨names, e'⟩ := by
  have course := steps.course
  have still : ∀ name, name ∈ names ++ e.departures → name ∈ names ++ e'.departures := fun name =>
    fun mem => List.mem_append.mpr ((List.mem_append.mp mem).imp id (kept name))
  constructor
  · have same := History.present_of_goesOn course.on fun entry he =>
      ⟨(course.stay entry he).1, (course.stay entry he).2.1⟩
    rw [history, same, ← listed.order]
    change e'.registry.map _ = e.registry.map _
    rw [registry, split, List.map_append, List.map_append, List.map_cons, List.map_cons,
      course.name_eq]
  · intro d hd gone
    rcases mem_changed.mp (registry ▸ hd) with rfl | hd
    · rw [course.name_eq]
      rcases departs gone with before | now
      · exact still _ (listed.noted c (split ▸ mem_changed.mpr (.inl rfl)) before)
      · exact List.mem_append_right _ now
    · exact still _ (listed.noted d (split ▸ mem_changed.mpr (.inr hd)) gone)

/-- Something is done to one connection in which nothing is heard from its peer. -/
theorem link (listed : Listed ⟨names, e⟩) {front back : List Connection} {c : Connection}
    {link : Connection × History} {es : List Effect} (split : e.registry = front ++ c :: back)
    (steps : c.Steps e.history es link.1 link.2) (silent : ∀ entry ∈ es, entry.hears = false) :
    Listed ⟨names, e.withLink front link back⟩ :=
  listed.steps split steps rfl rfl (fun _ => id) fun gone =>
    .inl (steps.departed_eq silent ▸ gone)

/-- Bytes arrive on a session. -/
theorem receive (listed : Listed ⟨names, e⟩) (sound : Sound ⟨names, e⟩) (session : Nat)
    (bytes : Bytes) : Listed ⟨names, e.receive session bytes⟩ := by
  rcases sound.receive_eq session bytes with
    lost | ⟨front, back, c, es, split, stays, steps, -, -, heard⟩
  · rw [lost]
    exact listed
  · have hc : c ∈ e.registry := split ▸ mem_changed.mpr (.inl rfl)
    obtain ⟨i, hi, l, hl, -, -, -, own⟩ := sound.exists_agrees hc
    have between := (Connection.receive_between own.order own.incoming stays bytes).2
    rw [heard]
    refine listed.steps split steps rfl rfl (fun name mem => ?_) fun gone => .inr ?_
    · change name ∈ if _ then _ else _
      split
      · exact List.mem_append_left _ mem
      · exact mem
    · change c.name ∈ if _ then _ else _
      rw [between.departed_eq, if_pos gone]
      exact List.mem_append_right _ (List.mem_singleton_self _)

/-- A connection is added. -/
theorem configure (listed : Listed ⟨names, e⟩) (name : String) (settings : ConnectionSettings) :
    Listed ⟨names, e.withNew name settings⟩ := by
  constructor
  · change (e.registry ++ [_]).map _ = (e.history.record (.configured name)).present
    rw [History.present_configured, List.map_append]
    exact congrArg (· ++ [name]) listed.order
  · intro c hc gone
    rcases List.mem_append.mp hc with hc | hc
    · exact listed.noted c hc gone
    · rw [List.mem_singleton.mp hc] at gone
      cases gone

/-- A connection is removed. -/
theorem remove {name : String} (listed : Listed ⟨name :: names, e⟩)
    (sound : Sound ⟨name :: names, e⟩) : Listed ⟨names, e.remove name⟩ := by
  obtain ⟨registry, -⟩ := sound.mem_remove name
  constructor
  · have taken : (e.registry.eraseP (·.name = name)).map (·.name) =
        (e.registry.map (·.name)).erase name := by
      rw [List.erase_eq_eraseP', List.eraseP_map]
      rfl
    change (e.registry.eraseP (·.name = name)).map (·.name) =
      (e.history.record (.left name)).present
    rw [History.present_left, taken, sound.names.erase_eq_filter]
    change List.filter _ (e.registry.map (·.name)) = _
    rw [listed.order]
    exact List.filter_congr fun n _ => by simp [bne, beq_eq_decide]
  · intro c hc gone
    obtain ⟨mem, other⟩ := (registry c).mp hc
    exact (List.mem_cons.mp (listed.noted c mem gone)).resolve_left other

end Listed

/-- An act keeps the lists of an engine in agreement. -/
theorem Act.listed (act : e.Act e') (sound : Sound ⟨names, e⟩) (listed : Listed ⟨names, e⟩) :
    Listed ⟨names, e'⟩ := by
  cases act with
  | send message split =>
    obtain ⟨es, steps, silent, -⟩ := Connection.send_leads _ message e.history
    exact listed.link split steps silent
  | receive session bytes => exact listed.receive sound session bytes
  | tell call =>
    exact listed.congr rfl rfl (History.present_of_goesOn (.record _ rfl) (by
      simp [Effect.configures, Effect.removes]))
  | setPending pending => exact listed.congr rfl rfl rfl

/-- Every move keeps the lists of an engine in agreement. -/
theorem Move.listed (move : Move m m') (sound : Sound m) (listed : Listed m) : Listed m' := by
  cases move with
  | act act => exact act.listed sound listed
  | connect split =>
    obtain ⟨es, steps, silent, -⟩ := Connection.connect_leads _ _
    exact listed.link split steps silent
  | @close names e front back c split down =>
    have hc : c ∈ e.registry := split ▸ mem_changed.mpr (.inl rfl)
    exact listed.link split (Connection.close_steps (sound.lifecycle hc) e.history)
      (Connection.hears_farewells c)
  | lose session =>
    rcases sound.loseSession_eq session with
      past | ⟨front, back, c, es, split, steps, silent, -, -, lost⟩
    · rw [past]
      exact listed
    · rw [lost]
      exact listed.link split steps silent
  | wait | setHandlers | setStarted | setShutDown => exact listed.congr rfl rfl rfl
  | configure name settings running new => exact listed.configure name settings
  | dispatch name command taken =>
    obtain ⟨-, rfl⟩ := takeCommand_eq taken
    exact listed.congr rfl rfl (History.present_of_goesOn (.record _ rfl) (by
      simp [Effect.configures, Effect.removes]))
  | depart name departures =>
    refine ⟨listed.order, fun c hc gone => ?_⟩
    have mem := listed.noted c hc gone
    rw [departures] at mem
    exact List.perm_middle.mem_iff.mp mem
  | remove name drained => exact listed.remove sound

/-- Every chain of moves keeps the lists of an engine in agreement. -/
theorem listed_of_moves (moves : ReflTransGen Move m m') (sound : Sound m) (listed : Listed m) :
    Listed m' := by
  induction moves with
  | refl => exact listed
  | tail moves move ih => exact move.listed (sound_of_moves moves sound) ih

/-- The lists of an engine agree before anything happened. -/
theorem listed_of_fresh (fresh : e.Fresh) : Listed ⟨[], e⟩ := by
  obtain ⟨registry, -, -, history⟩ := fresh
  constructor
  · simp only [registry, history]
    rfl
  · simp [registry]

/-- The registry, the inboxes and the departures of an engine agree. -/
structure Consistent (e : Engine) : Prop where
  /-- Every connection has an inbox, in the same order. -/
  inboxes : e.inboxes.map (·.connection) = e.registry.map (·.name)
  distinct : (e.registry.map (·.name)).Nodup
  /-- No departure is noted twice. -/
  once : e.departures.Nodup
  noted : ∀ name, name ∈ e.departures ↔ ∃ c ∈ e.registry, c.name = name ∧ c.departed = true
  /-- The connections are told of in the order in which they were added. -/
  order : e.status.map (·.name) = e.history.present

/-- An engine between two requests is consistent. -/
theorem consistent (sound : Sound ⟨[], e⟩) (listed : Listed ⟨[], e⟩) : e.Consistent where
  inboxes := sound.inboxes
  distinct := sound.names
  once := sound.distinct
  noted name := ⟨sound.departed name, fun ⟨c, hc, its, gone⟩ => its ▸ listed.noted c hc gone⟩
  order := by
    rw [status, List.map_map]
    exact listed.order

/-- All departures are carried out. -/
theorem applyDepartures_departures {commandBound bound count : Nat}
    (applied : applyDepartures commandBound bound e = some (count, e')) : e'.departures = [] := by
  induction bound generalizing e count with
  | zero => cases applied
  | succ bound ih =>
    rw [applyDepartures] at applied
    split at applied
    · next none =>
      obtain ⟨-, rfl⟩ := Prod.mk.inj (Option.some.inj applied)
      exact none
    · obtain ⟨first, -, applied⟩ := Option.bind_eq_some_iff.mp applied
      obtain ⟨⟨more, last⟩, others, answer⟩ := Option.bind_eq_some_iff.mp applied
      obtain ⟨-, rfl⟩ := Prod.mk.inj (Option.some.inj answer)
      exact ih others

/-- A poll carries out all departures. -/
theorem poll_departures {bound count : Nat} (polled : e.poll bound = some (count, e')) :
    e'.departures = [] := by
  obtain ⟨first, e₁, more, -, departed, -⟩ := poll_eq_some polled
  exact applyDepartures_departures departed

/-- A batch has no fault if every host is named, and every name is new and stands in it once. -/
theorem batchFault?_eq_none_iff {taken : List String}
    {batch : List (String × ConnectionSettings)} : batchFault? taken batch = none ↔
      (∀ entry ∈ batch, Text.isBlankText entry.2.host = false) ∧ (batch.map (·.1)).Nodup ∧
        ∀ entry ∈ batch, entry.1 ∉ taken := by
  induction batch generalizing taken with
  | nil => simp [batchFault?]
  | cons entry rest ih =>
    obtain ⟨name, settings⟩ := entry
    rw [batchFault?]
    cases blank : Text.isBlankText settings.host with
    | true => simp [blank]
    | false =>
      by_cases old : name ∈ taken
      · simp [old]
      · rw [if_neg Bool.false_ne_true, if_neg old, ih, List.forall_mem_cons, List.forall_mem_cons,
          List.map_cons, List.nodup_cons]
        constructor
        · rintro ⟨hosts, distinct, new⟩
          refine ⟨⟨blank, hosts⟩, ⟨fun mem => ?_, distinct⟩, old, fun entry he mem =>
            new entry he (List.mem_cons_of_mem _ mem)⟩
          obtain ⟨entry, he, rfl⟩ := List.mem_map.mp mem
          exact new entry he List.mem_cons_self
        · rintro ⟨⟨-, hosts⟩, ⟨once, distinct⟩, -, new⟩
          refine ⟨hosts, distinct, fun entry he mem => ?_⟩
          rcases List.mem_cons.mp mem with same | mem
          · exact once (List.mem_map.mpr ⟨entry, he, same⟩)
          · exact new entry he mem

/-- Connections can be added before shutdown, if nothing is wrong with them. -/
theorem configure_ok_iff {batch : List (String × ConnectionSettings)} :
    (∃ e', e.configure batch = .ok e') ↔
      e.shutDown = false ∧ batchFault? (e.inboxes.map (·.connection)) batch = none := by
  constructor
  · rintro ⟨e', configured⟩
    obtain ⟨running, free, -⟩ := configure_eq configured
    exact ⟨running, free⟩
  · rintro ⟨running, free⟩
    exact ⟨_, by simp only [configure, running, free]; rfl⟩

/-- Connections that are added together begin new lives. The sessions of these are opened later,
and they only end when their own peers say goodbye. -/
theorem exists_added (sound : Sound ⟨[], e⟩) {batch : List (String × ConnectionSettings)}
    (configured : e.configure batch = .ok e') (later : List Request) :
    let final := e'.run later
    ∃ older added newer, final.history.lives = older ++ added ++ newer ∧
      older.length = e.history.lives.length ∧ added.map (·.name) = batch.map (·.1) ∧
      ∀ l ∈ added, (∀ id ∈ l.opened, e.history.sessions ≤ id) ∧
        (l.left = true →
          .goodbye ∈ (final.history.linesRead l.opened).map (Line.said final.valueCase)) ∧
        (l.left = false → ∃ c ∈ final.registry, c.name = l.name) := by
  intro final
  have sound₁ : Sound ⟨[], e'⟩ := sound_of_moves (configure_moves configured) sound
  have sound₂ : Sound ⟨[], final⟩ := sound_of_moves (run_moves e' later) sound₁
  obtain ⟨es, on, -⟩ := fates_of_moves (run_moves e' later) sound₁
  obtain ⟨newer, lives⟩ := History.exists_lives_append on
  obtain ⟨-, -, rfl⟩ := configure_eq configured
  have began : (e.history.recordAll (batch.map fun entry => .configured entry.1)).lives =
      e.history.lives ++ (batch.map (·.1)).map .new := by
    simpa [Function.comp_def] using History.lives_recordAll_configured e.history (batch.map (·.1))
  change final.history.lives = List.map _ (e.history.recordAll (batch.map _)).lives ++ newer at lives
  rw [began, List.map_append] at lives
  refine ⟨_, _, newer, lives, List.length_map _, ?_, fun l hl => ⟨fun id mine => ?_, ?_, ?_⟩⟩
  · simp [Function.comp_def, Life.name_after, Life.new]
  · -- every session so far belongs to a life that began before
    rw [← Nat.not_lt]
    intro old
    obtain ⟨k, hk, its⟩ := sound.orderly.covered id old
    have apart := sound₂.orderly.apart
    rw [lives] at apart
    obtain ⟨-, -, across⟩ := List.pairwise_append.mp (List.pairwise_append.mp apart).1
    exact (across _ (List.mem_map_of_mem hk) l hl).sessions id (Life.mem_opened_after its es) mine
  · intro past
    have mem : l ∈ final.history.lives := by
      rw [lives]
      exact List.mem_append_left _ (List.mem_append_right _ hl)
    exact (sound₂.settled l mem past).parted
  · intro lasts
    have mem : l ∈ final.history.lives := by
      rw [lives]
      exact List.mem_append_left _ (List.mem_append_right _ hl)
    exact sound₂.registered l mem lasts

/-- In every run, the registry, the inboxes and the departures agree. A poll that answers leaves no
connection whose peer said goodbye, and it answers if nothing arrives meanwhile. Before shutdown, a
name can be used for a connection exactly if no connection has it. A connection that is added is a
new one, with an empty inbox and no departure noted, whatever became of earlier ones of its name:
it has sessions of its own, and is only removed when its peer said goodbye on one of these. -/
theorem registry_consistent_of_run {e₀ : Engine} (fresh : e₀.Fresh) (requests : List Request) :
    let e := e₀.run requests
    e.Consistent ∧
    (∀ bound count e', e.poll bound = some (count, e') →
      (∀ c ∈ e'.registry, c.departed = false) ∧ e'.departures = [] ∧ e'.Consistent) ∧
    (e.Quiet → ∃ bound count e', e.poll bound = some (count, e')) ∧
    (∀ name settings, e.shutDown = false → Text.isBlankText settings.host = false →
      ((∃ e', e.configure [(name, settings)] = .ok e') ↔ name ∉ e.status.map (·.name))) ∧
    ∀ batch e', e.configure batch = .ok e' →
      e'.registry = e.registry ++ batch.map (fun entry => .new entry.1 entry.2 e.connector) ∧
      e'.inboxes = e.inboxes ++ batch.map (fun entry => ⟨entry.1, []⟩) ∧
      (∀ entry ∈ batch, entry.1 ∉ e'.departures) ∧
      ∀ later, let final := e'.run later
        ∃ older added newer, final.history.lives = older ++ added ++ newer ∧
          older.length = e.history.lives.length ∧ added.map (·.name) = batch.map (·.1) ∧
          ∀ l ∈ added, (∀ id ∈ l.opened, e.history.sessions ≤ id) ∧
            (l.left = true →
              .goodbye ∈ (final.history.linesRead l.opened).map (Line.said final.valueCase)) ∧
            (l.left = false → ∃ c ∈ final.registry, c.name = l.name) := by
  intro e
  have sound : Sound ⟨[], e⟩ := sound_of_run fresh requests
  have listed : Listed ⟨[], e⟩ :=
    listed_of_moves (run_moves e₀ requests) (sound_of_fresh fresh) (listed_of_fresh fresh)
  have consistent := e.consistent sound listed
  refine ⟨consistent, fun bound count e' polled => ?_, fun quiet => ?_,
    fun name settings running host => ?_, fun batch e' configured => ?_⟩
  · have moves := poll_moves polled
    have carried := poll_departures polled
    have after : e'.Consistent :=
      e'.consistent (sound_of_moves moves sound) (listed_of_moves moves sound listed)
    refine ⟨fun c hc => Bool.eq_false_iff.mpr fun gone => ?_, carried, after⟩
    have noted := (after.noted c.name).mpr ⟨c, hc, rfl, gone⟩
    rw [carried] at noted
    exact List.not_mem_nil noted
  · obtain ⟨bound, longest⟩ : ∃ bound, ∀ i ∈ e.inboxes, i.commands.length < bound :=
      ⟨(e.inboxes.map (·.commands)).flatten.length + 1, fun i hi => Nat.lt_succ_of_le
        (List.sublist_flatten_of_mem (List.mem_map_of_mem hi)).length_le⟩
    exact ⟨bound + e.departures.length + 1, poll_of_quiet quiet
      (fun i hi => Nat.lt_of_lt_of_le (longest i hi) (by omega)) (by omega)⟩
  · have names : e.status.map (·.name) = e.inboxes.map (·.connection) := by
      rw [status, List.map_map, consistent.inboxes]
      rfl
    rw [configure_ok_iff, batchFault?_eq_none_iff, names]
    simp [running, host]
  · obtain ⟨-, free, rfl⟩ := configure_eq configured
    refine ⟨rfl, rfl, fun entry he mem => ?_, fun later => exists_added sound configured later⟩
    obtain ⟨c, hc, its, -⟩ := (consistent.noted entry.1).mp mem
    refine (batchFault?_eq_none_iff.mp free).2.2 entry he ?_
    rw [consistent.inboxes, ← its]
    exact List.mem_map_of_mem hc

/-- After its peer said goodbye and a poll, the name of a connection can be used again. -/
theorem registry_consistent_of_run_reused :
    let e₀ := new fun _ _ _ => true
    let settings := ConnectionSettings.ofHost "host"
    let requests := [Request.configure [("peer", settings), ("other", settings)], .start,
      .receive 0 (Text.bytes "tilt\ngoodbye\n"), .poll 2]
    let e := e₀.run requests
    e₀.Fresh ∧ e.status.map (·.name) = ["other"] ∧
      ∃ e', e.configure [("peer", settings)] = .ok e' ∧ ∀ later, ∃ older added newer,
        (e'.run later).history.lives = older ++ added ++ newer ∧ added.map (·.name) = ["peer"] ∧
        ∀ l ∈ added, ∀ id ∈ l.opened, 2 ≤ id := by
  intro e₀ settings requests e
  have fresh : e₀.Fresh := fresh_new _
  have left : e.status.map (·.name) = ["other"] := by decide +kernel
  have sessions : e.history.sessions = 2 := by decide +kernel
  obtain ⟨-, -, -, free, added⟩ := registry_consistent_of_run fresh requests
  obtain ⟨e', configured⟩ := (free "peer" settings (by decide +kernel) (by decide +kernel)).mpr (by
    rw [left]
    decide)
  obtain ⟨-, -, -, lives⟩ := added _ e' configured
  refine ⟨fresh, left, e', configured, fun later => ?_⟩
  obtain ⟨older, new, newer, split, -, names, own⟩ := lives later
  exact ⟨older, new, newer, split, names, fun l hl id hid => sessions ▸ (own l hl).1 id hid⟩

end Backbox.Engine
