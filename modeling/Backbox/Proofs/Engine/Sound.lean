import Mathlib.Data.List.Nodup
import Backbox.Proofs.Connection.Intake
import Backbox.Proofs.Engine.Move

/-!
# The invariant of an engine

Every connection of an engine has one inbox and one life on record, and what is on record
agrees with the connection and the inbox. Lives that are over are settled: nothing waits, and
everything that the peer said is dispatched. Every session belongs to one life.
-/

namespace Backbox

/-- The life of a connection that was removed: all its sessions are over, and all that its
peer said before the goodbye was handed on. -/
structure Life.Settled (valueCase : ValueCase) (l : Life) (h : History) : Prop where
  past : ∀ id ∈ l.opened, (h.log id).IsOver
  accepted : ∃ dropped, l.accepted = h.callerLines l.opened ++ dropped
  frames : h.framesShown l.opened =
    (Said.heard ((h.linesRead l.opened).map (Line.said valueCase))).filterMap Said.payload?
  commands : (Said.heard ((h.linesRead l.opened).map (Line.said valueCase))).filterMap
    Said.command? = l.dispatched
  parted : .goodbye ∈ (h.linesRead l.opened).map (Line.said valueCase)

/-- A life that is settled stays so while nothing happens on its sessions. -/
theorem Life.Settled.congr {valueCase : ValueCase} {l : Life} {h h' : History}
    (settled : l.Settled valueCase h) (same : ∀ id ∈ l.opened, h'.log id = h.log id) :
    l.Settled valueCase h' := by
  obtain ⟨past, ⟨dropped, accepted⟩, frames, commands, parted⟩ := settled
  have lines : h'.linesRead l.opened = h.linesRead l.opened :=
    History.linesRead_congr fun id hid => by rw [same id hid]
  have shown : h'.framesShown l.opened = h.framesShown l.opened :=
    History.framesShown_congr fun id hid => by rw [same id hid]
  have callers : h'.callerLines l.opened = h.callerLines l.opened :=
    History.callerLines_eq same
  refine ⟨fun id hid => same id hid ▸ past id hid, ⟨dropped, ?_⟩, ?_, ?_, ?_⟩
  · rw [callers, accepted]
  · rw [shown, lines, frames]
  · rw [lines, commands]
  · rw [lines]
    exact parted

namespace Connection

/-- A connection agrees with its inbox and its life on record. -/
structure Agrees (valueCase : ValueCase) (c : Connection) (waiting : List Command) (l : Life)
    (h : History) : Prop where
  order : c.InOrder l h
  incoming : c.Incoming valueCase waiting l h

/-- A connection goes on to agree with its record while nothing happens on its sessions. -/
theorem Agrees.congr {valueCase : ValueCase} {c : Connection} {waiting : List Command}
    {l : Life} {h h' : History} (agrees : c.Agrees valueCase waiting l h)
    (same : ∀ id ∈ l.opened, h'.log id = h.log id) (more : h.sessions ≤ h'.sessions)
    (numbered : h'.Numbered) : c.Agrees valueCase waiting l h' := by
  obtain ⟨⟨lifecycle, rec, flushed, out, -⟩, heard, inStep⟩ := agrees
  have lines : h'.linesRead l.opened = h.linesRead l.opened :=
    History.linesRead_congr fun id hid => by rw [same id hid]
  have shown : h'.framesShown l.opened = h.framesShown l.opened :=
    History.framesShown_congr fun id hid => by rw [same id hid]
  have callers {ids : List Nat} (sub : ∀ id ∈ ids, id ∈ l.opened) :
      h'.callerLines ids = h.callerLines ids :=
    History.callerLines_eq fun id hid => same id (sub id hid)
  refine ⟨⟨lifecycle, ?_, flushed, ?_, numbered⟩, ?_, ?_⟩
  · exact ⟨rec.name_eq, rec.present,
      fun id hid => Nat.lt_of_lt_of_le (rec.opened_lt id hid) more, rec.distinct, rec.last⟩
  · refine ⟨fun id hid other => same id hid ▸ out.past id hid other, ?_, ?_⟩
    · intro s live
      rw [same s.id (rec.mem_opened live), callers fun id hid => List.dropLast_subset _ hid]
      exact out.live s live
    · intro idle
      rw [callers fun id hid => hid]
      exact out.idle idle
  · rw [lines]
    exact ⟨shown.trans heard.frames, heard.commands, heard.parted⟩
  · intro s live
    rw [same s.id (rec.mem_opened live)]
    exact inStep s live

/-- A connection goes on to agree with its record while nothing is heard from its peer. -/
theorem Agrees.silent {valueCase : ValueCase} {c c' : Connection} {waiting : List Command}
    {l : Life} {h h' : History} {es : List Effect} (agrees : c.Agrees valueCase waiting l h)
    (steps : c.Steps h es c' h') (silent : ∀ e ∈ es, e.hears = false) (flushed : c'.Flushed) :
    c'.Agrees valueCase waiting (l.after es) h' := by
  refine ⟨agrees.order.steps steps flushed, ?_⟩
  obtain ⟨⟨lifecycle, rec, -, -, numbered⟩, incoming⟩ := agrees
  induction steps generalizing l with
  | none => exact incoming
  | cons step _ ih =>
    rw [Life.after_append]
    refine ih (fun e he => silent e (List.mem_append_right _ he)) flushed
      (step.incoming (fun e he => silent e (List.mem_append_left _ he)) rec numbered incoming)
      (step.lifecycle lifecycle) (step.recorded rec) ?_
    exact step.course.history_numbered numbered fun s live =>
      rec.opened_lt s.id (rec.mem_opened live)

/-- A command that was dispatched waits no more. -/
theorem Agrees.dispatched {valueCase : ValueCase} {c : Connection} {command : Command}
    {waiting : List Command} {l : Life} {h : History}
    (agrees : c.Agrees valueCase (command :: waiting) l h) :
    c.Agrees valueCase waiting (l.after [.dispatched c.name command])
      (h.record (.dispatched c.name command)) := by
  obtain ⟨⟨lifecycle, rec, flushed, ⟨past, live, idle⟩, numbered⟩,
    ⟨frames, commands, parted⟩, inStep⟩ := agrees
  rw [← rec.name_eq, Life.after_dispatched rec.present]
  refine ⟨⟨lifecycle, ?_, flushed, ⟨past, live, idle⟩, fun e he id hid => ?_⟩,
    ⟨frames, ?_, parted⟩, inStep⟩
  · exact ⟨rec.name_eq, rec.present, rec.opened_lt, rec.distinct, rec.last⟩
  · rcases List.mem_cons.mp he with rfl | he
    · cases hid
    · exact numbered e he id hid
  · rw [List.append_assoc]
    exact commands

/-- A connection whose peer said goodbye leaves nothing open when it is removed after the last
of its commands. -/
theorem Agrees.settled {valueCase : ValueCase} {c : Connection} {l : Life} {h : History}
    (agrees : c.Agrees valueCase [] l h) (departed : c.departed = true) :
    (l.after [.left c.name]).Settled valueCase (h.record (.left c.name)) := by
  obtain ⟨⟨lifecycle, rec, -, out, -⟩, ⟨frames, commands, parted⟩, -⟩ := agrees
  obtain ⟨idle, empty⟩ := lifecycle.departed departed
  obtain ⟨dropped, accepted, -⟩ := out.idle idle
  rw [← rec.name_eq, Life.after_left rec.present]
  refine ⟨fun id hid => out.past id hid fun s live => ?_, ⟨dropped, ?_⟩, frames, ?_,
    parted.mp departed⟩
  · rw [idle] at live
    cases live
  · rw [empty, List.append_nil] at accepted
    exact accepted
  · rw [List.append_nil] at commands
    exact commands

/-- A connection that was just added agrees with an empty inbox and an empty record. -/
theorem agrees_new (valueCase : ValueCase) (name : String) (settings : ConnectionSettings)
    (connector : Connector) {h : History} (numbered : h.Numbered) :
    (new name settings connector).Agrees valueCase [] (.new name) h := by
  have idle (s : Session) : (new name settings connector).session ≠ some s :=
    (Option.some_ne_none s).symm
  refine ⟨⟨lifecycle_new .., ?_, ?_, ?_, numbered⟩, ?_, ?_⟩
  · exact ⟨rfl, rfl, fun _ hid => absurd hid List.not_mem_nil, List.nodup_nil,
      fun s live => absurd live (idle s)⟩
  · intro some
    cases some
  · exact ⟨fun _ hid => absurd hid List.not_mem_nil, fun s live => absurd live (idle s),
      fun _ => ⟨[], rfl, fun _ => rfl⟩⟩
  · exact ⟨rfl, rfl, iff_of_false Bool.false_ne_true List.not_mem_nil⟩
  · exact fun s live => absurd live (idle s)

end Connection

namespace Engine

/-- What holds of an engine at any moment, given the connections that are about to be
removed. -/
structure Sound (m : Moment) : Prop where
  /-- Every connection has an inbox, in the same order. -/
  inboxes : m.engine.inboxes.map (·.connection) = m.engine.registry.map (·.name)
  names : (m.engine.registry.map (·.name)).Nodup
  orderly : m.engine.history.Orderly
  /-- Connections and lives that last belong together. -/
  alive : ∀ c ∈ m.engine.registry, ∃ l ∈ m.engine.history.lives, l.name = c.name ∧ l.left = false
  registered : ∀ l ∈ m.engine.history.lives, l.left = false →
    ∃ c ∈ m.engine.registry, c.name = l.name
  agree : ∀ c ∈ m.engine.registry, ∀ i ∈ m.engine.inboxes, ∀ l ∈ m.engine.history.lives,
    i.connection = c.name → l.name = c.name → l.left = false →
      c.Agrees m.engine.valueCase i.commands l m.engine.history
  settled : ∀ l ∈ m.engine.history.lives, l.left = true →
    l.Settled m.engine.valueCase m.engine.history
  /-- Connections that are to be removed are there, and their peers said goodbye. -/
  distinct : (m.leaving ++ m.engine.departures).Nodup
  departed : ∀ name ∈ m.leaving ++ m.engine.departures,
    ∃ c ∈ m.engine.registry, c.name = name ∧ c.departed = true
  /-- Connections are only closed with the engine. -/
  closed : ∀ c ∈ m.engine.registry, c.state = .closed → m.engine.shutDown = true

/-- The connections after one of them changed in its place. -/
theorem mem_changed {front back : List Connection} {c d : Connection} :
    d ∈ front ++ c :: back ↔ d = c ∨ d ∈ front ++ back := by
  simp only [List.mem_append, List.mem_cons]
  exact or_left_comm

namespace Sound

variable {names : List String} {e : Engine}

/-- Two connections of one name are one. -/
theorem eq_of_name (sound : Sound ⟨names, e⟩) {c d : Connection} (hc : c ∈ e.registry)
    (hd : d ∈ e.registry) (same : c.name = d.name) : c = d :=
  List.inj_on_of_nodup_map sound.names hc hd same

/-- Every connection has an inbox. -/
theorem exists_inbox (sound : Sound ⟨names, e⟩) {c : Connection} (hc : c ∈ e.registry) :
    ∃ i ∈ e.inboxes, i.connection = c.name := by
  have mem : c.name ∈ e.inboxes.map (·.connection) :=
    sound.inboxes ▸ List.mem_map_of_mem hc
  exact List.mem_map.mp mem

/-- Every connection agrees with its inbox and its life on record. -/
theorem exists_agrees (sound : Sound ⟨names, e⟩) {c : Connection} (hc : c ∈ e.registry) :
    ∃ i ∈ e.inboxes, ∃ l ∈ e.history.lives, i.connection = c.name ∧
      l.name = c.name ∧ l.left = false ∧
      c.Agrees e.valueCase i.commands l e.history := by
  obtain ⟨i, hi, inbox⟩ := sound.exists_inbox hc
  obtain ⟨l, hl, name, present⟩ := sound.alive c hc
  exact ⟨i, hi, l, hl, inbox, name, present, sound.agree c hc i hi l hl inbox name present⟩

/-- Every connection is as its state says. -/
theorem lifecycle (sound : Sound ⟨names, e⟩) {c : Connection} (hc : c ∈ e.registry) :
    c.Lifecycle := by
  obtain ⟨i, hi, l, hl, -, -, -, agrees⟩ := sound.exists_agrees hc
  exact agrees.order.lifecycle

/-- Every life that lasts agrees with its connection and its inbox. -/
theorem exists_connection (sound : Sound ⟨names, e⟩) {l : Life} (hl : l ∈ e.history.lives)
    (lasts : l.left = false) :
    ∃ c ∈ e.registry, ∃ i ∈ e.inboxes, c.name = l.name ∧ i.connection = l.name ∧
      c.Agrees e.valueCase i.commands l e.history := by
  obtain ⟨c, hc, name⟩ := sound.registered l hl lasts
  obtain ⟨i, hi, inbox⟩ := sound.exists_inbox hc
  exact ⟨c, hc, i, hi, name, inbox.trans name, sound.agree c hc i hi l hl inbox name.symm lasts⟩

/-- The connections beside one are others, of other names. -/
theorem others (sound : Sound ⟨names, e⟩) {front back : List Connection} {c : Connection}
    (split : e.registry = front ++ c :: back) :
    ∀ d ∈ front ++ back, d ∈ e.registry ∧ d.name ≠ c.name := by
  intro d hd
  have distinct : (c.name :: (front ++ back).map (·.name)).Nodup := by
    refine (List.Perm.nodup_iff ?_).mp sound.names
    rw [split]
    exact (List.perm_middle : (front ++ c :: back).Perm (c :: (front ++ back))).map (·.name)
  refine ⟨split ▸ mem_changed.mpr (.inr hd), ?_⟩
  intro same
  exact (List.nodup_cons.mp distinct).1 (same ▸ List.mem_map_of_mem hd)

private theorem map_connection_hand (hand : List Command → List Command) (name : String)
    (inboxes : List Inbox) :
    (inboxes.map fun i => if i.connection = name then
      { i with commands := hand i.commands } else i).map (·.connection) =
      inboxes.map (·.connection) := by
  have same : (fun i : Inbox => (if i.connection = name then
      { i with commands := hand i.commands } else i).connection) = (·.connection) := by
    funext i
    split <;> rfl
  rw [List.map_map]
  exact congrArg (inboxes.map ·) same

-- A departure is noted once, since the peer has not said goodbye before.
private theorem nodup_noted (sound : Sound ⟨names, e⟩) {c : Connection} (hc : c ∈ e.registry)
    (stays : c.departed = false) : (names ++ (e.departures ++ [c.name])).Nodup := by
  refine List.append_assoc .. ▸ sound.distinct.append (List.nodup_singleton _) ?_
  intro name hname here
  obtain ⟨d, hd, its, gone⟩ := sound.departed name hname
  obtain rfl := sound.eq_of_name hd hc (its.trans (List.mem_singleton.mp here))
  exact Bool.false_ne_true (stays.symm.trans gone)

private theorem departed_changed (sound : Sound ⟨names, e⟩) {front back : List Connection}
    {c c' : Connection} (split : e.registry = front ++ c :: back) (name : c'.name = c.name)
    (parted : c.departed = true → c'.departed = true) :
    ∀ n ∈ names ++ e.departures, ∃ d ∈ front ++ c' :: back, d.name = n ∧ d.departed = true := by
  intro n hn
  obtain ⟨d, hd, rfl, gone⟩ := sound.departed n hn
  rcases mem_changed.mp (split ▸ hd) with rfl | hd
  · exact ⟨c', mem_changed.mpr (.inl rfl), name, parted gone⟩
  · exact ⟨d, mem_changed.mpr (.inr hd), rfl, gone⟩

/-- An engine stays sound when one connection, its life on record and its inbox change
together, and its departure may be noted. -/
theorem change {front back : List Connection}
    {c c' : Connection} {h' : History} {es : List Effect} (sound : Sound ⟨names, e⟩)
    (hand : List Command → List Command) (gone : Bool) (split : e.registry = front ++ c :: back)
    (name : c'.name = c.name) (stay : ∀ e ∈ es, e.removes = false)
    (concerns : ∀ l ∈ e.history.lives, c.Recorded l e.history → e.history.Concerns l es h')
    (agrees : ∀ i ∈ e.inboxes, i.connection = c.name → ∀ l ∈ e.history.lives,
      c.Agrees e.valueCase i.commands l e.history →
        c'.Agrees e.valueCase (hand i.commands) (l.after es) h')
    (departs : gone = true → c.departed = false ∧ c'.departed = true)
    (parted : c.departed = true → c'.departed = true)
    (closes : c'.state = .closed → c.state = .closed ∨ e.shutDown = true) :
    Sound ⟨names, { e with
      registry := front ++ c' :: back
      inboxes := e.inboxes.map fun i =>
        if i.connection = c.name then { i with commands := hand i.commands } else i
      departures := if gone then e.departures ++ [c.name] else e.departures
      history := h' }⟩ := by
  have hc : c ∈ e.registry := split ▸ List.mem_append_right _ List.mem_cons_self
  obtain ⟨i₀, hi₀, l₀, hl₀, inbox₀, name₀, present₀, agrees₀⟩ := sound.exists_agrees hc
  have only := concerns l₀ hl₀ agrees₀.order.recorded
  have lives : h'.lives = e.history.lives.map (·.after es) :=
    History.lives_of_goesOn only.on only.stay
  have left (l : Life) : (l.after es).left = l.left := Life.left_after l stay
  have names_eq : (front ++ c' :: back).map (·.name) = e.registry.map (·.name) := by
    rw [split, List.map_append, List.map_append, List.map_cons, List.map_cons, name]
  have others := sound.others split
  have apart : ∀ l ∈ e.history.lives, l.name ≠ c.name ∨ l.left = true → l ≠ l₀ := by
    rintro l hl (differ | past) rfl
    · exact differ name₀
    · exact Bool.false_ne_true (present₀.symm.trans past)
  refine ⟨?_, names_eq ▸ sound.names, sound.orderly.after hl₀ present₀ only, ?_, ?_, ?_, ?_, ?_,
    ?_, ?_⟩
  · exact (map_connection_hand hand c.name e.inboxes).trans (sound.inboxes.trans names_eq.symm)
  · intro d hd
    have old : ∃ d' ∈ e.registry, d'.name = d.name := by
      rcases mem_changed.mp hd with rfl | hd
      · exact ⟨c, hc, name.symm⟩
      · exact ⟨d, (others d hd).1, rfl⟩
    obtain ⟨d', hd', same⟩ := old
    obtain ⟨l, hl, its, lasts⟩ := sound.alive d' hd'
    refine ⟨l.after es, ?_, (Life.name_after l es).trans (its.trans same), (left l).trans lasts⟩
    exact lives ▸ List.mem_map_of_mem hl
  · intro l' hl' lasts
    obtain ⟨l, hl, rfl⟩ := List.mem_map.mp (lives ▸ hl')
    obtain ⟨d, hd, its⟩ := sound.registered l hl ((left l).symm.trans lasts)
    rw [Life.name_after]
    rcases mem_changed.mp (split ▸ hd) with rfl | hd
    · exact ⟨c', mem_changed.mpr (.inl rfl), name.trans its⟩
    · exact ⟨d, mem_changed.mpr (.inr hd), its⟩
  · intro d hd i' hi' l' hl' inbox its lasts
    obtain ⟨i, hi, rfl⟩ := List.mem_map.mp hi'
    obtain ⟨l, hl, rfl⟩ := List.mem_map.mp (lives ▸ hl')
    rw [left] at lasts
    rw [Life.name_after] at its
    have connection : i.connection = d.name := by
      rw [← inbox]
      split <;> rfl
    rcases mem_changed.mp hd with rfl | hd
    · rw [name] at connection its
      rw [if_pos connection]
      exact agrees i hi connection l hl
        (sound.agree c hc i hi l hl connection its lasts)
    · obtain ⟨hd, differ⟩ := others d hd
      rw [if_neg fun same => differ (connection.symm.trans same)]
      have foreign := apart l hl (.inl fun same => differ (its.symm.trans same))
      rw [only.others l hl foreign]
      exact (sound.agree d hd i hi l hl connection its lasts).congr (only.logs l hl foreign)
        only.on.sessions_le only.numbered
  · intro l' hl' past
    obtain ⟨l, hl, rfl⟩ := List.mem_map.mp (lives ▸ hl')
    rw [left] at past
    have foreign := apart l hl (.inr past)
    rw [only.others l hl foreign]
    exact (sound.settled l hl past).congr (only.logs l hl foreign)
  · cases gone with
    | true => exact sound.nodup_noted hc (departs rfl).1
    | false => exact sound.distinct
  · have kept := sound.departed_changed split name parted
    cases gone with
    | true =>
      intro n hn
      rcases List.mem_append.mp ((List.append_assoc ..).symm ▸ hn) with old | new
      · exact kept n old
      · refine ⟨c', mem_changed.mpr (.inl rfl), ?_, (departs rfl).2⟩
        rw [name, List.mem_singleton.mp new]
    | false => exact kept
  · intro d hd down
    rcases mem_changed.mp hd with rfl | hd
    · exact (closes down).elim (sound.closed c hc) id
    · exact sound.closed d (others d hd).1 down

end Sound

end Engine

end Backbox
