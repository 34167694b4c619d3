import Backbox.Proofs.Engine.Sound

/-!
# Every move keeps an engine sound

Most moves change one connection by a chain of steps. The others change an inbox and a life
on record together, add a connection with a new inbox and a new life, or take one out after
its inbox is empty.
-/

namespace Backbox.Engine

/-- What is taken out of an inbox. -/
theorem takeCommand_eq {e e' : Engine} {name : String} {command : Command}
    (taken : e.takeCommand name = some (command, e')) :
    (∃ i ∈ e.inboxes, i.connection = name ∧ ∃ rest, i.commands = command :: rest) ∧
      e' = { e with inboxes := e.inboxes.map fun i =>
        if i.connection = name then { i with commands := i.commands.tail } else i } := by
  unfold takeCommand at taken
  split at taken
  · next connection first rest found =>
    obtain ⟨rfl, rfl⟩ := Prod.mk.inj (Option.some.inj taken)
    have named := List.find?_some found
    exact ⟨⟨_, List.mem_of_find?_eq_some found, of_decide_eq_true named, rest, rfl⟩, rfl⟩
  · cases taken

namespace Sound

variable {names : List String} {e : Engine}

private theorem connectionOf_split {session : Nat} {c : Connection}
    (found : e.connectionOf? session = some c) :
    (∃ s, c.session = some s) ∧ ∃ front back, e.registry = front ++ c :: back := by
  unfold connectionOf? at found
  have holds := List.find?_some found
  obtain ⟨s, live, -⟩ := (Option.any_eq_true _ _).mp holds
  exact ⟨⟨s, live⟩, List.append_of_mem (List.mem_of_find?_eq_some found)⟩

-- Names are unique, so a changed connection takes the place of one connection only.
private theorem replace_eq (sound : Sound ⟨names, e⟩) {front back : List Connection}
    {c c' : Connection} (split : e.registry = front ++ c :: back) (name : c'.name = c.name) :
    e.replace c' = front ++ c' :: back := by
  have untouched (l : List Connection) (beside : ∀ d ∈ l, d ∈ front ++ back) :
      l.map (fun d => if d.name = c'.name then c' else d) = l := by
    refine (List.map_congr_left fun d hd => ?_).trans (List.map_id l)
    rw [name, if_neg (sound.others split d (beside d hd)).2]
    rfl
  unfold replace
  rw [split, List.map_append, List.map_cons, if_pos name.symm,
    untouched front fun d hd => List.mem_append_left _ hd,
    untouched back fun d hd => List.mem_append_right _ hd]

/-- An engine stays sound when a chain of steps changes one connection in its place, the
commands that it hears join its inbox, and its departure is noted. -/
theorem steps (sound : Sound ⟨names, e⟩) {front back : List Connection} {c c' : Connection}
    {h' : History} {es : List Effect} (more : List Command) (gone : Bool)
    (split : e.registry = front ++ c :: back) (steps : c.Steps e.history es c' h')
    (agrees : ∀ waiting, ∀ l ∈ e.history.lives, c.Agrees e.valueCase waiting l e.history →
      c'.Agrees e.valueCase (waiting ++ more) (l.after es) h')
    (departs : gone = true → c.departed = false ∧ c'.departed = true)
    (closes : c'.state = .closed → c.state = .closed ∨ e.shutDown = true) :
    Sound ⟨names, { e with
      registry := front ++ c' :: back
      inboxes := e.inboxes.map fun i =>
        if i.connection = c.name then { i with commands := i.commands ++ more } else i
      departures := if gone then e.departures ++ [c.name] else e.departures
      history := h' }⟩ := by
  have course := steps.course
  exact sound.change (· ++ more) gone split course.name_eq (fun e he => (course.stay e he).2.1)
    (fun l hl rec => steps.concerns rec sound.orderly hl)
    (fun i _ _ l hl own => agrees i.commands l hl own) departs steps.departed closes

/-- An engine stays sound when something is done to one connection, in which nothing is heard
from its peer. -/
theorem link (sound : Sound ⟨names, e⟩) {front back : List Connection} {c : Connection}
    {link : Connection × History} {es : List Effect} (split : e.registry = front ++ c :: back)
    (steps : c.Steps e.history es link.1 link.2) (silent : ∀ e ∈ es, e.hears = false)
    (flushed : link.1.Flushed)
    (closes : link.1.state = .closed → c.state = .closed ∨ e.shutDown = true) :
    Sound ⟨names, e.withLink front link back⟩ := by
  have linked := sound.steps [] false split steps
    (fun waiting l _ agrees => by
      rw [List.append_nil]
      exact agrees.silent steps silent flushed)
    (fun gone => by cases gone) closes
  have same : (e.inboxes.map fun i =>
      if i.connection = c.name then { i with commands := i.commands ++ [] } else i) =
      e.inboxes := by
    refine (List.map_congr_left fun i _ => ?_).trans (List.map_id _)
    rw [List.append_nil]
    exact ite_self _
  rw [same] at linked
  exact linked

/-- Bytes that arrive on a session are lost, or heard by the connection that holds it. -/
theorem receive_eq (sound : Sound ⟨names, e⟩) (session : Nat) (bytes : Bytes) :
    e.receive session bytes = e ∨ ∃ (front back : List Connection) (c : Connection)
      (es : List Effect), e.registry = front ++ c :: back ∧ c.departed = false ∧
        c.Steps e.history es (c.receive e.valueCase bytes e.history).connection
          (c.receive e.valueCase bytes e.history).history ∧
        (∀ entry ∈ es, entry.connection? = none) ∧
        ((c.receive e.valueCase bytes e.history).connection.state = c.state ∨
          (c.receive e.valueCase bytes e.history).connection.state = .disconnected) ∧
        e.receive session bytes = { e with
          registry := front ++ (c.receive e.valueCase bytes e.history).connection :: back
          inboxes := e.inboxes.map fun i =>
            if i.connection = c.name then { i with
              commands := i.commands ++ (c.receive e.valueCase bytes e.history).commands.toList }
            else i
          departures :=
            if (c.receive e.valueCase bytes e.history).departed then e.departures ++ [c.name]
            else e.departures
          history := (c.receive e.valueCase bytes e.history).history } := by
  unfold Engine.receive
  split
  · exact .inl rfl
  · next c found =>
    obtain ⟨⟨s, live⟩, front, back, split⟩ := connectionOf_split found
    have hc : c ∈ e.registry := split ▸ List.mem_append_right _ List.mem_cons_self
    obtain ⟨i, hi, l, hl, -, -, -, own⟩ := sound.exists_agrees hc
    have stays := own.order.lifecycle.stays live
    obtain ⟨⟨es, steps, mute, still⟩, -⟩ :=
      Connection.receive_between own.order own.incoming stays bytes
    refine .inr ⟨front, back, c, es, split, stays, steps, mute, still, ?_⟩
    simp only [sound.replace_eq split steps.course.name_eq]

/-- Bytes that arrive on a session keep an engine sound. -/
theorem receive (sound : Sound ⟨names, e⟩) (session : Nat) (bytes : Bytes) :
    Sound ⟨names, e.receive session bytes⟩ := by
  rcases sound.receive_eq session bytes with
    lost | ⟨front, back, c, es, split, stays, steps, mute, still, heard⟩
  · rw [lost]
    exact sound
  · have between {waiting : List Command} {l : Life}
        (agrees : c.Agrees e.valueCase waiting l e.history) :=
      (Connection.receive_between agrees.order agrees.incoming stays bytes).2
    have hc : c ∈ e.registry := split ▸ List.mem_append_right _ List.mem_cons_self
    obtain ⟨i, hi, l, hl, -, -, -, own⟩ := sound.exists_agrees hc
    rw [heard]
    refine sound.steps _ _ split steps (fun waiting l _ agrees => ?_) (fun gone => ?_)
      fun past => .inl (still.elim (·.symm.trans past) fun lost => ?_)
    · rw [Life.after_unnamed mute]
      exact ⟨(between agrees).order, (between agrees).incoming⟩
    · exact ⟨stays, (between own).departed_eq ▸ gone⟩
    · rw [lost] at past
      cases past

/-- A session that its peer closes is over already, or its connection loses it. -/
theorem loseSession_eq (sound : Sound ⟨names, e⟩) (session : Nat) :
    e.loseSession session = e ∨ ∃ (front back : List Connection) (c : Connection)
      (es : List Effect), e.registry = front ++ c :: back ∧
        c.Steps e.history es (c.loseSession .lost e.history).1 (c.loseSession .lost e.history).2 ∧
        (∀ entry ∈ es, entry.hears = false) ∧
        (c.loseSession .lost e.history).1.session = none ∧
        (c.loseSession .lost e.history).1.state = .disconnected ∧
        e.loseSession session = e.withLink front (c.loseSession .lost e.history) back := by
  unfold Engine.loseSession
  split
  · exact .inl rfl
  · next c found =>
    obtain ⟨⟨s, live⟩, front, back, split⟩ := connectionOf_split found
    have hc : c ∈ e.registry := split ▸ List.mem_append_right _ List.mem_cons_self
    obtain ⟨i, hi, l, hl, -, -, -, own⟩ := sound.exists_agrees hc
    obtain ⟨es, steps, silent, -⟩ :=
      Connection.lose_leads own.order.lifecycle own.order.flushed (.inl rfl) e.history
    refine .inr ⟨front, back, c, es, split, steps, silent, ?_, ?_, ?_⟩
    · rw [Connection.loseSession_eq own.order.lifecycle live]
    · rw [Connection.loseSession_eq own.order.lifecycle live]
    · simp only [sound.replace_eq split steps.course.name_eq]
      rfl

/-- The end of a session keeps an engine sound. -/
theorem loseSession (sound : Sound ⟨names, e⟩) (session : Nat) :
    Sound ⟨names, e.loseSession session⟩ := by
  rcases sound.loseSession_eq session with
    past | ⟨front, back, c, es, split, steps, silent, idle, state, lost⟩
  · rw [past]
    exact sound
  · rw [lost]
    refine sound.link split steps silent (fun some => ?_) fun past => ?_
    · rw [idle] at some
      cases some
    · rw [state] at past
      cases past

/-- An engine stays sound when nothing changes that its connections depend on. -/
theorem congr {e' : Engine} (sound : Sound ⟨names, e⟩) (registry : e'.registry = e.registry)
    (inboxes : e'.inboxes = e.inboxes) (departures : e'.departures = e.departures)
    (valueCase : e'.valueCase = e.valueCase) (lives : e'.history.lives = e.history.lives)
    (logs : ∀ id, e'.history.log id = e.history.log id)
    (sessions : e'.history.sessions = e.history.sessions) (numbered : e'.history.Numbered)
    (down : e.shutDown = true → e'.shutDown = true) : Sound ⟨names, e'⟩ where
  inboxes := by rw [inboxes, registry]; exact sound.inboxes
  names := by rw [registry]; exact sound.names
  orderly := by
    obtain ⟨apart, opened_lt, covered, -⟩ := sound.orderly
    exact ⟨lives ▸ apart, lives ▸ sessions ▸ opened_lt, lives ▸ sessions ▸ covered, numbered⟩
  alive := by rw [registry, lives]; exact sound.alive
  registered := by rw [registry, lives]; exact sound.registered
  agree := by
    rw [registry, inboxes, lives, valueCase]
    intro c hc i hi l hl inbox its lasts
    exact (sound.agree c hc i hi l hl inbox its lasts).congr (fun id _ => logs id)
      (Nat.le_of_eq sessions.symm) numbered
  settled := by
    rw [lives, valueCase]
    exact fun l hl past => (sound.settled l hl past).congr fun id _ => logs id
  distinct := by rw [departures]; exact sound.distinct
  departed := by rw [departures, registry]; exact sound.departed
  closed := by
    rw [registry]
    exact fun c hc past => down (sound.closed c hc past)

/-- Telling the host something keeps an engine sound. -/
theorem tell (sound : Sound ⟨names, e⟩) (call : HostCall) :
    Sound ⟨names, { e with history := e.history.tell call }⟩ := by
  have on : e.history.GoesOn [.host call] (e.history.tell call) := .record _ rfl
  refine sound.congr rfl rfl rfl rfl ?_ (fun id => rfl) rfl ?_ id
  · refine (History.lives_of_goesOn on (by simp [Effect.configures])).trans ?_
    refine (List.map_congr_left fun l _ => ?_).trans (List.map_id _)
    exact Life.after_unnamed (by simp [Effect.connection?])
  · intro e he id hid
    rcases List.mem_cons.mp he with rfl | he
    · cases hid
    · exact sound.orderly.numbered e he id hid

/-- Dispatching a command keeps an engine sound. -/
theorem dispatch (sound : Sound ⟨names, e⟩) {e' : Engine} {name : String} {command : Command}
    (taken : e.takeCommand name = some (command, e')) :
    Sound ⟨names, { e' with history := e'.history.record (.dispatched name command) }⟩ := by
  obtain ⟨⟨i, hi, rfl, rest, first⟩, rfl⟩ := takeCommand_eq taken
  have mem : i.connection ∈ e.registry.map (·.name) :=
    sound.inboxes ▸ List.mem_map_of_mem hi
  obtain ⟨c, hc, name⟩ := List.mem_map.mp mem
  obtain ⟨front, back, split⟩ := List.append_of_mem hc
  have unique : (e.inboxes.map (·.connection)).Nodup := sound.inboxes ▸ sound.names
  have same : ∀ k ∈ e.inboxes, k.connection = c.name → k = i := fun k hk inbox =>
    List.inj_on_of_nodup_map unique hk hi (inbox.trans name)
  have concerns : ∀ l ∈ e.history.lives, c.Recorded l e.history →
      e.history.Concerns l [.dispatched c.name command]
        (e.history.record (.dispatched c.name command)) :=
    fun l hl rec => rec.name_eq ▸ sound.orderly.dispatched hl rec.present command
  have agrees : ∀ k ∈ e.inboxes, k.connection = c.name → ∀ l ∈ e.history.lives,
      c.Agrees e.valueCase k.commands l e.history →
        c.Agrees e.valueCase k.commands.tail (l.after [.dispatched c.name command])
          (e.history.record (.dispatched c.name command)) := by
    intro k hk inbox l hl agrees
    obtain rfl := same k hk inbox
    rw [first] at agrees ⊢
    exact agrees.dispatched
  rw [← name]
  have changed := sound.change List.tail false split rfl (by simp [Effect.removes]) concerns
    agrees (fun gone => by cases gone) id .inl
  rw [← split] at changed
  exact changed

/-- A departure that is about to be carried out keeps an engine sound. -/
theorem depart (sound : Sound ⟨names, e⟩) {name : String} {rest : List String}
    (departures : e.departures = name :: rest) :
    Sound ⟨name :: names, { e with departures := rest }⟩ := by
  have moved : (name :: names ++ rest).Perm (names ++ e.departures) := by
    rw [departures]
    exact List.perm_middle.symm
  obtain ⟨inboxes, unique, orderly, alive, registered, agree, settled, distinct, departed, closed⟩ :=
    sound
  exact ⟨inboxes, unique, orderly, alive, registered, agree, settled,
    moved.nodup_iff.mpr distinct, fun n hn => departed n (moved.mem_iff.mp hn), closed⟩

private theorem mem_withNew {name : String} {settings : ConnectionSettings} :
    (∀ c, c ∈ (e.withNew name settings).registry ↔
      c ∈ e.registry ∨ c = .new name settings e.connector) ∧
    (∀ i, i ∈ (e.withNew name settings).inboxes ↔ i ∈ e.inboxes ∨ i = ⟨name, []⟩) ∧
    (∀ l, l ∈ (e.withNew name settings).history.lives ↔
      l ∈ e.history.lives ∨ l = .new name) := by
  refine ⟨?_, ?_, ?_⟩
  · intro c
    rw [withNew, List.mem_append, List.mem_singleton]
  · intro i
    rw [withNew, List.mem_append, List.mem_singleton]
  · intro l
    rw [withNew, History.lives_configured, List.mem_append, List.mem_singleton]

/-- A new connection keeps an engine sound. -/
theorem configure (sound : Sound ⟨names, e⟩) {name : String}
    (new : name ∉ e.inboxes.map (·.connection)) (settings : ConnectionSettings) :
    Sound ⟨names, e.withNew name settings⟩ := by
  obtain ⟨registry, inboxes, lives⟩ := @mem_withNew e name settings
  have named : ∀ c ∈ e.registry, c.name ≠ name := fun c hc same =>
    new (sound.inboxes ▸ List.mem_map.mpr ⟨c, hc, same⟩)
  have posted : ∀ i ∈ e.inboxes, i.connection ≠ name := fun i hi same =>
    new (List.mem_map.mpr ⟨i, hi, same⟩)
  have lived : ∀ l ∈ e.history.lives, l.left = false → l.name ≠ name := by
    intro l hl lasts same
    obtain ⟨c, hc, its⟩ := sound.registered l hl lasts
    exact named c hc (its.trans same)
  have orderly := sound.orderly.configured lived
  refine ⟨?_, ?_, orderly, ?_, ?_, ?_, ?_, sound.distinct, ?_, ?_⟩
  · simp only [withNew, List.map_append, List.map_cons, List.map_nil]
    rw [sound.inboxes]
    rfl
  · simp only [withNew, List.map_append, List.map_cons, List.map_nil]
    refine sound.names.append (List.nodup_singleton _) fun n hn here => ?_
    obtain ⟨c, hc, rfl⟩ := List.mem_map.mp hn
    exact named c hc (List.mem_singleton.mp here)
  · intro c hc
    rcases (registry c).mp hc with hc | rfl
    · obtain ⟨l, hl, its⟩ := sound.alive c hc
      exact ⟨l, (lives l).mpr (.inl hl), its⟩
    · exact ⟨.new name, (lives _).mpr (.inr rfl), rfl, rfl⟩
  · intro l hl lasts
    rcases (lives l).mp hl with hl | rfl
    · obtain ⟨c, hc, its⟩ := sound.registered l hl lasts
      exact ⟨c, (registry c).mpr (.inl hc), its⟩
    · exact ⟨_, (registry _).mpr (.inr rfl), rfl⟩
  · intro c hc i hi l hl inbox its lasts
    rcases (registry c).mp hc with hc | rfl
    · have other := named c hc
      have hi := ((inboxes i).mp hi).resolve_right fun same =>
        other (inbox.symm.trans (congrArg Inbox.connection same))
      have hl := ((lives l).mp hl).resolve_right fun same =>
        other (its.symm.trans (congrArg Life.name same))
      exact (sound.agree c hc i hi l hl inbox its lasts).congr (fun id _ => rfl)
        (Nat.le_refl _) orderly.numbered
    · obtain rfl := ((inboxes i).mp hi).resolve_left fun hi => posted i hi inbox
      obtain rfl := ((lives l).mp hl).resolve_left fun hl => lived l hl lasts its
      exact Connection.agrees_new e.valueCase name settings e.connector orderly.numbered
  · intro l hl past
    rcases (lives l).mp hl with hl | rfl
    · exact (sound.settled l hl past).congr fun id _ => rfl
    · cases past
  · intro n hn
    obtain ⟨c, hc, its⟩ := sound.departed n hn
    exact ⟨c, (registry c).mpr (.inl hc), its⟩
  · intro c hc past
    rcases (registry c).mp hc with hc | rfl
    · exact sound.closed c hc past
    · cases past

private theorem mem_eraseP_iff {α : Type} {f : α → String} {xs : List α} {name : String}
    (unique : (xs.map f).Nodup) (x : α) :
    x ∈ xs.eraseP (fun y => f y = name) ↔ x ∈ xs ∧ f x ≠ name := by
  induction xs with
  | nil => simp
  | cons y ys ih =>
    rw [List.map_cons, List.nodup_cons] at unique
    obtain ⟨fresh, unique⟩ := unique
    by_cases own : f y = name
    · rw [List.eraseP_cons_of_pos (by simpa using own), List.mem_cons]
      constructor
      · exact fun hx => ⟨.inr hx, fun same =>
          fresh (List.mem_map.mpr ⟨x, hx, same.trans own.symm⟩)⟩
      · rintro ⟨rfl | hx, other⟩
        · exact absurd own other
        · exact hx
    · rw [List.eraseP_cons_of_neg (by simpa using own), List.mem_cons, List.mem_cons,
        ih unique]
      constructor
      · rintro (rfl | ⟨hx, other⟩)
        · exact ⟨.inl rfl, own⟩
        · exact ⟨.inr hx, other⟩
      · rintro ⟨rfl | hx, other⟩
        · exact .inl rfl
        · exact .inr ⟨hx, other⟩

private theorem empty_of_takeCommand {i : Inbox} (sound : Sound ⟨names, e⟩) (hi : i ∈ e.inboxes)
    (drained : e.takeCommand i.connection = none) : i.commands = [] := by
  have unique : (e.inboxes.map (·.connection)).Nodup := sound.inboxes ▸ sound.names
  unfold takeCommand at drained
  split at drained
  · cases drained
  · next other =>
    cases found : e.inboxes.find? (·.connection = i.connection) with
    | none =>
      have missing := List.find?_eq_none.mp found i hi
      exact absurd (decide_eq_true rfl) missing
    | some k =>
      have named := List.find?_some found
      obtain rfl := List.inj_on_of_nodup_map unique (List.mem_of_find?_eq_some found) hi
        (of_decide_eq_true named)
      cases held : k.commands with
      | nil => rfl
      | cons first rest => exact absurd (found.trans (congrArg some (by rw [← held]))) (other _ _ _)

/-- What belongs to an engine after a connection was taken out. -/
theorem mem_remove (sound : Sound ⟨names, e⟩) (name : String) :
    (∀ c, c ∈ (e.remove name).registry ↔ c ∈ e.registry ∧ c.name ≠ name) ∧
    (∀ i, i ∈ (e.remove name).inboxes ↔ i ∈ e.inboxes ∧ i.connection ≠ name) :=
  ⟨mem_eraseP_iff sound.names, mem_eraseP_iff (sound.inboxes ▸ sound.names)⟩

private theorem map_eraseP {α : Type} (f : α → String) (xs : List α) (name : String) :
    (xs.eraseP fun x => f x = name).map f = (xs.map f).eraseP (· = name) := by
  rw [List.eraseP_map]
  rfl

/-- Removing a connection whose peer said goodbye keeps an engine sound, once its inbox is
empty. -/
theorem remove {name : String} (sound : Sound ⟨name :: names, e⟩)
    (drained : e.takeCommand name = none) : Sound ⟨names, e.remove name⟩ := by
  obtain ⟨c, hc, rfl, departed⟩ := sound.departed name List.mem_cons_self
  obtain ⟨i, hi, l₀, hl₀, inbox, named, present, agrees⟩ := sound.exists_agrees hc
  rw [← inbox] at drained
  rw [sound.empty_of_takeCommand hi drained] at agrees
  obtain ⟨registry, inboxes⟩ := sound.mem_remove c.name
  have only : e.history.Concerns l₀ [.left c.name] (e.remove c.name).history :=
    named ▸ sound.orderly.removed hl₀ present
  have lives : (e.remove c.name).history.lives =
      e.history.lives.map (·.after [.left c.name]) := History.lives_of_goesOn only.on only.stay
  have past : (l₀.after [.left c.name]).left = true := by
    rw [← named, Life.after_left present]
  -- a life that lasts after the removal is another one, and as it was
  have lasting : ∀ l ∈ e.history.lives, (l.after [.left c.name]).left = false →
      l ≠ l₀ ∧ l.name ≠ c.name ∧ l.left = false := by
    intro l hl lasts
    have before := Life.lasted lasts
    have foreign : l ≠ l₀ := by
      rintro rfl
      rw [past] at lasts
      cases lasts
    exact ⟨foreign, fun same => foreign
      (sound.orderly.eq_of_name hl hl₀ before present (same.trans named.symm)), before⟩
  have distinct : c.name ∉ names ++ e.departures ∧ (names ++ e.departures).Nodup :=
    List.nodup_cons.mp sound.distinct
  refine ⟨?_, ?_, sound.orderly.after hl₀ present only, ?_, ?_, ?_, ?_, distinct.2, ?_,
    fun d hd ended => sound.closed d ((registry d).mp hd).1 ended⟩
  · rw [Engine.remove, map_eraseP, map_eraseP, sound.inboxes]
  · rw [Engine.remove, map_eraseP]
    exact sound.names.eraseP _
  · intro d hd
    obtain ⟨hd, other⟩ := (registry d).mp hd
    obtain ⟨l, hl, its, lasts⟩ := sound.alive d hd
    have foreign : l ≠ l₀ := by
      rintro rfl
      exact other (its.symm.trans named)
    exact ⟨l, lives ▸ List.mem_map.mpr ⟨l, hl, only.others l hl foreign⟩, its, lasts⟩
  · intro l' hl' lasts
    obtain ⟨l, hl, rfl⟩ := List.mem_map.mp (lives ▸ hl')
    obtain ⟨-, other, before⟩ := lasting l hl lasts
    obtain ⟨d, hd, its⟩ := sound.registered l hl before
    rw [Life.name_after]
    exact ⟨d, (registry d).mpr ⟨hd, its ▸ other⟩, its⟩
  · intro d hd k hk l' hl' posted its lasts
    obtain ⟨l, hl, rfl⟩ := List.mem_map.mp (lives ▸ hl')
    obtain ⟨foreign, -, before⟩ := lasting l hl lasts
    rw [Life.name_after] at its
    rw [only.others l hl foreign]
    exact (sound.agree d ((registry d).mp hd).1 k ((inboxes k).mp hk).1 l hl posted its
      before).congr (only.logs l hl foreign) only.on.sessions_le only.numbered
  · intro l' hl' ended
    obtain ⟨l, hl, rfl⟩ := List.mem_map.mp (lives ▸ hl')
    by_cases own : l = l₀
    · rw [own]
      exact agrees.settled departed
    · rw [only.others l hl own] at ended ⊢
      exact (sound.settled l hl ended).congr (only.logs l hl own)
  · intro n hn
    obtain ⟨d, hd, its, gone⟩ := sound.departed n (List.mem_cons_of_mem _ hn)
    refine ⟨d, (registry d).mpr ⟨hd, fun same => distinct.1 ?_⟩, its, gone⟩
    rw [← same, its]
    exact hn

end Sound

variable {m m' : Moment} {e e' : Engine}

/-- An act keeps an engine sound. -/
theorem Act.sound {names : List String} (act : e.Act e') (sound : Sound ⟨names, e⟩) :
    Sound ⟨names, e'⟩ := by
  cases act with
  | send message split =>
    obtain ⟨es, steps, silent, still⟩ := Connection.send_leads _ message e.history
    exact sound.link split steps silent (Connection.flushed_flush _ _) fun past => .inl (still past)
  | receive session bytes => exact sound.receive session bytes
  | tell call => exact sound.tell call
  | setPending pending =>
    exact sound.congr rfl rfl rfl rfl rfl (fun _ => rfl) rfl sound.orderly.numbered id

/-- Every move keeps an engine sound. -/
theorem Move.sound (move : Move m m') (sound : Sound m) : Sound m' := by
  cases move with
  | act act => exact act.sound sound
  | connect split =>
    obtain ⟨es, steps, silent, still⟩ := Connection.connect_leads _ _
    exact sound.link split steps silent (Connection.flushed_flush _ _) fun past => .inl (still past)
  | @close names e front back c split down =>
    have hc : c ∈ e.registry := split ▸ List.mem_append_right _ List.mem_cons_self
    have lifecycle := sound.lifecycle hc
    have steps := Connection.close_steps lifecycle e.history
    have closed : (c.close e.history).1.state = .closed := Connection.state_close c e.history
    have idle := ((steps.lifecycle lifecycle).closed closed).1
    refine sound.link split steps (Connection.hears_farewells c) (fun some => ?_) fun _ =>
      .inr down
    rw [idle] at some
    cases some
  | lose session => exact sound.loseSession session
  | wait | setHandlers | setStarted =>
    exact sound.congr rfl rfl rfl rfl rfl (fun _ => rfl) rfl sound.orderly.numbered id
  | setShutDown =>
    exact sound.congr rfl rfl rfl rfl rfl (fun _ => rfl) rfl sound.orderly.numbered fun _ => rfl
  | configure name settings running new => exact sound.configure new settings
  | dispatch name command taken => exact sound.dispatch taken
  | depart name departures => exact sound.depart departures
  | remove name drained => exact sound.remove drained

/-- A chain of moves keeps an engine sound. -/
theorem sound_of_moves (moves : Relation.ReflTransGen Move m m') (sound : Sound m) :
    Sound m' := by
  induction moves with
  | refl => exact sound
  | tail _ move ih => exact move.sound ih

end Backbox.Engine
