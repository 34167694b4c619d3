import Backbox.Proofs.History.Journal

/-!
# The lives on record

The lives that the journal tells of share no session, and no name while they last. Together
they opened all the sessions there are. This stays so as long as entries concern one life
at a time. Lives are only ever added, and those that last tell which connections there are.
-/

namespace Backbox

/-- Two lives are apart: they share no session, and no name while both last. -/
structure Life.Apart (l m : Life) : Prop where
  sessions : ∀ id ∈ l.opened, id ∉ m.opened
  names : l.left = false → m.left = false → l.name ≠ m.name

theorem Life.Apart.symm {l m : Life} (apart : l.Apart m) : m.Apart l where
  sessions id hid hid' := apart.sessions id hid' hid
  names hm hl same := apart.names hl hm same.symm

namespace History

/-- Every session that the journal tells of has been opened. -/
def Numbered (h : History) : Prop :=
  ∀ e ∈ h.journal, ∀ id, e.session? = some id → id < h.sessions

/-- Nothing is told of a session that has not been opened. -/
theorem log_unopened {h : History} (numbered : h.Numbered) {id : Nat} (new : h.sessions ≤ id) :
    h.log id = .empty := by
  rw [log_eq_after]
  refine SessionLog.after_of_ne _ fun e he same => ?_
  have := numbered e (List.mem_reverse.mp he) id same
  omega

/-- The lives on record are apart, and every session belongs to one of them. -/
structure Orderly (h : History) : Prop where
  apart : h.lives.Pairwise Life.Apart
  opened_lt : ∀ l ∈ h.lives, ∀ id ∈ l.opened, id < h.sessions
  covered : ∀ id < h.sessions, ∃ l ∈ h.lives, id ∈ l.opened
  numbered : h.Numbered

/-- Nothing is on record before anything happened. -/
theorem orderly_start : start.Orderly where
  apart := .nil
  opened_lt _ hl := absurd hl List.not_mem_nil
  covered _ hid := absurd hid (Nat.not_lt_zero _)
  numbered _ he := absurd he List.not_mem_nil

/-- Entries concern one life: those that name a connection name its, and sessions that are
opened are opened for it. -/
structure Concerns (h : History) (l : Life) (es : List Effect) (h' : History) : Prop where
  on : h.GoesOn es h'
  stay : ∀ e ∈ es, e.configures = false
  others : ∀ k ∈ h.lives, k ≠ l → k.after es = k
  logs : ∀ k ∈ h.lives, k ≠ l → ∀ id ∈ k.opened, h'.log id = h.log id
  opened : (l.after es).opened = l.opened ++ List.range' h.sessions (h'.sessions - h.sessions)
  numbered : h'.Numbered

namespace Orderly

variable {h h' : History} {es : List Effect} {l k : Life}

/-- Two different lives on record are apart. -/
theorem apart_of_mem (orderly : h.Orderly) (hl : l ∈ h.lives) (hk : k ∈ h.lives)
    (differ : l ≠ k) : l.Apart k := by
  let Differ (l k : Life) : Prop := l ≠ k → l.Apart k
  have apart : h.lives.Pairwise Differ := orderly.apart.imp (S := Differ) fun apart _ => apart
  have flipped : h.lives.Pairwise (flip Differ) :=
    orderly.apart.imp (S := flip Differ) fun apart _ => apart.symm
  exact apart.forall_of_forall_of_flip (fun _ _ differ => absurd rfl differ) flipped hl hk differ

/-- Two lives of one name that both last are one. -/
theorem eq_of_name (orderly : h.Orderly) (hl : l ∈ h.lives) (hk : k ∈ h.lives)
    (present : l.left = false) (present' : k.left = false) (same : l.name = k.name) : l = k := by
  by_cases differ : l = k
  · exact differ
  · exact absurd same ((orderly.apart_of_mem hl hk differ).names present present')

/-- A session belongs to one life only. -/
theorem eq_of_session (orderly : h.Orderly) (hl : l ∈ h.lives) (hk : k ∈ h.lives) {id : Nat}
    (mine : id ∈ l.opened) (its : id ∈ k.opened) : l = k := by
  by_cases differ : l = k
  · exact differ
  · exact absurd its ((orderly.apart_of_mem hl hk differ).sessions id mine)

/-- An entry that names the connection of a life, and no session, concerns this life alone. -/
theorem concerns (orderly : h.Orderly) (mem : l ∈ h.lives) (present : l.left = false)
    {e : Effect} (named : e.connection? = some l.name) (quiet : e.opens = false)
    (stay : e.configures = false) (unnumbered : e.session? = none)
    (opened : (l.after [e]).opened = l.opened) : h.Concerns l [e] (h.record e) where
  on := .record h quiet
  stay := by simp [stay]
  others k hk differ := by
    refine Life.after_of_other fun e' he' => ?_
    rw [List.mem_singleton.mp he', named]
    by_cases lasts : k.left = false
    · exact .inr fun same => differ
        (orderly.eq_of_name hk mem lasts present (Option.some.inj same).symm)
    · exact .inl (eq_true_of_ne_false lasts)
  logs k _ _ id _ := by
    rw [log_of_goesOn (.record h quiet), SessionLog.after_of_ne]
    simp [unnumbered]
  opened := by
    change (l.after [e]).opened = l.opened ++ List.range' h.sessions (h.sessions - h.sessions)
    rw [opened, Nat.sub_self, List.range'_zero, List.append_nil]
  numbered e' he' id hid := by
    rcases List.mem_cons.mp he' with rfl | he'
    · rw [unnumbered] at hid
      cases hid
    · exact orderly.numbered e' he' id hid

/-- The lives stay orderly when entries concern one of them. -/
theorem after (orderly : h.Orderly) (mem : l ∈ h.lives) (present : l.left = false)
    (concerns : h.Concerns l es h') : h'.Orderly := by
  obtain ⟨on, stay, others, -, opened, numbered⟩ := concerns
  have lives := lives_of_goesOn on stay
  have more := on.sessions
  have origin : ∀ k ∈ h.lives, ∀ id ∈ (k.after es).opened,
      id ∈ k.opened ∨ k = l ∧ h.sessions ≤ id ∧ id < h'.sessions := by
    intro k hk id hid
    by_cases own : k = l
    · rw [own, opened, List.mem_append, List.mem_range'_1] at hid
      refine hid.imp (own ▸ ·) fun new => ⟨own, new.1, ?_⟩
      omega
    · exact .inl (others k hk own ▸ hid)
  refine ⟨?_, ?_, ?_, numbered⟩
  · rw [lives]
    refine List.pairwise_map.mpr (orderly.apart.imp_of_mem fun {k m} hk hm apart => ⟨?_, ?_⟩)
    · intro id hid hid'
      rcases origin k hk id hid with old | ⟨rfl, new, -⟩ <;>
        rcases origin m hm id hid' with old' | ⟨same, new', -⟩
      · exact apart.sessions id old old'
      · have := orderly.opened_lt k hk id old
        omega
      · have := orderly.opened_lt m hm id old'
        omega
      · exact apart.names present (same ▸ present) (by rw [same])
    · rw [Life.name_after, Life.name_after]
      exact fun lasts lasts' => apart.names (Life.lasted lasts) (Life.lasted lasts')
  · intro k' hk' id hid
    rw [lives] at hk'
    obtain ⟨k, hk, rfl⟩ := List.mem_map.mp hk'
    rcases origin k hk id hid with old | ⟨-, -, new⟩
    · have := orderly.opened_lt k hk id old
      omega
    · exact new
  · intro id hid
    rw [lives]
    by_cases old : id < h.sessions
    · obtain ⟨k, hk, mem⟩ := orderly.covered id old
      refine ⟨k.after es, List.mem_map_of_mem hk, ?_⟩
      by_cases own : k = l
      · rw [own, opened]
        exact List.mem_append_left _ (own ▸ mem)
      · rw [others k hk own]
        exact mem
    · refine ⟨l.after es, List.mem_map_of_mem mem, ?_⟩
      rw [opened]
      exact List.mem_append_right _ (List.mem_range'_1.mpr (by omega))

/-- A command that is dispatched concerns the life of its connection alone. -/
theorem dispatched (orderly : h.Orderly) (mem : l ∈ h.lives) (present : l.left = false)
    (command : Command) :
    h.Concerns l [.dispatched l.name command] (h.record (.dispatched l.name command)) :=
  orderly.concerns mem present rfl rfl rfl rfl (by rw [Life.after_dispatched present])

/-- The removal of a connection concerns its life alone. -/
theorem removed (orderly : h.Orderly) (mem : l ∈ h.lives) (present : l.left = false) :
    h.Concerns l [.left l.name] (h.record (.left l.name)) :=
  orderly.concerns mem present rfl rfl rfl rfl (by rw [Life.after_left present])

/-- The lives stay orderly when one begins whose name no life has that lasts. -/
theorem configured (orderly : h.Orderly) {name : String}
    (new : ∀ l ∈ h.lives, l.left = false → l.name ≠ name) :
    (h.record (.configured name)).Orderly := by
  have lives := lives_configured h name
  constructor
  · rw [lives]
    refine List.pairwise_append.mpr ⟨orderly.apart, List.pairwise_singleton _ _, ?_⟩
    intro l hl k hk
    rw [List.mem_singleton.mp hk]
    exact ⟨fun _ _ => List.not_mem_nil, fun lasts _ => new l hl lasts⟩
  · intro l hl
    rw [lives] at hl
    rcases List.mem_append.mp hl with hl | hl
    · exact orderly.opened_lt l hl
    · rw [List.mem_singleton.mp hl]
      exact fun _ hid => absurd hid List.not_mem_nil
  · intro id hid
    obtain ⟨l, hl, mem⟩ := orderly.covered id hid
    rw [lives]
    exact ⟨l, List.mem_append_left _ hl, mem⟩
  · intro e he id hid
    rcases List.mem_cons.mp he with rfl | he
    · cases hid
    · exact orderly.numbered e he id hid

end Orderly

variable {h h' : History} {es : List Effect}

/-- Lives are only ever added, each after those that began before it. -/
theorem exists_lives_append (on : h.GoesOn es h') :
    ∃ newer, h'.lives = h.lives.map (·.after es) ++ newer := by
  have same : h'.lives = (h.recordAll es).lives := by
    rw [lives, lives, on.journal, recordAll_eq]
  rw [same]
  clear same on
  induction es generalizing h with
  | nil => exact ⟨[], by simp [Life.after, recordAll]⟩
  | cons e rest ih =>
    obtain ⟨first, one⟩ : ∃ first, (h.record e).lives = h.lives.map (·.note e) ++ first := ⟨_, rfl⟩
    obtain ⟨newer, others⟩ := ih (h := h.record e)
    refine ⟨first.map (·.after rest) ++ newer, others.trans ?_⟩
    rw [one, List.map_append, List.append_assoc, List.map_map]
    rfl

/-- Connections that are added together begin their lives in this order. -/
theorem lives_recordAll_configured (h : History) (names : List String) :
    (h.recordAll (names.map .configured)).lives = h.lives ++ names.map .new := by
  induction names generalizing h with
  | nil => exact (List.append_nil _).symm
  | cons name rest ih =>
    change ((h.record (.configured name)).recordAll (rest.map .configured)).lives = _
    rw [ih, lives_configured, List.append_assoc]
    rfl

/-- The names of the connections that were added and not removed, in the order in which they were
added. -/
def present (h : History) : List String := (h.lives.filter (!·.left)).map (·.name)

/-- The connections stay the same while none is added or removed. -/
theorem present_of_goesOn (on : h.GoesOn es h')
    (stay : ∀ e ∈ es, e.configures = false ∧ e.removes = false) : h'.present = h.present := by
  have lasting : (fun l : Life => !l.left) ∘ (·.after es) = fun l : Life => !l.left :=
    funext fun l => congrArg (!·) (Life.left_after l fun e he => (stay e he).2)
  have named : (fun l : Life => l.name) ∘ (·.after es) = fun l : Life => l.name :=
    funext fun l => Life.name_after l es
  rw [present, lives_of_goesOn on fun e he => (stay e he).1, List.filter_map, lasting, List.map_map,
    named]
  rfl

/-- A connection that is added is the last one. -/
theorem present_configured (h : History) (name : String) :
    (h.record (.configured name)).present = h.present ++ [name] := by
  rw [present, lives_configured, List.filter_append, List.map_append]
  rfl

/-- A connection that is removed is taken out, and the others keep their order. -/
theorem present_left (h : History) (name : String) :
    (h.record (.left name)).present = h.present.filter (· ≠ name) := by
  have on : h.GoesOn [.left name] (h.record (.left name)) := .record h rfl
  have lasting : (fun l : Life => !l.left) ∘ (·.after [.left name]) =
      fun l : Life => decide (l.name ≠ name) && !l.left := by
    funext l
    cases past : l.left with
    | true => simp [Life.after_of_other fun _ _ => .inl past, past]
    | false =>
      by_cases own : l.name = name
      · simp [← own, Life.after_left past]
      · have other : l.after [.left name] = l :=
          Life.after_of_other fun e he => .inr (by simp [List.mem_singleton.mp he,
            Effect.connection?, Ne.symm own])
        simp [other, past, own]
  have named : (fun l : Life => l.name) ∘ (·.after [.left name]) = fun l : Life => l.name :=
    funext fun l => Life.name_after l _
  rw [present, lives_of_goesOn on (by simp [Effect.configures]), List.filter_map, lasting,
    List.map_map, named, present, List.filter_map, List.filter_filter]
  rfl

end History

end Backbox
