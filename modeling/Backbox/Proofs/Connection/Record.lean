import Backbox.Proofs.Connection.Steps
import Backbox.Proofs.History.Lives

/-!
# Connections and their records

A connection that belongs to the engine has a life on record. The record names the sessions
that the connection opened, the live one last, and every session in the journal has been
opened before.
-/

namespace Backbox

namespace Connection

/-- The life that is on record for a connection. -/
structure Recorded (c : Connection) (l : Life) (h : History) : Prop where
  name_eq : l.name = c.name
  present : l.left = false
  opened_lt : ∀ id ∈ l.opened, id < h.sessions
  distinct : l.opened.Nodup
  /-- The live session is the one that was opened last. -/
  last : ∀ s, c.session = some s → l.opened.getLast? = some s.id

variable {c c' : Connection} {h h' : History} {es : List Effect} {l : Life}

/-- A live session is on record. -/
theorem Recorded.mem_opened (rec : c.Recorded l h) {s : Session} (live : c.session = some s) :
    s.id ∈ l.opened :=
  List.mem_of_getLast? (rec.last s live)

/-- A live session is the last one on record. -/
theorem Recorded.eq_append (rec : c.Recorded l h) {s : Session} (live : c.session = some s) :
    ∃ earlier, l.opened = earlier ++ [s.id] ∧ s.id ∉ earlier := by
  obtain ⟨earlier, split⟩ := List.getLast?_eq_some_iff.mp (rec.last s live)
  have distinct := rec.distinct
  rw [split] at distinct
  exact ⟨earlier, split, fun mem =>
    (List.nodup_append.mp distinct).2.2 s.id mem s.id List.mem_cons_self rfl⟩

/-- What is gathered on the sessions of a connection grows by what the live session adds. -/
theorem Recorded.flatMap_log {β : Type} (rec : c.Recorded l h) {s : Session}
    (live : c.session = some s) (apart : ∀ id, id ≠ s.id → h'.log id = h.log id)
    (gather : SessionLog → List β) {more : List β}
    (own : gather (h'.log s.id) = gather (h.log s.id) ++ more) :
    l.opened.flatMap (fun id => gather (h'.log id)) =
      l.opened.flatMap (fun id => gather (h.log id)) ++ more := by
  obtain ⟨earlier, opened, notMem⟩ := rec.eq_append live
  have before : earlier.flatMap (fun id => gather (h'.log id)) =
      earlier.flatMap fun id => gather (h.log id) := by
    refine congrArg List.flatten (List.map_congr_left fun id hid => ?_)
    rw [apart id fun same => notMem (same ▸ hid)]
  rw [opened, List.flatMap_append, List.flatMap_append, before, List.flatMap_singleton,
    List.flatMap_singleton, own, List.append_assoc]

/-- A course tells only of sessions that have been opened. -/
theorem Course.history_numbered (course : c.Course h es c' h') (numbered : h.Numbered)
    (bound : ∀ s, c.session = some s → s.id < h.sessions) : h'.Numbered := by
  intro e he id hid
  have more := course.on.sessions
  rw [course.on.journal] at he
  rcases List.mem_append.mp he with he | he
  · rcases course.numbered e (List.mem_reverse.mp he) id hid with ⟨s, live, rfl⟩ | new
    · have := bound s live
      omega
    · exact new.2
  · have := numbered e he id hid
    omega

/-- An attempt that fails is not taken down. -/
theorem Recorded.after_failed (rec : c.Recorded l h) (calls : List HostCall) :
    l.after (.dialled ⟨c.name, c.settings, none⟩ :: calls.map .host) = l := by
  have attempt : l.after [.dialled ⟨c.name, c.settings, none⟩] = l := by
    rw [← rec.name_eq, Life.after_dialled rec.present]
    simp
  have host : l.after (calls.map .host) = l :=
    Life.after_unnamed (by simp [Effect.connection?])
  rw [← List.singleton_append, Life.after_append, attempt, host]

/-- An attempt that succeeds adds a session. -/
theorem Recorded.after_opened (rec : c.Recorded l h) (id : Nat) :
    l.after [.dialled ⟨c.name, c.settings, some id⟩] = { l with opened := l.opened ++ [id] } := by
  rw [← rec.name_eq, Life.after_dialled rec.present]
  rfl

/-- A message that is accepted is taken down. -/
theorem Recorded.after_accepted (rec : c.Recorded l h) (message : String) :
    l.after [.accepted c.name message] = { l with accepted := l.accepted ++ [message] } := by
  rw [← rec.name_eq, Life.after_accepted rec.present]

-- A step that opens no session keeps the record as long as no other session is live after it.
private theorem Recorded.keep (rec : c.Recorded l h) (on : h.GoesOn es h')
    (same : (l.after es).opened = l.opened) (stay : ∀ e ∈ es, e.removes = false)
    (name : c'.name = c.name)
    (still : ∀ t, c'.session = some t → ∃ s, c.session = some s ∧ s.id = t.id) :
    c'.Recorded (l.after es) h' where
  name_eq := by rw [Life.name_after, rec.name_eq, name]
  present := by rw [Life.left_after l stay, rec.present]
  opened_lt id hid := by
    have more := on.sessions
    have old := rec.opened_lt id (same ▸ hid)
    omega
  distinct := by rw [same]; exact rec.distinct
  last t ht := by
    obtain ⟨s, live, id⟩ := still t ht
    rw [same, ← id]
    exact rec.last s live

/-- Every step keeps the record. -/
theorem Step.recorded (step : c.Step h es c' h') (rec : c.Recorded l h) :
    c'.Recorded (l.after es) h' := by
  have course := step.course
  have stay : ∀ e ∈ es, e.removes = false := fun e he => (course.stay e he).2.1
  cases step with
  | gaveUp unsettled exhausted =>
    exact rec.keep course.on rfl stay rfl fun t ht => ⟨t, ht, rfl⟩
  | failed now calls unsettled left on =>
    obtain ⟨state, queue, -, failed⟩ := c.fail_eq now
    rw [failed]
    exact rec.keep on (by rw [rec.after_failed]) stay rfl fun t ht => ⟨t, ht, rfl⟩
  | opened unsettled left on =>
    have more : h'.sessions = h.sessions + 1 := on.sessions
    rw [rec.after_opened]
    refine ⟨rec.name_eq, rec.present, ?_, ?_, ?_⟩
    · intro id hid
      rcases List.mem_append.mp hid with hid | hid
      · have := rec.opened_lt id hid
        omega
      · have := List.mem_singleton.mp hid
        omega
    · refine List.nodup_append.mpr ⟨rec.distinct, List.pairwise_singleton _ _, ?_⟩
      intro id hid new hnew same
      have := rec.opened_lt id hid
      have := List.mem_singleton.mp hnew
      omega
    · intro s hs
      obtain rfl : _ = s := Option.some.inj hs
      exact List.getLast?_concat
  | accepted message available on =>
    exact rec.keep on (by rw [rec.after_accepted]) stay rfl fun t ht => ⟨t, ht, rfl⟩
  | flushed s live on =>
    refine rec.keep on ?_ stay rfl fun t ht => ⟨t, ht, rfl⟩
    rw [Life.after_unnamed (by simp [Effect.connection?])]
  | closedIdle idle => exact rec.keep course.on rfl stay rfl fun t ht => ⟨t, ht, rfl⟩
  | closedLive s live on =>
    refine rec.keep on ?_ stay rfl fun t ht => by cases ht
    rw [Life.after_unnamed (by simp [Effect.connection?, or_imp, forall_and])]
  | lost s cause live flushed unasked on =>
    refine rec.keep on ?_ stay rfl fun t ht => by cases ht
    rw [Life.after_unnamed (by simp [Effect.connection?])]
  | departed s calls live flushed on =>
    refine rec.keep on ?_ stay rfl fun t ht => by cases ht
    rw [Life.after_unnamed (by simp [Effect.connection?])]
  | heard s framer bytes live on =>
    refine rec.keep on ?_ stay rfl fun t ht => ⟨s, live, by rw [← Option.some.inj ht]⟩
    rw [Life.after_unnamed (by simp [Effect.connection?])]
  | framed s payload live on =>
    refine rec.keep on ?_ stay rfl fun t ht => ⟨t, ht, rfl⟩
    rw [Life.after_unnamed (by simp [Effect.connection?])]

/-- A step adds the sessions that it opens to the record. -/
theorem Step.opened_after (step : c.Step h es c' h') (rec : c.Recorded l h) :
    (l.after es).opened = l.opened ++ List.range' h.sessions (es.countP Effect.opens) := by
  -- steps that open no session, and whose entries the record does not take down
  have quiet (same : l.after es = l) (none : ∀ e ∈ es, e.opens = false) :
      (l.after es).opened = l.opened ++ List.range' h.sessions (es.countP Effect.opens) := by
    rw [same, List.countP_eq_zero.mpr fun e he => Bool.eq_false_iff.mp (none e he),
      List.range'_zero, List.append_nil]
  cases step with
  | gaveUp | closedIdle => exact quiet rfl fun _ he => absurd he List.not_mem_nil
  | failed now calls unsettled left on =>
    exact quiet (rec.after_failed calls) (by simp [Effect.opens])
  | opened unsettled left on =>
    rw [rec.after_opened]
    rfl
  | accepted message available on =>
    rw [rec.after_accepted]
    exact (List.append_nil _).symm
  | flushed | closedLive | lost | departed | heard | framed =>
    refine quiet (Life.after_unnamed ?_) ?_
    · simp [Effect.connection?, or_imp, forall_and]
    · simp [Effect.opens, or_imp, forall_and]

/-- A chain of steps adds the sessions that it opens to the record. -/
theorem Steps.opened_after (steps : c.Steps h es c' h') (rec : c.Recorded l h) :
    (l.after es).opened = l.opened ++ List.range' h.sessions (h'.sessions - h.sessions) := by
  have more := steps.course.on.sessions
  have total : h'.sessions - h.sessions = es.countP Effect.opens := by omega
  rw [total]
  clear more total
  induction steps generalizing l with
  | none => exact (List.append_nil _).symm
  | cons step _ ih =>
    rw [Life.after_append, ih (step.recorded rec),
      step.opened_after rec, step.course.on.sessions, List.countP_append,
      List.append_assoc, List.range'_append_1]

/-- A chain of steps concerns the life of its connection alone. -/
theorem Steps.concerns (steps : c.Steps h es c' h') (rec : c.Recorded l h)
    (orderly : h.Orderly) (mem : l ∈ h.lives) : h.Concerns l es h' := by
  have course := steps.course
  have bound : ∀ s, c.session = some s → s.id < h.sessions :=
    fun s live => rec.opened_lt s.id (rec.mem_opened live)
  refine ⟨course.on, fun e he => (course.stay e he).1, ?_, ?_, steps.opened_after rec,
    course.history_numbered orderly.numbered bound⟩
  · intro k hk differ
    refine Life.after_of_other fun e he => ?_
    by_cases lasts : k.left = false
    · refine .inr fun named => differ ?_
      have same := course.named e he _ named
      exact orderly.eq_of_name hk mem lasts rec.present (same.trans rec.name_eq.symm)
    · exact .inl (eq_true_of_ne_false lasts)
  · intro k hk differ id hid
    rw [History.log_of_goesOn course.on]
    refine SessionLog.after_of_ne _ fun e he same => ?_
    rcases course.numbered e he id same with ⟨s, live, rfl⟩ | new
    · exact differ (orderly.eq_of_session hk mem hid (rec.mem_opened live))
    · have := orderly.opened_lt k hk id hid
      omega

end Connection

end Backbox
