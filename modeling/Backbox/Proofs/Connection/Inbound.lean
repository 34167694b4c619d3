import Backbox.Proofs.Command.Wire
import Backbox.Proofs.Connection.Outbound
import Backbox.Proofs.Line.Stream

/-!
# What a connection hears

The lines of the bytes read on the sessions of a connection, session by session, count up to
the first goodbye. Of these the display frames were given to the host, and the commands but
greetings were dispatched or wait to be dispatched. A session's framer holds just the
unfinished line of the bytes read on it.
-/

namespace Backbox

/-- What a line says. -/
inductive Said where
  | frame (payload : Bytes)
  | hello
  | goodbye
  /-- Any other command. -/
  | command (command : Command)
  deriving DecidableEq

/-- What a command says. -/
def Command.said (c : Command) : Said :=
  if c.name = "hello" then .hello else if c.name = "goodbye" then .goodbye else .command c

/-- What a line says. -/
def Line.said (valueCase : ValueCase) (line : Bytes) : Said :=
  match Line.ofBytes line with
  | .frame payload => .frame payload
  | .message text => (Command.ofWire valueCase text).said

/-- A line that told a command is the text that this command is read from. -/
theorem Line.exists_text_of_said {valueCase : ValueCase} {line : Bytes} {c : Command}
    (told : Line.said valueCase line = .command c) :
    Line.ofBytes line = .message (Text.ofBytes line) ∧
      .ofWire valueCase (Text.ofBytes line) = c := by
  unfold Line.said at told
  cases kind : Line.ofBytes line with
  | frame payload =>
    rw [kind] at told
    cases told
  | message text =>
    rw [kind] at told
    obtain rfl : text = Text.ofBytes line := by
      unfold Line.ofBytes at kind
      split at kind
      · cases kind
      · exact (Line.message.inj kind).symm
    refine ⟨rfl, ?_⟩
    simp only [Command.said] at told
    split at told
    · cases told
    · split at told
      · cases told
      · exact Said.command.inj told

/-- A command that a line told is in normal form. -/
theorem Line.isNormal_of_said {valueCase : ValueCase} {line : Bytes} {c : Command}
    (told : Line.said valueCase line = .command c) : c.IsNormal := by
  obtain ⟨-, rfl⟩ := Line.exists_text_of_said told
  exact Command.isNormal_ofWire valueCase _

namespace Said

/-- The payload, if it is a display frame. -/
def payload? : Said → Option Bytes
  | frame payload => some payload
  | hello | goodbye | command _ => none

/-- The command, if it is one that is left to the host's poll. -/
def command? : Said → Option Command
  | command c => some c
  | frame _ | hello | goodbye => none

/-- What counts of what was said: all that comes before a goodbye. -/
def heard (said : List Said) : List Said := said.takeWhile (· ≠ goodbye)

/-- Without a goodbye, everything counts. -/
theorem heard_append {said : List Said} (h : goodbye ∉ said) (more : List Said) :
    heard (said ++ more) = said ++ heard more := by
  refine List.takeWhile_append_of_pos fun s hs => ?_
  rw [decide_eq_true_eq]
  exact fun same => h (same ▸ hs)

/-- Without a goodbye, everything counts. -/
theorem heard_eq {said : List Said} (h : goodbye ∉ said) : heard said = said := by
  have all := heard_append h []
  rw [List.append_nil] at all
  exact all.trans (List.append_nil said)

/-- One more thing that is said counts for what it is, and a goodbye for nothing. -/
theorem filterMap_heard_concat {β : Type} {said : List Said} (h : goodbye ∉ said) (next : Said)
    (f : Said → Option β) (none : f goodbye = none) :
    (heard (said ++ [next])).filterMap f = (heard said).filterMap f ++ (f next).toList := by
  rw [heard_append h, heard_eq h, List.filterMap_append]
  by_cases past : next = goodbye
  · rw [past, none, heard, List.takeWhile_cons_of_neg (by simp)]
    rfl
  · rw [heard, List.takeWhile_cons_of_pos (by simp [past]), List.takeWhile_nil]
    cases hf : f next with
    | none => simp [hf]
    | some b => simp [hf]

/-- After a goodbye, nothing counts. -/
theorem heard_append_of_mem {said : List Said} (h : goodbye ∈ said) (more : List Said) :
    heard (said ++ more) = heard said := by
  induction said with
  | nil => exact absurd h List.not_mem_nil
  | cons s rest ih =>
    unfold heard at ih ⊢
    rw [List.cons_append, List.takeWhile_cons, List.takeWhile_cons]
    split
    · next other =>
      rw [decide_eq_true_eq] at other
      rcases List.mem_cons.mp h with same | h
      · exact absurd same.symm other
      · rw [ih h]
    · rfl

end Said

namespace SessionLog

/-- Entries in which nothing is heard leave what was read and shown on a session. -/
theorem after_silent {id : Nat} (log : SessionLog) {es : List Effect}
    (h : ∀ e ∈ es, e.hears = false) :
    (log.after id es).bytes = log.bytes ∧ (log.after id es).frames = log.frames := by
  induction es generalizing log with
  | nil => exact ⟨rfl, rfl⟩
  | cons e rest ih =>
    have first : (log.note id e).bytes = log.bytes ∧ (log.note id e).frames = log.frames := by
      have silent := h e List.mem_cons_self
      cases e with
      | read | framed => exact absurd silent (by simp [Effect.hears])
      | wrote | closed =>
        simp only [note]
        split <;> exact ⟨rfl, rfl⟩
      | configured | left | dialled | accepted | dispatched | host => exact ⟨rfl, rfl⟩
    obtain ⟨bytes, frames⟩ := ih (log.note id e) fun e he => h e (List.mem_cons_of_mem _ he)
    exact ⟨bytes.trans first.1, frames.trans first.2⟩

end SessionLog

namespace History

/-- The lines of the bytes that were read on some sessions, session by session. -/
def linesRead (h : History) (ids : List Nat) : List Bytes :=
  ids.flatMap fun id => Line.linesOf (h.log id).bytes

/-- The display frames of some sessions, session by session. -/
def framesShown (h : History) (ids : List Nat) : List Bytes :=
  ids.flatMap fun id => (h.log id).frames

/-- What was read on sessions whose logs stay the same stays the same. -/
theorem linesRead_congr {h h' : History} {ids : List Nat}
    (same : ∀ id ∈ ids, (h'.log id).bytes = (h.log id).bytes) :
    h'.linesRead ids = h.linesRead ids :=
  congrArg List.flatten (List.map_congr_left fun id hid => congrArg Line.linesOf (same id hid))

/-- What was shown of sessions whose logs stay the same stays the same. -/
theorem framesShown_congr {h h' : History} {ids : List Nat}
    (same : ∀ id ∈ ids, (h'.log id).frames = (h.log id).frames) :
    h'.framesShown ids = h.framesShown ids :=
  congrArg List.flatten (List.map_congr_left same)

end History

namespace Connection

/-- What became of everything that the peer of a connection said. -/
structure Heard (said : List Said) (c : Connection) (waiting : List Command) (l : Life)
    (h : History) : Prop where
  frames : h.framesShown l.opened = (Said.heard said).filterMap Said.payload?
  commands : (Said.heard said).filterMap Said.command? = l.dispatched ++ waiting
  parted : c.departed = true ↔ .goodbye ∈ said

/-- The framer of the session holds the unfinished line of what was read on it. -/
def InStep (c : Connection) (h : History) : Prop :=
  ∀ s, c.session = some s →
    s.framer = ⟨defaultFragmentLimit, (Line.unfinished (h.log s.id).bytes).toArray⟩

/-- A connection and what it heard, between two reads. -/
structure Incoming (valueCase : ValueCase) (c : Connection) (waiting : List Command) (l : Life)
    (h : History) : Prop where
  heard : c.Heard ((h.linesRead l.opened).map (Line.said valueCase)) waiting l h
  inStep : c.InStep h

variable {valueCase : ValueCase} {c c' : Connection} {h h' : History} {es : List Effect}
  {l l' : Life} {waiting : List Command}

-- What was heard stays so as long as nothing is heard and nothing is dispatched. Sessions may
-- be opened meanwhile.
private theorem Incoming.keep {new : List Nat} (inc : c.Incoming valueCase waiting l h)
    (on : h.GoesOn es h') (silent : ∀ e ∈ es, e.hears = false)
    (opened : l'.opened = l.opened ++ new) (blank : ∀ id ∈ new, h'.log id = .empty)
    (dispatched : l'.dispatched = l.dispatched) (departed : c'.departed = c.departed)
    (still : ∀ t, c'.session = some t →
      c.session = some t ∨ t.framer = .new ∧ h'.log t.id = .empty) :
    c'.Incoming valueCase waiting l' h' := by
  have same (id : Nat) : (h'.log id).bytes = (h.log id).bytes ∧
      (h'.log id).frames = (h.log id).frames := by
    rw [History.log_of_goesOn on]
    exact SessionLog.after_silent _ silent
  have lines : h'.linesRead l'.opened = h.linesRead l.opened := by
    have none : h'.linesRead new = [] := List.flatMap_eq_nil_iff.mpr fun id hid => by
      rw [blank id hid]
      rfl
    rw [opened, History.linesRead, List.flatMap_append]
    change h'.linesRead l.opened ++ h'.linesRead new = _
    rw [none, List.append_nil, History.linesRead_congr fun id _ => (same id).1]
  have frames : h'.framesShown l'.opened = h.framesShown l.opened := by
    have none : h'.framesShown new = [] := List.flatMap_eq_nil_iff.mpr fun id hid => by
      rw [blank id hid]
      rfl
    rw [opened, History.framesShown, List.flatMap_append]
    change h'.framesShown l.opened ++ h'.framesShown new = _
    rw [none, List.append_nil, History.framesShown_congr fun id _ => (same id).2]
  constructor
  · rw [lines]
    refine ⟨frames.trans inc.heard.frames, ?_, departed ▸ inc.heard.parted⟩
    rw [dispatched]
    exact inc.heard.commands
  · intro t ht
    rcases still t ht with live | ⟨new, empty⟩
    · rw [(same t.id).1]
      exact inc.inStep t live
    · rw [new, empty]
      rfl

/-- A step in which nothing is heard changes nothing about what was heard. -/
theorem Step.incoming (step : c.Step h es c' h') (silent : ∀ e ∈ es, e.hears = false)
    (rec : c.Recorded l h) (numbered : h.Numbered) (inc : c.Incoming valueCase waiting l h) :
    c'.Incoming valueCase waiting (l.after es) h' := by
  have none : ∀ id ∈ ([] : List Nat), h'.log id = .empty := fun _ hid =>
    absurd hid List.not_mem_nil
  have all : l.opened = l.opened ++ [] := (List.append_nil _).symm
  cases step with
  | gaveUp unsettled exhausted =>
    exact inc.keep (.refl h) silent all none rfl rfl fun t ht => .inl ht
  | failed now calls unsettled left on =>
    obtain ⟨state, queue, -, failed⟩ := c.fail_eq now
    rw [rec.after_failed, failed]
    exact inc.keep on silent all none rfl rfl fun t ht => .inl ht
  | opened unsettled left on =>
    have fresh : h'.log h.sessions = .empty :=
      (History.log_of_goesOn on _).trans (History.log_unopened numbered (Nat.le_refl _))
    rw [rec.after_opened]
    refine inc.keep on silent rfl (fun id hid => ?_) rfl rfl fun t ht => .inr ?_
    · rw [List.mem_singleton.mp hid]
      exact fresh
    · obtain rfl : _ = t := Option.some.inj ht
      exact ⟨rfl, fresh⟩
  | accepted message available on =>
    rw [rec.after_accepted]
    exact inc.keep on silent all none rfl rfl fun t ht => .inl ht
  | flushed s live on =>
    rw [Life.after_unnamed (by simp [Effect.connection?])]
    exact inc.keep on silent all none rfl rfl fun t ht => .inl ht
  | closedIdle idle =>
    exact inc.keep (.refl h) silent all none rfl rfl fun t ht => .inl ht
  | closedLive s live on =>
    rw [Life.after_unnamed (by simp [Effect.connection?, or_imp, forall_and])]
    exact inc.keep on silent all none rfl rfl fun t ht => by cases ht
  | lost s cause live flushed unasked on =>
    rw [Life.after_unnamed (by simp [Effect.connection?])]
    exact inc.keep on silent all none rfl rfl fun t ht => by cases ht
  | departed s calls live flushed on =>
    exact absurd (silent _ List.mem_cons_self) (by simp [Effect.hears])
  | heard s framer bytes live on =>
    exact absurd (silent _ List.mem_cons_self) (by simp [Effect.hears])
  | framed s payload live on =>
    exact absurd (silent _ List.mem_cons_self) (by simp [Effect.hears])

end Connection

end Backbox
