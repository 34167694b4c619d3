import Backbox.History

/-!
# What the journal tells

The journal is read in two ways. The log of a session gathers what was written, read and
shown on it and how it ended. The lives are those of connections, each from the entry that
adds the connection to the entry that removes it; a name that is used again begins a new
life.
-/

namespace Backbox

namespace Effect

/-- The session that an entry is about. -/
def session? : Effect → Option Nat
  | .dialled dial => dial.session
  | .wrote session _ | .closed session _ | .read session _ | .framed session _ => some session
  | .configured _ | .left _ | .accepted .. | .dispatched .. | .host _ => none

/-- The connection that an entry names. -/
def connection? : Effect → Option String
  | .configured connection | .left connection => some connection
  | .accepted connection _ | .dispatched connection _ => some connection
  | .dialled dial => some dial.connection
  | .wrote .. | .closed .. | .read .. | .framed .. | .host _ => none

/-- Whether an entry opens a session. -/
def opens : Effect → Bool
  | .dialled dial => dial.session.isSome
  | _ => false

/-- Whether an entry adds a connection. -/
def configures : Effect → Bool
  | .configured _ => true
  | _ => false

/-- Whether an entry removes a connection. -/
def removes : Effect → Bool
  | .left _ => true
  | _ => false

/-- Whether an entry tells of an attempt to reach a peer. -/
def dials : Effect → Bool
  | .dialled _ => true
  | _ => false

/-- Whether an entry tells that a connection accepted a message. -/
def accepts : Effect → Bool
  | .accepted .. => true
  | _ => false

/-- Whether an entry tells that a command was dispatched. -/
def dispatches : Effect → Bool
  | .dispatched .. => true
  | _ => false

/-- Whether an entry tells of something that a peer said. -/
def hears : Effect → Bool
  | .read .. | .framed .. | .closed _ .farewell => true
  | _ => false

/-- An entry leaves a name untried: it neither adds a connection of this name nor tells of an
attempt on it. -/
def Untried (name : String) (e : Effect) : Prop :=
  e.connection? = some name → e.configures = false ∧ e.dials = false

/-- An entry that leaves untried the only name that it may tell of tells of no attempt. -/
theorem Untried.dials_eq {name : String} {e : Effect} (untried : e.Untried name)
    (named : ∀ n, e.connection? = some n → n = name) : e.dials = false := by
  cases e with
  | dialled dial =>
    exact (untried (congrArg some (named dial.connection rfl))).2
  | configured | left | accepted | wrote | closed | read | dispatched | framed | host => rfl

/-- An entry spares a name: it leaves it untried, and tells of no message that its connection
accepted. -/
def Spares (name : String) (e : Effect) : Prop :=
  e.connection? = some name → e.configures = false ∧ e.dials = false ∧ e.accepts = false

end Effect

/-- What the journal tells about one session. -/
structure SessionLog where
  /-- The lines that were written, each of them followed by a line-feed. -/
  written : List String
  /-- Why the engine closed its end, as often as it did. -/
  endings : List SessionEnd
  /-- The bytes that were read. -/
  bytes : Bytes
  /-- The display frames that the host was given. -/
  frames : List Bytes
  deriving DecidableEq

namespace SessionLog

/-- The log of a session of which nothing is told. -/
def empty : SessionLog := ⟨[], [], [], []⟩

/-- Takes down one entry in the log of a session. -/
def note (id : Nat) (log : SessionLog) : Effect → SessionLog
  | .wrote session line =>
    if session = id then { log with written := log.written ++ [line] } else log
  | .closed session cause =>
    if session = id then { log with endings := log.endings ++ [cause] } else log
  | .read session bytes =>
    if session = id then { log with bytes := log.bytes ++ bytes } else log
  | .framed session payload =>
    if session = id then { log with frames := log.frames ++ [payload] } else log
  | .configured _ | .left _ | .dialled _ | .accepted .. | .dispatched .. | .host _ => log

/-- Takes down several entries in the log of a session. -/
def after (id : Nat) (log : SessionLog) (es : List Effect) : SessionLog := es.foldl (note id) log

variable {id : Nat}

/-- An entry about another session changes nothing in the log. -/
theorem note_of_ne {e : Effect} (log : SessionLog) (h : e.session? ≠ some id) :
    log.note id e = log := by
  cases e with
  | wrote session | closed session | read session | framed session =>
    have other : session ≠ id := fun same => h (congrArg some same)
    rw [note, if_neg other]
  | configured | left | dialled | accepted | dispatched | host => rfl

/-- A read changes only what was read. -/
theorem note_read (log : SessionLog) (session : Nat) (bytes : Bytes) :
    (log.note id (.read session bytes)).written = log.written ∧
      (log.note id (.read session bytes)).endings = log.endings ∧
      (log.note id (.read session bytes)).frames = log.frames := by
  by_cases own : session = id <;> simp [note, own]

/-- A display frame changes only what was shown. -/
theorem note_framed (log : SessionLog) (session : Nat) (payload : Bytes) :
    (log.note id (.framed session payload)).written = log.written ∧
      (log.note id (.framed session payload)).endings = log.endings ∧
      (log.note id (.framed session payload)).bytes = log.bytes := by
  by_cases own : session = id <;> simp [note, own]

/-- The end of a session changes only how it ended. -/
theorem note_closed (log : SessionLog) (session : Nat) (cause : SessionEnd) :
    (log.note id (.closed session cause)).written = log.written ∧
      (log.note id (.closed session cause)).bytes = log.bytes ∧
      (log.note id (.closed session cause)).frames = log.frames := by
  by_cases own : session = id <;> simp [note, own]

/-- Entries about other sessions change nothing in the log. -/
theorem after_of_ne {es : List Effect} (log : SessionLog)
    (h : ∀ e ∈ es, e.session? ≠ some id) : log.after id es = log := by
  induction es with
  | nil => rfl
  | cons e rest ih =>
    rw [after, List.foldl_cons, note_of_ne log (h e List.mem_cons_self)]
    exact ih fun e he => h e (List.mem_cons_of_mem _ he)

/-- Entries are taken down one after the other. -/
theorem after_append (log : SessionLog) (es more : List Effect) :
    log.after id (es ++ more) = (log.after id es).after id more :=
  List.foldl_append

/-- What was read stays read. -/
theorem bytes_prefix_after (log : SessionLog) (id : Nat) (es : List Effect) :
    log.bytes <+: (log.after id es).bytes := by
  induction es generalizing log with
  | nil => exact List.prefix_rfl
  | cons e rest ih =>
    refine List.IsPrefix.trans ?_ (ih (log.note id e))
    cases e with
    | read session bytes =>
      rw [note]
      split
      · exact List.prefix_append _ _
      · exact List.prefix_rfl
    | wrote | closed | framed =>
      rw [note]
      split <;> exact List.prefix_rfl
    | configured | left | dialled | accepted | dispatched | host => exact List.prefix_rfl

/-- Lines that were written are added to the log in their order. -/
theorem after_wrote (log : SessionLog) (lines : List String) :
    log.after id (lines.map (.wrote id)) = { log with written := log.written ++ lines } := by
  induction lines generalizing log with
  | nil => simp [after]
  | cons line rest ih =>
    have first : log.note id (.wrote id line) = { log with written := log.written ++ [line] } :=
      if_pos rfl
    rw [List.map_cons, after, List.foldl_cons, first]
    apply (ih _).trans
    rw [List.append_assoc]
    rfl

/-- The end of a session is added to its log. -/
theorem after_closed (log : SessionLog) (cause : SessionEnd) :
    log.after id [.closed id cause] = { log with endings := log.endings ++ [cause] } :=
  if_pos rfl

/-- Bytes that were read are added to the log. -/
theorem after_read (log : SessionLog) (bytes : Bytes) :
    log.after id [.read id bytes] = { log with bytes := log.bytes ++ bytes } :=
  if_pos rfl

/-- A display frame is added to the log. -/
theorem after_framed (log : SessionLog) (payload : Bytes) :
    log.after id [.framed id payload] = { log with frames := log.frames ++ [payload] } :=
  if_pos rfl

end SessionLog

/-- What the journal tells about one connection while it belongs to the engine. -/
structure Life where
  name : String
  /-- The messages that the connection accepted. -/
  accepted : List String
  /-- The sessions that it opened. -/
  opened : List Nat
  /-- The commands of its peer that were dispatched. -/
  dispatched : List Command
  /-- Whether the connection was removed. -/
  left : Bool
  deriving DecidableEq

namespace Life

/-- The life of a connection that was just added. -/
def new (name : String) : Life := ⟨name, [], [], [], false⟩

/-- Takes down one entry in the life of a connection. -/
def note (l : Life) (e : Effect) : Life :=
  if l.left || e.connection? ≠ some l.name then l
  else match e with
  | .accepted _ message => { l with accepted := l.accepted ++ [message] }
  | .dialled dial => { l with opened := l.opened ++ dial.session.toList }
  | .dispatched _ command => { l with dispatched := l.dispatched ++ [command] }
  | .left _ => { l with left := true }
  | .configured _ | .wrote .. | .closed .. | .read .. | .framed .. | .host _ => l

/-- Takes down several entries in the life of a connection. -/
def after (l : Life) (es : List Effect) : Life := es.foldl note l

/-- A life takes down nothing once it is over, and nothing about other connections. -/
theorem note_of_other {l : Life} {e : Effect}
    (h : l.left = true ∨ e.connection? ≠ some l.name) : l.note e = l := by
  have other : (l.left || e.connection? ≠ some l.name) = true := by
    rcases h with past | ne
    · rw [past, Bool.true_or]
    · rw [decide_eq_true ne, Bool.or_true]
  unfold note
  rw [if_pos other]

-- While a life lasts it takes down every entry that names its connection.
private theorem own_entry {l : Life} {e : Effect} (present : l.left = false)
    (own : e.connection? = some l.name) : ¬ (l.left || e.connection? ≠ some l.name) = true := by
  simp [present, own]

/-- A message that was accepted is added to the life of its connection. -/
theorem after_accepted {l : Life} (present : l.left = false) (message : String) :
    l.after [.accepted l.name message] = { l with accepted := l.accepted ++ [message] } :=
  if_neg (own_entry present rfl)

/-- A session that was opened is added to the life of its connection. -/
theorem after_dialled {l : Life} (present : l.left = false) (settings : ConnectionSettings)
    (session : Option Nat) :
    l.after [.dialled ⟨l.name, settings, session⟩] =
      { l with opened := l.opened ++ session.toList } :=
  if_neg (own_entry present rfl)

/-- A command that was dispatched is added to the life of its connection. -/
theorem after_dispatched {l : Life} (present : l.left = false) (command : Command) :
    l.after [.dispatched l.name command] = { l with dispatched := l.dispatched ++ [command] } :=
  if_neg (own_entry present rfl)

/-- Its removal ends the life of a connection. -/
theorem after_left {l : Life} (present : l.left = false) :
    l.after [.left l.name] = { l with left := true } :=
  if_neg (own_entry present rfl)

/-- A life keeps its name. -/
theorem name_note (l : Life) (e : Effect) : (l.note e).name = l.name := by
  unfold note
  split
  · rfl
  · cases e <;> rfl

/-- Only its removal ends the life of a connection. -/
theorem left_note (l : Life) {e : Effect} (h : e.removes = false) :
    (l.note e).left = l.left := by
  unfold note
  split
  · rfl
  · cases e with
    | left => exact absurd h (by simp [Effect.removes])
    | configured | dialled | accepted | wrote | closed | read | dispatched | framed | host => rfl

/-- Entries about other connections change nothing in a life. -/
theorem after_of_other {l : Life} {es : List Effect}
    (h : ∀ e ∈ es, l.left = true ∨ e.connection? ≠ some l.name) : l.after es = l := by
  induction es with
  | nil => rfl
  | cons e rest ih =>
    rw [after, List.foldl_cons, note_of_other (h e List.mem_cons_self)]
    exact ih fun e he => h e (List.mem_cons_of_mem _ he)

/-- Entries that name no connection are not taken down in a life. -/
theorem after_unnamed {l : Life} {es : List Effect} (h : ∀ e ∈ es, e.connection? = none) :
    l.after es = l :=
  after_of_other fun e he => .inr (by rw [h e he]; simp)

/-- Entries are taken down one after the other. -/
theorem after_append (l : Life) (es more : List Effect) :
    l.after (es ++ more) = (l.after es).after more :=
  List.foldl_append

/-- A life keeps its name. -/
theorem name_after (l : Life) (es : List Effect) : (l.after es).name = l.name := by
  induction es generalizing l with
  | nil => rfl
  | cons e rest ih => exact (ih (l.note e)).trans (name_note l e)

/-- A life that lasts after some entries lasted before them. -/
theorem lasted {l : Life} {es : List Effect} (lasts : (l.after es).left = false) :
    l.left = false := by
  rw [← Bool.not_eq_true]
  intro past
  rw [after_of_other fun _ _ => .inl past, past] at lasts
  cases lasts

/-- Only its removal ends the life of a connection. -/
theorem left_after (l : Life) {es : List Effect} (h : ∀ e ∈ es, e.removes = false) :
    (l.after es).left = l.left := by
  induction es generalizing l with
  | nil => rfl
  | cons e rest ih =>
    exact (ih (l.note e) fun e he => h e (List.mem_cons_of_mem _ he)).trans
      (left_note l (h e List.mem_cons_self))

/-- A session that was opened stays on record. -/
theorem mem_opened_after {l : Life} {id : Nat} (mem : id ∈ l.opened) (es : List Effect) :
    id ∈ (l.after es).opened := by
  induction es generalizing l with
  | nil => exact mem
  | cons e rest ih =>
    refine ih (l := l.note e) ?_
    unfold note
    split
    · exact mem
    · cases e with
      | dialled => exact List.mem_append_left _ mem
      | configured | left | accepted | wrote | closed | read | dispatched | framed | host =>
        exact mem

end Life

namespace History

/-- What the journal tells about a session. -/
def log (h : History) (id : Nat) : SessionLog :=
  h.journal.foldr (fun e log => log.note id e) .empty

/-- The lives that the journal tells of, in the order in which they began. -/
def lives (h : History) : List Life :=
  h.journal.foldr (fun e lives =>
    lives.map (·.note e) ++ match e with
      | .configured name => [.new name]
      | _ => []) []

/-- Entries are added to the journal, the newest in front, and nothing else changes. -/
theorem recordAll_eq (h : History) (es : List Effect) :
    h.recordAll es = { h with journal := es.reverse ++ h.journal } := by
  induction es generalizing h with
  | nil => rfl
  | cons e rest ih =>
    rw [List.reverse_cons, List.append_assoc]
    exact ih (h.record e)

/-- A history goes on by entries, each of which opens one session at most. -/
structure GoesOn (h : History) (es : List Effect) (h' : History) : Prop where
  journal : h'.journal = es.reverse ++ h.journal
  sessions : h'.sessions = h.sessions + es.countP Effect.opens

namespace GoesOn

/-- Nothing happens. -/
theorem refl (h : History) : h.GoesOn [] h := ⟨rfl, rfl⟩

/-- One thing happens after another. -/
theorem trans {h h' h'' : History} {es more : List Effect} (first : h.GoesOn es h')
    (second : h'.GoesOn more h'') : h.GoesOn (es ++ more) h'' := by
  constructor
  · rw [second.journal, first.journal, List.reverse_append, List.append_assoc]
  · rw [second.sessions, first.sessions, List.countP_append, Nat.add_assoc]

/-- A history goes on to another by one list of entries only. -/
theorem unique {h h' : History} {es more : List Effect} (on : h.GoesOn es h')
    (also : h.GoesOn more h') : es = more :=
  List.reverse_inj.mp (List.append_cancel_right (on.journal.symm.trans also.journal))

/-- Sessions are only ever added. -/
theorem sessions_le {h h' : History} {es : List Effect} (on : h.GoesOn es h') :
    h.sessions ≤ h'.sessions :=
  on.sessions ▸ Nat.le_add_right _ _

/-- An entry is added. -/
theorem record (h : History) {e : Effect} (quiet : e.opens = false) :
    h.GoesOn [e] (h.record e) := by
  refine ⟨rfl, ?_⟩
  rw [List.countP_singleton, quiet]
  rfl

/-- Entries are added. -/
theorem recordAll (h : History) {es : List Effect} (quiet : ∀ e ∈ es, e.opens = false) :
    h.GoesOn es (h.recordAll es) := by
  have unopened : es.countP Effect.opens = 0 :=
    List.countP_eq_zero.mpr fun e he => Bool.eq_false_iff.mp (quiet e he)
  rw [recordAll_eq]
  exact ⟨rfl, by rw [unopened, Nat.add_zero]⟩

/-- The host is asked to shut down, unless it was asked before. -/
theorem requestShutdown (h : History) :
    ∃ calls : List HostCall, h.GoesOn (calls.map .host) h.requestShutdown := by
  unfold History.requestShutdown
  split
  · exact ⟨[], refl h⟩
  · exact ⟨[.requestShutdown], rfl, rfl⟩

/-- An attempt opens the next session or none. -/
theorem dial (h : History) (connector : Connector) (name : String)
    (settings : ConnectionSettings) :
    ∃ session h', h.dial connector name settings = (session, h') ∧
      (session = some h.sessions ∨ session = none) ∧
      h.GoesOn [.dialled ⟨name, settings, session⟩] h' := by
  refine ⟨_, _, rfl, ?_, rfl, ?_⟩
  · by_cases opened : connector h.dials name settings = true
    · exact .inl (if_pos opened)
    · exact .inr (if_neg opened)
  · by_cases opened : connector h.dials name settings = true
    · simp [History.record, Effect.opens, opened]
    · simp [History.record, Effect.opens, opened]

end GoesOn

variable {h h' : History} {es : List Effect}

/-- The log of a session, from the oldest entry of the journal on. -/
theorem log_eq_after (h : History) (id : Nat) :
    h.log id = SessionLog.empty.after id h.journal.reverse := by
  rw [SessionLog.after, List.foldl_reverse]
  rfl

/-- The log of a session after some entries. -/
theorem log_of_goesOn (on : h.GoesOn es h') (id : Nat) :
    h'.log id = (h.log id).after id es := by
  rw [log_eq_after, log_eq_after, on.journal, List.reverse_append, List.reverse_reverse,
    SessionLog.after_append]

/-- The log of a session that no entry is about. -/
theorem log_apart (on : h.GoesOn es h') {id : Nat} (apart : ∀ e ∈ es, e.session? ≠ some id) :
    h'.log id = h.log id := by
  rw [log_of_goesOn on, SessionLog.after_of_ne _ apart]

/-- The lives after entries that add no connection. -/
theorem lives_of_goesOn (on : h.GoesOn es h') (stay : ∀ e ∈ es, e.configures = false) :
    h'.lives = h.lives.map (·.after es) := by
  have folded : ∀ (es : List Effect) (lives : List Life),
      (∀ e ∈ es, e.configures = false) →
        es.foldl (fun lives e => lives.map (·.note e) ++ match e with
          | .configured name => [.new name]
          | _ => []) lives = lives.map (·.after es) := by
    intro es
    induction es with
    | nil => exact fun lives _ => (List.map_id lives).symm
    | cons e rest ih =>
      intro lives stay
      rw [List.foldl_cons, ih _ fun e he => stay e (List.mem_cons_of_mem _ he)]
      cases e with
      | configured => exact absurd (stay _ List.mem_cons_self) (by simp [Effect.configures])
      | left | dialled | accepted | wrote | closed | read | dispatched | framed | host =>
        rw [List.append_nil, List.map_map]
        rfl
  rw [lives, on.journal, List.foldr_append, List.foldr_reverse]
  exact folded es h.lives stay

/-- A new connection begins a life. -/
theorem lives_configured (h : History) (name : String) :
    (h.record (.configured name)).lives = h.lives ++ [.new name] := by
  have stay : h.lives.map (·.note (.configured name)) = h.lives := by
    refine (List.map_congr_left fun l _ => ?_).trans (List.map_id _)
    unfold Life.note
    split <;> rfl
  exact congrArg (· ++ [Life.new name]) stay

end History

end Backbox
