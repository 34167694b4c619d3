import Backbox.Proofs.Connection.Inbound

/-!
# Taking in what is read

The bytes that were read on a session are taken in line by line: a frame is shown, a command
is left to the host's poll, and a goodbye ends the session. Between two reads a connection
agrees with what its peer said so far.
-/

namespace Backbox

namespace Intake

open Connection

variable {valueCase : ValueCase} {said : List Said} {waiting : List Command} {l : Life}
  {x y z : Intake}

/-- What is heard on a session is a chain of steps whose entries name no connection, and
which disconnects it at most. -/
def Follows (x y : Intake) : Prop :=
  ∃ es, x.connection.Steps x.history es y.connection y.history ∧
    (∀ e ∈ es, e.connection? = none) ∧
    (y.connection.state = x.connection.state ∨ y.connection.state = .disconnected)

/-- Nothing is heard. -/
theorem Follows.refl (x : Intake) : x.Follows x :=
  ⟨[], .none, fun _ he => absurd he List.not_mem_nil, .inl rfl⟩

/-- One thing is heard after another. -/
theorem Follows.trans (first : x.Follows y) (second : y.Follows z) : x.Follows z := by
  obtain ⟨es, steps, mute, still⟩ := first
  obtain ⟨more, further, quiet, remains⟩ := second
  exact ⟨es ++ more, steps.trans further,
    fun e he => (List.mem_append.mp he).elim (mute e) (quiet e),
    remains.elim (fun same => same ▸ still) .inr⟩

private theorem Follows.one {es : List Effect}
    (step : x.connection.Step x.history es y.connection y.history)
    (mute : ∀ e ∈ es, e.connection? = none)
    (still : y.connection.state = x.connection.state ∨ y.connection.state = .disconnected) :
    x.Follows y :=
  ⟨es, .one step, mute, still⟩

/-- Hearing leaves a connection in order if nothing waits on a session after it. -/
theorem Follows.inOrder (follows : x.Follows y) (order : x.connection.InOrder l x.history)
    (flushed : y.connection.Flushed) : y.connection.InOrder l y.history := by
  obtain ⟨es, steps, mute, -⟩ := follows
  have after := order.steps steps flushed
  rwa [Life.after_unnamed mute] at after

/-- A line on a session that is over changes nothing. -/
theorem takeLine_of_idle (idle : x.connection.session = none) (valueCase : ValueCase)
    (line : Bytes) : x.takeLine valueCase line = x := by
  rw [takeLine, idle]

/-- A display frame is shown. -/
theorem takeLine_of_frame {s : Session} (live : x.connection.session = some s)
    {line payload : Bytes} (frame : Line.ofBytes line = .frame payload) (valueCase : ValueCase) :
    x.takeLine valueCase line =
      { x with history := x.history.record (.framed s.id payload) } := by
  simp only [takeLine, live, frame]

/-- A message is a command. -/
theorem takeLine_of_message {s : Session} (live : x.connection.session = some s) {line : Bytes}
    {text : String} (message : Line.ofBytes line = .message text) (valueCase : ValueCase) :
    x.takeLine valueCase line = x.takeCommand (.ofWire valueCase text) := by
  simp only [takeLine, live, message]

/-- A read on a session that is over changes nothing. -/
theorem takeRead_of_idle (idle : x.connection.session = none) (valueCase : ValueCase)
    (bytes : Bytes) : x.takeRead valueCase bytes = x := by
  rw [takeRead, idle]

/-- A greeting changes nothing. -/
theorem takeLine_of_hello (x : Intake) {line : Bytes}
    (hello : Line.said valueCase line = .hello) : x.takeLine valueCase line = x := by
  rcases Option.eq_none_or_eq_some x.connection.session with idle | ⟨s, live⟩
  · exact takeLine_of_idle idle valueCase line
  · cases kind : Line.ofBytes line with
    | frame payload =>
      simp only [Line.said, kind] at hello
      cases hello
    | message text =>
      simp only [Line.said, kind] at hello
      rw [takeLine_of_message live kind]
      by_cases greeting : (Command.ofWire valueCase text).name = "hello"
      · exact if_pos greeting
      · rw [Command.said, if_neg greeting] at hello
        split at hello <;> cases hello

/-- A connection in the middle of hearing, and what was said so far. -/
structure Midway (said : List Said) (waiting : List Command) (l : Life) (x : Intake) : Prop where
  order : x.connection.InOrder l x.history
  heard : x.connection.Heard said (waiting ++ x.commands.toList) l x.history
  departed_eq : x.departed = x.connection.departed

private theorem Midway.goodbye_notMem (mid : x.Midway said waiting l) {s : Session}
    (live : x.connection.session = some s) : .goodbye ∉ said := by
  rw [← mid.heard.parted, mid.order.lifecycle.stays live]
  exact Bool.false_ne_true

/-- The peer's goodbye ends the session and drops what waits. Where the peer is required, the host
is asked to shut down. -/
theorem depart_of_live {s : Session} (live : x.connection.session = some s) :
    x.depart = { x with
      connection := { x.connection.dropQueue with
        session := none
        owesGoodbye := false
        state := if x.connection.state = .connected then .disconnected else x.connection.state
        departed := true }
      history := if x.connection.settings.required
        then (x.history.record (.closed s.id .farewell)).requestShutdown
        else x.history.record (.closed s.id .farewell)
      departed := true } := by
  simp [depart, endSession, live, dropQueue, OutboundQueue.clear]

/-- The end of the session is on record, and what the host is asked for. -/
theorem goesOn_depart {s : Session} (live : x.connection.session = some s) :
    ∃ calls : List HostCall,
      x.history.GoesOn (.closed s.id .farewell :: calls.map .host) x.depart.history := by
  have ended : x.history.GoesOn [.closed s.id .farewell]
      (x.history.record (.closed s.id .farewell)) := .record _ rfl
  rw [depart_of_live live]
  by_cases required : x.connection.settings.required = true
  · obtain ⟨calls, asked⟩ :=
      History.GoesOn.requestShutdown (x.history.record (.closed s.id .farewell))
    simp only [required, if_true]
    exact ⟨calls, ended.trans asked⟩
  · simp only [required]
    exact ⟨[], ended⟩

/-- The peer's goodbye disconnects a connection that is in order. -/
theorem depart_eq (x : Intake) {s : Session} (order : x.connection.InOrder l x.history)
    (live : x.connection.session = some s) :
    ∃ (calls : List HostCall) (h : History),
      x.history.GoesOn (.closed s.id .farewell :: calls.map .host) h ∧
      x.depart = { x with
        connection := { x.connection.dropQueue with
          session := none, owesGoodbye := false, state := .disconnected, departed := true }
        history := h
        departed := true } := by
  have connected := order.lifecycle.connected live
  obtain ⟨calls, on⟩ := goesOn_depart live
  refine ⟨calls, _, on, ?_⟩
  rw [depart_of_live live, if_pos connected]

/-- What taking in lines leads to: what was said grows by what they say, and the session is
over or goes on, with the bytes that were read on it. -/
structure Takes (said : List Said) (waiting : List Command) (l : Life) (more : List Said)
    (x y : Intake) : Prop where
  follows : x.Follows y
  midway : y.Midway (said ++ more) waiting l
  /-- The session is only over when the peer said goodbye. -/
  open_or_departed : y.connection.session.isSome ∨ y.connection.departed = true
  still : ∀ t, y.connection.session = some t → x.connection.session = some t
  bytes : ∀ id, (y.history.log id).bytes = (x.history.log id).bytes

private theorem heard_concat {c c' : Connection} {more more' : List Command} {h h' : History}
    {next : Said} (heard : c.Heard said more l h) (before : .goodbye ∉ said)
    (frames : h'.framesShown l.opened = h.framesShown l.opened ++ next.payload?.toList)
    (commands : more' = more ++ next.command?.toList)
    (departed : c'.departed = true ↔ next = .goodbye) :
    c'.Heard (said ++ [next]) more' l h' where
  frames := by
    rw [Said.filterMap_heard_concat before next _ rfl, frames, heard.frames]
  commands := by
    rw [Said.filterMap_heard_concat before next _ rfl, heard.commands, commands,
      List.append_assoc]
  parted := by
    rw [departed, List.mem_append, List.mem_singleton]
    exact ⟨fun same => .inr same.symm, fun mem => mem.elim (absurd · before) Eq.symm⟩

private theorem framesShown_framed {c : Connection} {h : History} {s : Session}
    (rec : c.Recorded l h) (live : c.session = some s) (payload : Bytes) :
    (h.record (.framed s.id payload)).framesShown l.opened =
      h.framesShown l.opened ++ [payload] := by
  have on : h.GoesOn [.framed s.id payload] (h.record (.framed s.id payload)) := .record _ rfl
  have apart (id : Nat) (other : id ≠ s.id) :
      (h.record (.framed s.id payload)).log id = h.log id :=
    History.log_apart on (by simp [Effect.session?, other.symm])
  apply rec.flatMap_log live apart SessionLog.frames
  rw [History.log_of_goesOn on, SessionLog.after_framed]

private theorem takes_frame {s : Session} (mid : x.Midway said waiting l)
    (live : x.connection.session = some s) (payload : Bytes) :
    Takes said waiting l [.frame payload] x
      { x with history := x.history.record (.framed s.id payload) } := by
  have before := mid.goodbye_notMem live
  have stays := mid.order.lifecycle.stays live
  have on : x.history.GoesOn [.framed s.id payload]
    (x.history.record (.framed s.id payload)) := .record _ rfl
  have follows : x.Follows { x with history := x.history.record (.framed s.id payload) } :=
    .one (.framed s payload live on) (by simp [Effect.connection?]) (.inl rfl)
  refine ⟨follows, ⟨follows.inOrder mid.order mid.order.flushed, ?_, mid.departed_eq⟩,
    .inl (by rw [live]; rfl), fun t ht => ht, ?_⟩
  · exact heard_concat mid.heard before (framesShown_framed mid.order.recorded live payload)
      (List.append_nil _).symm (by simp [stays])
  · intro id
    obtain ⟨-, -, bytes⟩ := (x.history.log id).note_framed s.id payload
    rw [History.log_of_goesOn on]
    exact bytes

private theorem takes_goodbye {s : Session} (mid : x.Midway said waiting l)
    (live : x.connection.session = some s) : Takes said waiting l [.goodbye] x x.depart := by
  have before := mid.goodbye_notMem live
  obtain ⟨calls, h, on, departs⟩ := depart_eq x mid.order live
  rw [departs]
  have follows : x.Follows { x with
      connection := { x.connection.dropQueue with
        session := none, owesGoodbye := false, state := .disconnected, departed := true }
      history := h
      departed := true } :=
    .one (.departed s calls live (mid.order.flushed (by rw [live]; rfl)) on)
      (by simp [Effect.connection?]) (.inr rfl)
  have same (id : Nat) : (h.log id).bytes = (x.history.log id).bytes ∧
      (h.log id).frames = (x.history.log id).frames := by
    have asked (log : SessionLog) : log.after id (calls.map .host) = log :=
      SessionLog.after_of_ne log (by simp [Effect.session?])
    obtain ⟨-, bytes, frames⟩ := (x.history.log id).note_closed s.id .farewell
    rw [History.log_of_goesOn on, ← List.singleton_append, SessionLog.after_append, asked]
    exact ⟨bytes, frames⟩
  have frames : h.framesShown l.opened = x.history.framesShown l.opened ++ [] := by
    rw [List.append_nil, History.framesShown_congr fun id _ => (same id).2]
  refine ⟨follows, ⟨follows.inOrder mid.order ?_, ?_, rfl⟩, .inr rfl, ?_, fun id => (same id).1⟩
  · intro some
    cases some
  · exact heard_concat mid.heard before frames (List.append_nil _).symm (iff_of_true rfl rfl)
  · intro t ht
    cases ht

private theorem takes_command {s : Session} (mid : x.Midway said waiting l)
    (live : x.connection.session = some s) (command : Command) :
    Takes said waiting l [command.said] x (x.takeCommand command) := by
  have before := mid.goodbye_notMem live
  have stays := mid.order.lifecycle.stays live
  have alive : x.connection.session.isSome := by rw [live]; rfl
  have frames : x.history.framesShown l.opened = x.history.framesShown l.opened ++ [] :=
    (List.append_nil _).symm
  unfold takeCommand Command.said
  split
  · refine ⟨.refl x, ⟨mid.order, ?_, mid.departed_eq⟩, .inl alive, fun t ht => ht, fun id => rfl⟩
    exact heard_concat mid.heard before frames (List.append_nil _).symm (by simp [stays])
  · split
    · exact takes_goodbye mid live
    · refine ⟨.refl x, ⟨mid.order, ?_, mid.departed_eq⟩, .inl alive, fun t ht => ht,
        fun id => rfl⟩
      have queued : waiting ++ (x.commands.push command).toList =
          waiting ++ x.commands.toList ++ [command] := by
        rw [Array.toList_push, List.append_assoc]
      exact heard_concat mid.heard before frames queued (by simp [stays])

/-- A line is taken in. -/
theorem takes_line (mid : x.Midway said waiting l)
    (going : x.connection.session.isSome ∨ x.connection.departed = true)
    (valueCase : ValueCase) (line : Bytes) :
    Takes said waiting l [Line.said valueCase line] x (x.takeLine valueCase line) := by
  rcases Option.eq_none_or_eq_some x.connection.session with idle | ⟨s, live⟩
  · have departed : x.connection.departed = true := by
      rw [idle] at going
      exact going.resolve_left Bool.false_ne_true
    have parted := mid.heard.parted.mp departed
    rw [takeLine_of_idle idle]
    refine ⟨.refl x, ⟨mid.order, ⟨?_, ?_, ?_⟩, mid.departed_eq⟩, .inr departed,
      fun t ht => ht, fun id => rfl⟩
    · rw [Said.heard_append_of_mem parted, mid.heard.frames]
    · rw [Said.heard_append_of_mem parted, mid.heard.commands]
    · exact ⟨fun _ => List.mem_append_left _ parted, fun _ => departed⟩
  · rw [Line.said]
    cases kind : Line.ofBytes line with
    | frame payload =>
      rw [takeLine_of_frame live kind]
      exact takes_frame mid live payload
    | message text =>
      rw [takeLine_of_message live kind]
      exact takes_command mid live (.ofWire valueCase text)

/-- Lines are taken in, one after the other. -/
theorem takes_lines (mid : x.Midway said waiting l)
    (going : x.connection.session.isSome ∨ x.connection.departed = true)
    (valueCase : ValueCase) (lines : List Bytes) :
    Takes said waiting l (lines.map (Line.said valueCase)) x
      (lines.foldl (takeLine valueCase) x) := by
  induction lines generalizing said x with
  | nil =>
    have same : x.Midway (said ++ []) waiting l := by rwa [List.append_nil]
    exact ⟨.refl x, same, going, fun t ht => ht, fun id => rfl⟩
  | cons line rest ih =>
    have first := takes_line mid going valueCase line
    have others := ih first.midway first.open_or_departed
    have whole := others.midway
    rw [List.append_assoc] at whole
    exact ⟨first.follows.trans others.follows, whole, others.open_or_departed,
      fun t ht => first.still t (others.still t ht),
      fun id => (others.bytes id).trans (first.bytes id)⟩

/-- A connection between two reads. -/
structure Between (valueCase : ValueCase) (waiting : List Command) (l : Life) (x : Intake) :
    Prop where
  order : x.connection.InOrder l x.history
  incoming : x.connection.Incoming valueCase (waiting ++ x.commands.toList) l x.history
  departed_eq : x.departed = x.connection.departed

private theorem linesRead_read {c : Connection} {h : History} {s : Session}
    (rec : c.Recorded l h) (live : c.session = some s) (bytes : Bytes) :
    (h.record (.read s.id bytes)).linesRead l.opened = h.linesRead l.opened ++
      Line.linesOf (Line.unfinished (h.log s.id).bytes ++ bytes) := by
  have on : h.GoesOn [.read s.id bytes] (h.record (.read s.id bytes)) := .record _ rfl
  have apart (id : Nat) (other : id ≠ s.id) : (h.record (.read s.id bytes)).log id = h.log id :=
    History.log_apart on (by simp [Effect.session?, other.symm])
  refine rec.flatMap_log live apart (fun log => Line.linesOf log.bytes) ?_
  rw [History.log_of_goesOn on, SessionLog.after_read]
  exact Line.linesOf_append _ _

/-- A read is on record, and the framer of the session is as the read leaves it. -/
def hearing (x : Intake) (s : Session) (framer : Framer) (bytes : Bytes) : Intake :=
  { x with
    connection := { x.connection with session := some ⟨s.id, framer⟩ }
    history := x.history.record (.read s.id bytes) }

-- Recording a read takes in none of its lines yet.
private theorem midway_hearing {s : Session} (between : x.Between valueCase waiting l)
    (live : x.connection.session = some s) (framer : Framer) (bytes : Bytes) :
    x.Follows (x.hearing s framer bytes) ∧ (x.hearing s framer bytes).Midway
      ((x.history.linesRead l.opened).map (Line.said valueCase)) waiting l := by
  obtain ⟨order, incoming, departed_eq⟩ := between
  have on : x.history.GoesOn [.read s.id bytes] (x.history.record (.read s.id bytes)) :=
    .record _ rfl
  have follows : x.Follows (x.hearing s framer bytes) :=
    .one (.heard s framer bytes live on) (by simp [Effect.connection?]) (.inl rfl)
  have frames : (x.history.record (.read s.id bytes)).framesShown l.opened =
      x.history.framesShown l.opened := by
    refine History.framesShown_congr fun id _ => ?_
    obtain ⟨-, -, frames⟩ := (x.history.log id).note_read s.id bytes
    rw [History.log_of_goesOn on]
    exact frames
  refine ⟨follows, follows.inOrder order fun _ => ?_, ⟨frames.trans incoming.heard.frames,
    incoming.heard.commands, incoming.heard.parted⟩, departed_eq⟩
  exact order.flushed (by rw [live]; rfl)

/-- What a read leads to: its lines are taken in, or the session ends. -/
theorem takeRead_eq {s : Session} (live : x.connection.session = some s)
    (inStep : x.connection.InStep x.history) (valueCase : ValueCase) (bytes : Bytes) :
    x.takeRead valueCase bytes =
      if defaultFragmentLimit <
          (Line.unfinished ((x.history.log s.id).bytes ++ bytes)).length then
        let lost := x.hearing s .new bytes
        { lost with
          connection := (lost.connection.loseSession .overlong lost.history).1
          history := (lost.connection.loseSession .overlong lost.history).2 }
      else
        (Line.linesOf (Line.unfinished (x.history.log s.id).bytes ++ bytes)).foldl
          (takeLine valueCase) (x.hearing s ⟨defaultFragmentLimit,
            (Line.unfinished ((x.history.log s.id).bytes ++ bytes)).toArray⟩ bytes) := by
  have fragment : s.framer.fragment = Line.unfinished (x.history.log s.id).bytes := by
    rw [inStep s live]
    rfl
  have limit : s.framer.limit = defaultFragmentLimit := by rw [inStep s live]
  have pushed := Framer.push_eq (fragment ▸ Line.lineFeed_notMem_unfinished _) bytes
  rw [fragment, limit, ← Line.unfinished_append] at pushed
  unfold takeRead
  rw [live]
  split at pushed
  · next overlong =>
    rw [if_pos overlong]
    simp only [pushed]
    rfl
  · next within =>
    rw [if_neg within]
    simp only [pushed]
    rfl

private theorem overlong_between {s : Session}
    (midway : x.Midway ((x.history.linesRead l.opened).map (Line.said valueCase)) waiting l)
    (live : x.connection.session = some s) :
    x.Follows { x with
      connection := (x.connection.loseSession .overlong x.history).1
      history := (x.connection.loseSession .overlong x.history).2 } ∧
    Between valueCase waiting l { x with
      connection := (x.connection.loseSession .overlong x.history).1
      history := (x.connection.loseSession .overlong x.history).2 } := by
  obtain ⟨order, heard, departed_eq⟩ := midway
  have on : x.history.GoesOn [.closed s.id .overlong]
    (x.history.record (.closed s.id .overlong)) := .record _ rfl
  have same (id : Nat) :
      ((x.history.record (.closed s.id .overlong)).log id).bytes = (x.history.log id).bytes ∧
      ((x.history.record (.closed s.id .overlong)).log id).frames =
        (x.history.log id).frames := by
    rw [History.log_of_goesOn on]
    exact SessionLog.after_silent _ (by simp [Effect.hears])
  rw [loseSession_eq order.lifecycle live]
  have follows : x.Follows { x with
      connection := { x.connection with
        session := none, owesGoodbye := false, state := .disconnected }
      history := x.history.record (.closed s.id .overlong) } :=
    .one (.lost s .overlong live (order.flushed (by rw [live]; rfl)) (.inr rfl) on)
      (by simp [Effect.connection?]) (.inr rfl)
  refine ⟨follows, follows.inOrder order ?_, ⟨?_, ?_⟩, departed_eq⟩
  · intro some
    cases some
  · rw [History.linesRead_congr fun id _ => (same id).1]
    refine ⟨?_, heard.commands, heard.parted⟩
    rw [History.framesShown_congr fun id _ => (same id).2]
    exact heard.frames
  · intro t ht
    cases ht

/-- A read that makes the unfinished line too long brings no line-feed. -/
theorem lineFeed_notMem_of_long {stream read : Bytes} (short : read.length ≤ readSize)
    (long : defaultFragmentLimit < (Line.unfinished (stream ++ read)).length) :
    lineFeed ∉ Line.unfinished stream ++ read := by
  intro mem
  rcases List.mem_append.mp mem with mem | mem
  · exact Line.lineFeed_notMem_unfinished _ mem
  · have rest : (Line.unfinished (stream ++ read)).length ≤ read.length :=
      Line.length_unfinished_append_le mem
    simp only [readSize, defaultFragmentLimit] at short long
    omega

/-- A read is taken in. -/
theorem takeRead_between (between : x.Between valueCase waiting l) {bytes : Bytes}
    (short : bytes.length ≤ readSize) :
    x.Follows (x.takeRead valueCase bytes) ∧
      (x.takeRead valueCase bytes).Between valueCase waiting l := by
  rcases Option.eq_none_or_eq_some x.connection.session with idle | ⟨s, live⟩
  · rw [takeRead_of_idle idle]
    exact ⟨.refl x, between⟩
  · have lines := linesRead_read between.order.recorded live bytes
    rw [takeRead_eq live between.incoming.inStep]
    split
    · next overlong =>
      obtain ⟨follows, midway⟩ := midway_hearing between live .new bytes
      have held : (x.hearing s .new bytes).connection.session = some ⟨s.id, .new⟩ := rfl
      have unread : (x.hearing s .new bytes).history.linesRead l.opened =
          x.history.linesRead l.opened := by
        refine lines.trans ?_
        rw [Line.linesOf_of_notMem (lineFeed_notMem_of_long short overlong), List.append_nil]
      obtain ⟨lost, after⟩ := overlong_between (unread ▸ midway) held
      exact ⟨follows.trans lost, after⟩
    · obtain ⟨follows, midway⟩ := midway_hearing between live ⟨defaultFragmentLimit,
        (Line.unfinished ((x.history.log s.id).bytes ++ bytes)).toArray⟩ bytes
      have taken := takes_lines midway (.inl rfl) valueCase
        (Line.linesOf (Line.unfinished (x.history.log s.id).bytes ++ bytes))
      refine ⟨follows.trans taken.follows, taken.midway.order, ⟨?_, ?_⟩,
        taken.midway.departed_eq⟩
      · rw [History.linesRead_congr fun id _ => taken.bytes id]
        have heard := taken.midway.heard
        rw [← List.map_append, ← lines] at heard
        exact heard
      · intro t ht
        obtain rfl := Option.some.inj (taken.still t ht)
        have read : (x.history.record (.read s.id bytes)).log s.id = _ :=
          History.log_of_goesOn (.record x.history rfl) s.id
        rw [SessionLog.after_read] at read
        rw [taken.bytes]
        change _ = Framer.mk _ (Line.unfinished
          ((x.history.record (.read s.id bytes)).log s.id).bytes).toArray
        rw [read]

/-- All bytes are read. -/
theorem flatten_readsOf (done : List Bytes) (bytes : Bytes) :
    (readsOf done bytes).flatten = done.reverse.flatten ++ bytes := by
  fun_induction readsOf done bytes with
  | case1 done => rw [List.append_nil]
  | case2 done bytes some ih =>
    rw [ih, List.reverse_cons, List.flatten_append, List.append_assoc]
    simp

/-- No read is larger than the largest size. -/
theorem length_le_of_mem_readsOf {done : List Bytes} {bytes read : Bytes}
    (h : ∀ r ∈ done, r.length ≤ readSize) (mem : read ∈ readsOf done bytes) :
    read.length ≤ readSize := by
  fun_induction readsOf done bytes with
  | case1 done => exact h read (List.mem_reverse.mp mem)
  | case2 done bytes some ih =>
    refine ih (fun r hr => ?_) mem
    rcases List.mem_cons.mp hr with rfl | hr
    · rw [List.length_take]
      omega
    · exact h r hr

/-- Every read brings something. -/
theorem ne_nil_of_mem_readsOf {done : List Bytes} {bytes read : Bytes}
    (h : ∀ r ∈ done, r ≠ []) (mem : read ∈ readsOf done bytes) : read ≠ [] := by
  fun_induction readsOf done bytes with
  | case1 done => exact h read (List.mem_reverse.mp mem)
  | case2 done bytes some ih =>
    refine ih (fun r hr => ?_) mem
    rcases List.mem_cons.mp hr with rfl | hr
    · obtain ⟨b, rest, rfl⟩ := List.exists_cons_of_ne_nil some
      simp [readSize]
    · exact h r hr

/-- The line of which a framer has kept the front part is taken in when the read arrives that ends
it. The reads are on record before. -/
theorem takeReads_line {s : Session} {front rest : Bytes} {reads : List Bytes}
    (live : x.connection.session = some s) (held : s.framer.fragment = front)
    (clear : lineFeed ∉ front ++ rest) (full : front ++ rest ≠ [])
    (short : (front ++ rest).length ≤ s.framer.limit) (cut : reads.flatten = rest ++ [lineFeed])
    (parts : ∀ read ∈ reads, read ≠ []) :
    reads.foldl (takeRead valueCase) x = takeLine valueCase { x with
      connection := { x.connection with session := some ⟨s.id, .withLimit s.framer.limit⟩ }
      history := x.history.recordAll (reads.map (.read s.id)) } (front ++ rest) := by
  induction reads generalizing x s front rest with
  | nil => simp at cut
  | cons read more ih =>
    have before : lineFeed ∉ front := fun mem => clear (List.mem_append_left _ mem)
    have pushed := Framer.push_eq (held ▸ before) read
    rw [held] at pushed
    rw [List.flatten_cons] at cut
    rw [List.foldl_cons]
    by_cases last : more = []
    · -- this read ends the line
      subst last
      obtain rfl : read = rest ++ [lineFeed] := by simpa using cut
      have ended : Line.unfinished (front ++ (rest ++ [lineFeed])) = [] := by
        rw [← List.append_assoc, Line.unfinished_append_lineFeed_cons]
        rfl
      have lines : Line.linesOf (front ++ (rest ++ [lineFeed])) = [front ++ rest] := by
        rw [← List.append_assoc, Line.linesOf, List.splitOn_append_cons_self,
          List.splitOn_eq_singleton clear]
        simp [full]
      rw [ended, lines, if_neg (by simp)] at pushed
      simp only [takeRead, live, pushed]
      rfl
    · obtain ⟨next, others, rfl⟩ := List.exists_cons_of_ne_nil last
      have begins : next ≠ [] := parts next (List.mem_cons_of_mem _ List.mem_cons_self)
      obtain ⟨later, rfl, further⟩ : ∃ later, rest = read ++ later ∧
          (next :: others).flatten = later ++ [lineFeed] := by
        rcases List.append_eq_append_iff.mp cut with ⟨after, hrest, hmore⟩ | ⟨past, hread, hlast⟩
        · exact ⟨after, hrest, hmore⟩
        · cases past with
          | nil => exact ⟨[], by simpa using hread.symm, by simpa using hlast.symm⟩
          | cons b past => simp [begins] at hlast
      rw [← List.append_assoc] at clear full short ⊢
      have going : lineFeed ∉ front ++ read := fun mem => clear (List.mem_append_left _ mem)
      have within : ¬ s.framer.limit < (front ++ read).length := by
        rw [List.length_append] at short
        omega
      rw [Line.unfinished_of_notMem going, Line.linesOf_of_notMem going, if_neg within] at pushed
      have first : x.takeRead valueCase read = x.hearing s
          { s.framer with buffer := (front ++ read).toArray } read := by
        simp only [takeRead, live, pushed]
        rfl
      rw [first]
      exact ih (s := ⟨s.id, { s.framer with buffer := (front ++ read).toArray }⟩) rfl rfl clear full
        short further fun r hr => parts r (List.mem_cons_of_mem _ hr)

/-- Reads are taken in, one after the other. -/
theorem takeReads_between (between : x.Between valueCase waiting l) {reads : List Bytes}
    (short : ∀ bytes ∈ reads, bytes.length ≤ readSize) :
    x.Follows (reads.foldl (takeRead valueCase) x) ∧
      (reads.foldl (takeRead valueCase) x).Between valueCase waiting l := by
  induction reads generalizing x with
  | nil => exact ⟨.refl x, between⟩
  | cons bytes rest ih =>
    obtain ⟨first, between⟩ := takeRead_between between (short bytes List.mem_cons_self)
    obtain ⟨others, between⟩ := ih between fun r hr => short r (List.mem_cons_of_mem _ hr)
    exact ⟨first.trans others, between⟩

end Intake

namespace Connection

/-- What a connection makes of bytes from its peer. -/
theorem receive_between {valueCase : ValueCase} {waiting : List Command} {l : Life}
    {c : Connection} {h : History} (order : c.InOrder l h)
    (incoming : c.Incoming valueCase waiting l h) (stays : c.departed = false) (bytes : Bytes) :
    Intake.Follows ⟨c, h, #[], false⟩ (c.receive valueCase bytes h) ∧
      (c.receive valueCase bytes h).Between valueCase waiting l := by
  have start : Intake.Between valueCase waiting l ⟨c, h, #[], false⟩ :=
    ⟨order, by rwa [List.append_nil], stays.symm⟩
  exact Intake.takeReads_between start fun read mem =>
    Intake.length_le_of_mem_readsOf (fun r hr => absurd hr List.not_mem_nil) mem

end Connection

end Backbox
