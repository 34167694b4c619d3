import Backbox.Proofs.Connection.Intake

/-!
# Reading a session

A session is read in pieces, each of them cut into lines as a whole: where the unfinished line
behind a piece is too long, the session is dropped, and with it every line that the same piece
brought. No line is lost by this. A piece is far shorter than an unfinished line may be, so one that
makes it too long cannot have brought a line-feed. What is handed on is therefore told by the bytes
read alone, however they were cut into pieces: every line that they complete, up to a goodbye.
-/

namespace Backbox.Intake

variable {valueCase : ValueCase} {x y z : Intake} {id : Nat} {s : Session} {line : Bytes}
  {lines more : List Bytes} {queued : List Command} {stream read : Bytes} {reads : List Bytes}

/-! ### The lines that are handed on -/

/-- The lines that are handed on of those that one read brings: each that comes while the session
lasts. -/
def linesTaken (valueCase : ValueCase) : Intake → List Bytes → List Bytes
  | _, [] => []
  | x, line :: rest =>
    if x.connection.session.isSome then
      line :: linesTaken valueCase (x.takeLine valueCase line) rest
    else []

/-- The lines that are handed on of one read: none when the session is over before it or dropped
for it. -/
def linesOfRead (valueCase : ValueCase) (x : Intake) (read : Bytes) : List Bytes :=
  match x.connection.session with
  | none => []
  | some session =>
    match session.framer.push read with
    | (.ok lines, framer) => linesTaken valueCase (x.hearing session framer read) lines
    | (.error _, _) => []

/-- The lines that are handed on of several reads. -/
def linesHanded (valueCase : ValueCase) : Intake → List Bytes → List Bytes
  | _, [] => []
  | x, read :: rest =>
    x.linesOfRead valueCase read ++ linesHanded valueCase (x.takeRead valueCase read) rest

/-- Lines up to the first goodbye, this one included. -/
def upToGoodbye (valueCase : ValueCase) : List Bytes → List Bytes
  | [] => []
  | line :: rest =>
    if Line.said valueCase line = .goodbye then [line] else line :: upToGoodbye valueCase rest

/-- Whether one of some lines is a goodbye. -/
def Parts (valueCase : ValueCase) (lines : List Bytes) : Prop :=
  .goodbye ∈ lines.map (Line.said valueCase)

instance : Decidable (Parts valueCase lines) :=
  inferInstanceAs (Decidable (_ ∈ _))

theorem parts_append (stays : ¬ Parts valueCase lines) :
    Parts valueCase (lines ++ more) ↔ Parts valueCase more := by
  rw [Parts, List.map_append, List.mem_append]
  exact or_iff_right stays

/-- Before a goodbye, every line counts. -/
theorem upToGoodbye_append (stays : ¬ Parts valueCase lines) (more : List Bytes) :
    upToGoodbye valueCase (lines ++ more) = lines ++ upToGoodbye valueCase more := by
  induction lines with
  | nil => rfl
  | cons line rest ih =>
    rw [Parts, List.map_cons, List.mem_cons, not_or] at stays
    rw [List.cons_append, upToGoodbye, if_neg (Ne.symm stays.1), ih stays.2]
    rfl

/-- A goodbye among lines is the last that counts. -/
theorem parts_upToGoodbye : Parts valueCase (upToGoodbye valueCase lines) ↔
    Parts valueCase lines := by
  induction lines with
  | nil => rfl
  | cons line rest ih =>
    rw [upToGoodbye]
    split
    · next parts => simp [Parts, parts]
    · rw [Parts, Parts, List.map_cons, List.map_cons, List.mem_cons, List.mem_cons]
      exact or_congr Iff.rfl ih

/-! ### Taking in the lines of one read -/

/-- What lines lead to that are handed on while a session lasts. -/
structure Handles (valueCase : ValueCase) (s : Session) (lines : List Bytes) (x y : Intake) :
    Prop where
  log : y.history.log s.id = { x.history.log s.id with
    frames := (x.history.log s.id).frames ++
      (lines.map (Line.said valueCase)).filterMap Said.payload?
    endings := (x.history.log s.id).endings ++
      if Parts valueCase lines then [.farewell] else [] }
  commands : y.commands.toList =
    x.commands.toList ++ (lines.map (Line.said valueCase)).filterMap Said.command?
  session : y.connection.session = if Parts valueCase lines then none else some s

/-- Lines are handed on after others. -/
theorem Handles.trans (first : Handles valueCase s lines x y) (stays : ¬ Parts valueCase lines)
    (second : Handles valueCase s more y z) : Handles valueCase s (lines ++ more) x z := by
  refine ⟨?_, ?_, ?_⟩
  · rw [second.log, first.log]
    simp [stays, parts_append stays]
  · rw [second.commands, first.commands]
    simp
  · rw [second.session]
    simp only [parts_append stays]

-- What one line leads to is told by what it says.
private theorem Handles.one {what : Said} (said : Line.said valueCase line = what)
    (log : y.history.log s.id = { x.history.log s.id with
      frames := (x.history.log s.id).frames ++ what.payload?.toList
      endings := (x.history.log s.id).endings ++ if what = .goodbye then [.farewell] else [] })
    (commands : y.commands.toList = x.commands.toList ++ what.command?.toList)
    (session : y.connection.session = if what = .goodbye then none else some s) :
    Handles valueCase s [line] x y := by
  have parts : Parts valueCase [line] ↔ what = .goodbye := by
    rw [Parts, List.map_singleton, said, List.mem_singleton, eq_comm]
  have single {β : Type} (f : Said → Option β) : [what].filterMap f = (f what).toList := by
    cases told : f what <;> simp [told]
  refine ⟨?_, ?_, ?_⟩
  · rw [log, List.map_singleton, said, single]
    simp only [parts]
  · rw [commands, List.map_singleton, said, single]
  · rw [session]
    simp only [parts]

private theorem handles_goodbye (live : x.connection.session = some s)
    (said : Line.said valueCase line = .goodbye) : Handles valueCase s [line] x x.depart := by
  obtain ⟨calls, on⟩ := goesOn_depart live
  have asked (log : SessionLog) : log.after s.id (calls.map .host) = log :=
    SessionLog.after_of_ne log (by simp [Effect.session?])
  refine .one said ?_ (List.append_nil _).symm ?_
  · rw [History.log_of_goesOn on, ← List.singleton_append, SessionLog.after_append, asked,
      SessionLog.after_closed]
    simp [Said.payload?]
  · rw [depart_of_live live]
    rfl

/-- A line is handed on. -/
theorem handles_line (live : x.connection.session = some s) (valueCase : ValueCase)
    (line : Bytes) : Handles valueCase s [line] x (x.takeLine valueCase line) := by
  cases kind : Line.ofBytes line with
  | frame payload =>
    rw [takeLine_of_frame live kind]
    have said : Line.said valueCase line = .frame payload := by rw [Line.said, kind]
    have on : x.history.GoesOn [.framed s.id payload]
      (x.history.record (.framed s.id payload)) := .record _ rfl
    refine .one said ?_ (List.append_nil _).symm live
    rw [History.log_of_goesOn on, SessionLog.after_framed]
    simp [Said.payload?]
  | message text =>
    rw [takeLine_of_message live kind, takeCommand]
    have said : Line.said valueCase line = (Command.ofWire valueCase text).said := by
      rw [Line.said, kind]
    split
    · next greeting =>
      rw [Command.said, if_pos greeting] at said
      exact .one said (by simp [Said.payload?]) (List.append_nil _).symm live
    · next other =>
      rw [Command.said, if_neg other] at said
      split
      · next farewell =>
        rw [if_pos farewell] at said
        exact handles_goodbye live said
      · next remains =>
        rw [if_neg remains] at said
        exact .one said (by simp [Said.payload?]) Array.toList_push live

private theorem foldl_takeLine_of_idle (idle : x.connection.session = none)
    (valueCase : ValueCase) (lines : List Bytes) :
    linesTaken valueCase x lines = [] ∧ lines.foldl (takeLine valueCase) x = x := by
  induction lines with
  | nil => exact ⟨rfl, rfl⟩
  | cons line rest ih =>
    refine ⟨?_, ?_⟩
    · rw [linesTaken, idle]
      rfl
    · rw [List.foldl_cons, takeLine_of_idle idle]
      exact ih.2

/-- The lines of a read are handed on up to a goodbye. -/
theorem handles_lines (live : x.connection.session = some s) (valueCase : ValueCase)
    (lines : List Bytes) : linesTaken valueCase x lines = upToGoodbye valueCase lines ∧
      Handles valueCase s (upToGoodbye valueCase lines) x (lines.foldl (takeLine valueCase) x) := by
  induction lines generalizing x with
  | nil =>
    refine ⟨rfl, ?_, ?_, ?_⟩
    · simp [upToGoodbye, Parts]
    · simp [upToGoodbye]
    · simpa [upToGoodbye, Parts] using live
  | cons line rest ih =>
    have first := handles_line live valueCase line
    have alive : x.connection.session.isSome := by rw [live]; rfl
    rw [linesTaken, if_pos alive, upToGoodbye, List.foldl_cons]
    by_cases parts : Line.said valueCase line = .goodbye
    · rw [if_pos parts]
      have past : (x.takeLine valueCase line).connection.session = none := by
        rw [first.session, if_pos (by simp [Parts, parts])]
      obtain ⟨taken, same⟩ := foldl_takeLine_of_idle past valueCase rest
      rw [taken, same]
      exact ⟨rfl, first⟩
    · rw [if_neg parts]
      have stays : ¬ Parts valueCase [line] := by simpa [Parts] using Ne.symm parts
      have goes : (x.takeLine valueCase line).connection.session = some s := by
        rw [first.session, if_neg stays]
      obtain ⟨taken, others⟩ := ih goes
      rw [taken]
      exact ⟨rfl, first.trans stays others⟩

/-! ### Several reads -/

/-- The framer of a session on which a stream has been read. -/
def framerAt (stream : Bytes) : Framer :=
  ⟨defaultFragmentLimit, (Line.unfinished stream).toArray⟩

/-- How a session ends on which a stream is read, if it does: by a goodbye, or because the
unfinished line is too long. -/
def endingsOf (valueCase : ValueCase) (stream : Bytes) : List SessionEnd :=
  if Parts valueCase (Line.linesOf stream) then [.farewell]
  else if defaultFragmentLimit < (Line.unfinished stream).length then [.overlong]
  else []

/-- A session on which a stream has been read from its beginning: the lines of the stream were
handed on up to a goodbye, behind the commands that were queued before. -/
structure Reading (valueCase : ValueCase) (id : Nat) (queued : List Command) (stream : Bytes)
    (x : Intake) : Prop where
  bytes : (x.history.log id).bytes = stream
  frames : (x.history.log id).frames =
    ((upToGoodbye valueCase (Line.linesOf stream)).map (Line.said valueCase)).filterMap
      Said.payload?
  commands : x.commands.toList = queued ++
    ((upToGoodbye valueCase (Line.linesOf stream)).map (Line.said valueCase)).filterMap
      Said.command?
  endings : (x.history.log id).endings = endingsOf valueCase stream
  session : x.connection.session =
    if endingsOf valueCase stream = [] then some ⟨id, framerAt stream⟩ else none

/-- A session goes on while its peer has not said goodbye and its unfinished line is short. -/
theorem endingsOf_eq_nil_iff : endingsOf valueCase stream = [] ↔
    ¬ Parts valueCase (Line.linesOf stream) ∧
      (Line.unfinished stream).length ≤ defaultFragmentLimit := by
  unfold endingsOf
  split
  · next parts => simp [parts]
  · next stays =>
    split
    · next long => simp [long]
    · next within => simpa [stays] using within

/-- Behind complete lines without a goodbye, only a piece that is too long ends the session. -/
theorem endingsOf_append {front rest : Bytes} (ended : Line.unfinished front = [])
    (clear : lineFeed ∉ rest) (stays : ¬ Parts valueCase (Line.linesOf front)) :
    endingsOf valueCase (front ++ rest) =
      if defaultFragmentLimit < rest.length then [.overlong] else [] := by
  obtain ⟨lines, left⟩ := Line.append_of_notMem ended clear
  rw [endingsOf, lines, left, if_neg stays]

/-- One read: it fails when it makes the unfinished line too long, and otherwise ends the lines that
it adds to the stream. -/
theorem push_framerAt (stream read : Bytes) : (framerAt stream).push read =
    if defaultFragmentLimit < (Line.unfinished (stream ++ read)).length then
      (.error ⟨(Line.unfinished (stream ++ read)).length, defaultFragmentLimit⟩, .new)
    else (.ok (Line.linesOf (Line.unfinished stream ++ read)), framerAt (stream ++ read)) := by
  simp only [framerAt, Line.unfinished_append stream read]
  exact Framer.push_eq (f := framerAt stream) (Line.lineFeed_notMem_unfinished stream) read

-- A session that is over takes nothing in.
private theorem takeReads_of_idle (idle : x.connection.session = none) (valueCase : ValueCase)
    (reads : List Bytes) :
    reads.foldl (takeRead valueCase) x = x ∧ linesHanded valueCase x reads = [] := by
  induction reads with
  | nil => exact ⟨rfl, rfl⟩
  | cons read rest ih =>
    have nothing : x.linesOfRead valueCase read = [] := by rw [linesOfRead, idle]
    rw [List.foldl_cons, linesHanded, takeRead_of_idle idle, nothing]
    exact ih

namespace Reading

/-- A session that goes on has kept the unfinished line. -/
theorem inStep (reading : Reading valueCase id queued stream x)
    (goes : endingsOf valueCase stream = []) :
    x.connection.session = some ⟨id, framerAt stream⟩ ∧ x.connection.InStep x.history := by
  have live := reading.session
  rw [if_pos goes] at live
  refine ⟨live, fun t ht => ?_⟩
  obtain rfl := Option.some.inj (live.symm.trans ht)
  rw [reading.bytes]
  rfl

-- The read that makes the unfinished line too long ends the session, and brings no line.
private theorem next_overlong (reading : Reading valueCase id queued stream x)
    (goes : endingsOf valueCase stream = []) (short : read.length ≤ readSize)
    (long : defaultFragmentLimit < (Line.unfinished (stream ++ read)).length) :
    Reading valueCase id queued (stream ++ read) (x.takeRead valueCase read) ∧
      upToGoodbye valueCase (Line.linesOf (stream ++ read)) =
        upToGoodbye valueCase (Line.linesOf stream) ++ x.linesOfRead valueCase read := by
  obtain ⟨live, inStep⟩ := reading.inStep goes
  have same : Line.linesOf (stream ++ read) = Line.linesOf stream := by
    rw [Line.linesOf_append, Line.linesOf_of_notMem (lineFeed_notMem_of_long short long),
      List.append_nil]
  have ends : endingsOf valueCase (stream ++ read) = [.overlong] := by
    rw [endingsOf, same, if_neg (endingsOf_eq_nil_iff.mp goes).1, if_pos long]
  have taken : x.linesOfRead valueCase read = [] := by
    simp only [linesOfRead, live, push_framerAt, if_pos long]
  rw [taken, same, List.append_nil]
  refine ⟨?_, rfl⟩
  have lost : ∃ c, c.session = none ∧ x.takeRead valueCase read = { x with
      connection := c
      history := x.history.recordAll [.read id read, .closed id .overlong] } := by
    rw [takeRead_eq live inStep, reading.bytes, if_pos long]
    exact ⟨_, rfl, rfl⟩
  obtain ⟨c, parted, eq⟩ := lost
  have log : (x.takeRead valueCase read).history.log id = { x.history.log id with
      bytes := stream ++ read
      endings := [.overlong] } := by
    have on : x.history.GoesOn [.read id read, .closed id .overlong]
        (x.history.recordAll [.read id read, .closed id .overlong]) :=
      .recordAll _ (by simp [Effect.opens])
    rw [eq, History.log_of_goesOn on, ← List.singleton_append, SessionLog.after_append,
      SessionLog.after_read, SessionLog.after_closed, reading.bytes, reading.endings, goes]
    rfl
  constructor
  · rw [log]
  · rw [log, same]
    exact reading.frames
  · rw [eq, same]
    exact reading.commands
  · rw [log, ends]
  · rw [eq, parted, ends]
    rfl

-- Any other read hands on the lines that it ends.
private theorem next_within (reading : Reading valueCase id queued stream x)
    (goes : endingsOf valueCase stream = [])
    (within : (Line.unfinished (stream ++ read)).length ≤ defaultFragmentLimit) :
    Reading valueCase id queued (stream ++ read) (x.takeRead valueCase read) ∧
      upToGoodbye valueCase (Line.linesOf (stream ++ read)) =
        upToGoodbye valueCase (Line.linesOf stream) ++ x.linesOfRead valueCase read := by
  obtain ⟨live, inStep⟩ := reading.inStep goes
  have stays := (endingsOf_eq_nil_iff.mp goes).1
  have short := Nat.not_lt.mpr within
  let ended := Line.linesOf (Line.unfinished stream ++ read)
  let heard := x.hearing ⟨id, framerAt stream⟩ (framerAt (stream ++ read)) read
  have lines : Line.linesOf (stream ++ read) = Line.linesOf stream ++ ended :=
    Line.linesOf_append stream read
  have counted : upToGoodbye valueCase (Line.linesOf (stream ++ read)) =
      upToGoodbye valueCase (Line.linesOf stream) ++ upToGoodbye valueCase ended := by
    have earlier := upToGoodbye_append stays []
    rw [List.append_nil] at earlier
    rw [lines, upToGoodbye_append stays, earlier, upToGoodbye, List.append_nil]
  have took : x.takeRead valueCase read = ended.foldl (takeLine valueCase) heard := by
    rw [takeRead_eq live inStep, reading.bytes, if_neg short]
    rfl
  have liveHeard : heard.connection.session = some ⟨id, framerAt (stream ++ read)⟩ := rfl
  obtain ⟨taken, handles⟩ := handles_lines liveHeard valueCase ended
  rw [← took] at handles
  have handed : x.linesOfRead valueCase read = upToGoodbye valueCase ended := by
    rw [← taken]
    simp only [linesOfRead, live, push_framerAt, if_neg short]
    rfl
  have log : heard.history.log id = { x.history.log id with bytes := stream ++ read } := by
    have on : x.history.GoesOn [.read id read] heard.history := .record _ rfl
    rw [History.log_of_goesOn on, SessionLog.after_read, reading.bytes]
  have ends : endingsOf valueCase (stream ++ read) =
      if Parts valueCase (upToGoodbye valueCase ended) then [.farewell] else [] := by
    rw [endingsOf, lines, if_neg short]
    simp only [parts_append stays, parts_upToGoodbye]
  rw [handed]
  refine ⟨⟨?_, ?_, ?_, ?_, ?_⟩, counted⟩
  · rw [handles.log, log]
  · rw [handles.log, log, counted, List.map_append, List.filterMap_append, ← reading.frames]
  · rw [handles.commands, counted, List.map_append, List.filterMap_append, ← List.append_assoc,
      ← reading.commands]
    rfl
  · rw [handles.log, log, ends, reading.endings, goes]
    rfl
  · rw [handles.session, ends]
    by_cases parts : Parts valueCase (upToGoodbye valueCase ended) <;> simp [parts]

/-- A read on a session that goes on hands on the lines that it ends, even if it ends the
session. -/
theorem next (reading : Reading valueCase id queued stream x)
    (goes : endingsOf valueCase stream = []) (short : read.length ≤ readSize) :
    Reading valueCase id queued (stream ++ read) (x.takeRead valueCase read) ∧
      upToGoodbye valueCase (Line.linesOf (stream ++ read)) =
        upToGoodbye valueCase (Line.linesOf stream) ++ x.linesOfRead valueCase read := by
  by_cases long : defaultFragmentLimit < (Line.unfinished (stream ++ read)).length
  · exact reading.next_overlong goes short long
  · exact reading.next_within goes (Nat.le_of_not_lt long)

/-- Reads are taken in until one ends the session. -/
theorem run (reading : Reading valueCase id queued stream x)
    (short : ∀ read ∈ reads, read.length ≤ readSize) :
    ∃ taken, taken <+: reads ∧
      Reading valueCase id queued (stream ++ taken.flatten) (reads.foldl (takeRead valueCase) x) ∧
      upToGoodbye valueCase (Line.linesOf (stream ++ taken.flatten)) =
        upToGoodbye valueCase (Line.linesOf stream) ++ linesHanded valueCase x reads ∧
      (endingsOf valueCase (stream ++ taken.flatten) = [] → taken = reads) := by
  induction reads generalizing x stream with
  | nil =>
    refine ⟨[], List.prefix_rfl, ?_, ?_, fun _ => rfl⟩
    · rwa [List.flatten_nil, List.append_nil]
    · rw [List.flatten_nil, List.append_nil, linesHanded, List.append_nil]
  | cons read rest ih =>
    have others : ∀ r ∈ rest, r.length ≤ readSize := fun r hr => short r (.tail _ hr)
    by_cases goes : endingsOf valueCase stream = []
    · obtain ⟨after, first⟩ := reading.next goes (short read List.mem_cons_self)
      obtain ⟨taken, among, whole, lines, all⟩ := ih after others
      rw [List.append_assoc, ← List.flatten_cons] at whole lines all
      refine ⟨read :: taken, List.cons_prefix_cons.mpr ⟨rfl, among⟩, whole, ?_,
        fun on => congrArg (read :: ·) (all on)⟩
      rw [lines, first, List.append_assoc]
      rfl
    · have idle : x.connection.session = none := by rw [reading.session, if_neg goes]
      obtain ⟨past, nothing⟩ := takeReads_of_idle idle valueCase (read :: rest)
      refine ⟨[], List.nil_prefix, ?_, ?_, ?_⟩
      · rwa [past, List.flatten_nil, List.append_nil]
      · rw [nothing, List.flatten_nil, List.append_nil, List.append_nil]
      · rw [List.flatten_nil, List.append_nil]
        exact fun on => absurd on goes

end Reading

/-- A stream of short pieces never makes the unfinished line too long. -/
theorem overlong_notMem_endingsOf {whole : Bytes} (front : stream <+: whole)
    (short : ∀ piece ∈ whole.splitOn lineFeed, piece.length ≤ defaultFragmentLimit) :
    .overlong ∉ endingsOf valueCase stream := by
  obtain ⟨rest, rfl⟩ := front
  obtain ⟨more, piece⟩ := Line.exists_piece stream rest
  have within := short _ piece
  rw [List.length_append] at within
  rw [endingsOf, if_neg (c := defaultFragmentLimit < _) (by omega)]
  split <;> simp

/-- However what a peer sends on a session is cut into reads, every line that these end is handed
on, up to a goodbye and in order, until one of them ends the session. Only a goodbye and an
unfinished line that is too long end it. A read that brings the latter brings no line-feed, and
before it is cut into lines a session never holds more than the longest unfinished line and one
read. -/
theorem complete_lines_handed_on (live : x.connection.session = some ⟨id, .new⟩)
    (unread : (x.history.log id).bytes = []) (unshown : (x.history.log id).frames = [])
    (lasting : (x.history.log id).endings = [])
    (short : ∀ read ∈ reads, read.length ≤ readSize) :
    ∃ taken, taken <+: reads ∧
      linesHanded valueCase x reads = upToGoodbye valueCase (Line.linesOf taken.flatten) ∧
      Reading valueCase id x.commands.toList taken.flatten
        (reads.foldl (takeRead valueCase) x) ∧
      (endingsOf valueCase taken.flatten = [] → taken = reads) ∧
      ((∀ piece ∈ reads.flatten.splitOn lineFeed, piece.length ≤ defaultFragmentLimit) →
        .overlong ∉ endingsOf valueCase taken.flatten) ∧
      ∀ before read, before ++ [read] <+: reads →
        ∀ s, (before.foldl (takeRead valueCase) x).connection.session = some s →
          (s.framer.fragment ++ read).length ≤ defaultFragmentLimit + readSize ∧
          ∀ fault framer, s.framer.push read = (.error fault, framer) → lineFeed ∉ read := by
  have start : Reading valueCase id x.commands.toList [] x :=
    ⟨unread, unshown, (List.append_nil _).symm, lasting, live⟩
  obtain ⟨taken, among, whole, lines, all⟩ := start.run short
  refine ⟨taken, among, lines.symm, whole, all, ?_, ?_⟩
  · obtain ⟨rest, rfl⟩ := among
    rw [List.flatten_append]
    exact overlong_notMem_endingsOf (List.prefix_append _ _)
  · rintro before read ⟨after, rfl⟩ s held
    have own : read.length ≤ readSize := short read (by simp)
    have front : ∀ r ∈ before, r.length ≤ readSize := fun r hr => short r (by simp [hr])
    obtain ⟨earlier, -, reading, -, -⟩ := start.run front
    rw [List.nil_append] at reading
    by_cases goes : endingsOf valueCase earlier.flatten = []
    · obtain rfl : ⟨id, framerAt earlier.flatten⟩ = s :=
        Option.some.inj ((reading.inStep goes).1.symm.trans held)
      refine ⟨?_, fun fault framer fails => ?_⟩
      · have kept := (endingsOf_eq_nil_iff.mp goes).2
        change (Line.unfinished earlier.flatten ++ read).length ≤ _
        rw [List.length_append]
        omega
      · rw [push_framerAt] at fails
        split at fails
        · next long =>
          exact fun mem => lineFeed_notMem_of_long own long (List.mem_append_right _ mem)
        · cases fails
    · rw [reading.session, if_neg goes] at held
      cases held

/-- A goodbye that is cut in two is handed on when its second part arrives, and the lines behind it
are not. Where a line is never ended, the complete line before it is handed on, and the session ends
with the read that makes the unfinished one too long. -/
theorem complete_lines_handed_on_ended :
    let x : Intake := ⟨{ Connection.new "peer" (.ofHost "host") (fun _ _ _ => true) with
      session := some ⟨0, .new⟩ }, .start, #[], false⟩
    let reads := [Text.bytes "tilt\ngood", Text.bytes "bye\nreset\n", Text.bytes "reset\n"]
    let y := reads.foldl (takeRead .preserve) x
    let flood := Text.bytes "tilt\n" :: List.replicate 257 (List.replicate readSize 0x61)
    let z := flood.foldl (takeRead .preserve) x
    x.connection.session = some ⟨0, .new⟩ ∧ x.history.log 0 = .empty ∧
      (∀ read ∈ reads, read.length ≤ readSize) ∧
      linesHanded .preserve x reads = [Text.bytes "tilt", Text.bytes "goodbye"] ∧
      (y.history.log 0).endings = [.farewell] ∧ y.connection.session = none ∧
      (∀ read ∈ flood, read.length ≤ readSize) ∧
      linesHanded .preserve x flood = [Text.bytes "tilt"] ∧
      (z.history.log 0).endings = [.overlong] ∧ z.connection.session = none := by
  intro x reads y flood z
  have live : x.connection.session = some ⟨0, .new⟩ := rfl
  have short : ∀ read ∈ reads, read.length ≤ readSize := by decide +kernel
  have handed : linesHanded .preserve x reads = [Text.bytes "tilt", Text.bytes "goodbye"] := by
    decide +kernel
  have farewell : (y.history.log 0).endings = [.farewell] ∧ y.connection.session = none := by
    obtain ⟨taken, -, lines, reading, -⟩ :
        ∃ taken, taken <+: reads ∧
          linesHanded .preserve x reads = upToGoodbye .preserve (Line.linesOf taken.flatten) ∧
          Reading .preserve 0 [] taken.flatten y ∧ _ :=
      complete_lines_handed_on live rfl rfl rfl short
    have parts : Parts .preserve (Line.linesOf taken.flatten) := by
      rw [← parts_upToGoodbye, ← lines, handed]
      decide +kernel
    have ends : endingsOf .preserve taken.flatten = [.farewell] := if_pos parts
    rw [reading.endings, reading.session, ends]
    exact ⟨rfl, rfl⟩
  have small : ∀ read ∈ flood, read.length ≤ readSize := by
    refine List.forall_mem_cons.mpr ⟨by decide +kernel, fun read mem => ?_⟩
    rw [(List.mem_replicate.mp mem).2, List.length_replicate]
  have overlong : linesHanded .preserve x flood = [Text.bytes "tilt"] ∧
      (z.history.log 0).endings = [.overlong] ∧ z.connection.session = none := by
    obtain ⟨taken, among, lines, reading, all, -⟩ :
        ∃ taken, taken <+: flood ∧
          linesHanded .preserve x flood = upToGoodbye .preserve (Line.linesOf taken.flatten) ∧
          Reading .preserve 0 [] taken.flatten z ∧
          (endingsOf .preserve taken.flatten = [] → taken = flood) ∧ _ :=
      complete_lines_handed_on live rfl rfl rfl small
    rcases List.prefix_cons_iff.mp among with rfl | ⟨pieces, rfl, front⟩
    · exact absurd (all (by decide +kernel)) (List.cons_ne_nil _ _).symm
    obtain ⟨-, repeated⟩ := List.prefix_replicate_iff.mp front
    -- what was taken in is the line and so many bytes behind it, none of them a line-feed
    have stream : (Text.bytes "tilt\n" :: pieces).flatten =
        Text.bytes "tilt\n" ++ List.replicate (pieces.length * readSize) 0x61 := by
      rw [List.flatten_cons, repeated, List.flatten_replicate_replicate, List.length_replicate]
    have clear : lineFeed ∉ List.replicate (pieces.length * readSize) 0x61 := fun mem =>
      absurd (List.mem_replicate.mp mem).2 (by decide)
    have ended : Line.unfinished (Text.bytes "tilt\n") = [] := by decide +kernel
    have told : upToGoodbye .preserve (Line.linesOf (Text.bytes "tilt\n")) = [Text.bytes "tilt"] := by
      decide +kernel
    have stays : ¬ Parts .preserve (Line.linesOf (Text.bytes "tilt\n")) := by decide +kernel
    have ends := endingsOf_append ended clear stays
    rw [List.length_replicate] at ends
    rw [stream, (Line.append_of_notMem ended clear).1, told] at lines
    rw [stream, ends] at all
    rw [reading.endings, reading.session, stream, ends]
    by_cases long : defaultFragmentLimit < pieces.length * readSize
    · rw [if_pos long]
      exact ⟨lines, rfl, rfl⟩
    · have whole := List.cons.inj (all (if_neg long))
      rw [whole.2, List.length_replicate] at long
      exact absurd (by decide) long
  exact ⟨live, rfl, short, handed, farewell.1, farewell.2, small, overlong⟩

end Backbox.Intake
