import Backbox.Proofs.Command.RoundTrip
import Backbox.Proofs.Engine.Shutdown
import Backbox.Proofs.Engine.Waiting
import Backbox.Proofs.Line.Delivery

/-!
# Commands that reach their handlers

A handler is registered under any name that the engine does not handle itself and that no handler
has. It is called for the commands of this name if their wire texts are read as what they were
written for. The names of the engine's own commands are refused, but not every name that a reader
takes for something else: a name that begins like a display frame is shown to the host, and an
empty one, or one that holds a question mark or a line-feed, is never read. A handler of such a
name is never called.
-/

namespace Backbox

/-- A command that is left to the handlers has a name, and is built once more. -/
theorem Inbound.ofCommand_eq_other {c command : Command}
    (other : Inbound.ofCommand c = .ok (.other command)) :
    command = .ofPairs c.name c.params.toList ∧ c.name ≠ "" := by
  unfold ofCommand at other
  split at other
  · cases other
  · cases other
  · cases other
  · cases other
  · unfold ofSwitch at other
    split at other
    · split at other <;> cases other
    · cases other
  · split at other <;> cases other
  · next named _ _ _ _ _ => exact ⟨(Inbound.other.inj (Except.ok.inj other)).symm, named⟩

/-- A command whose name has no meaning of its own is left to the handlers, built once more. -/
theorem Inbound.ofCommand_of_notMem {c : Command}
    (other : c.name ∉ ["", "hello", "goodbye", "error", "switch", "trigger"]) :
    Inbound.ofCommand c = .ok (.other (.ofPairs c.name c.params.toList)) := by
  unfold ofCommand
  split
  case h_7 => rfl
  all_goals
    next name => simp [name] at other

/-- Every command with a name that the engine does not handle itself is left to the handlers, as it
is if it is in normal form. -/
theorem Inbound.ofCommand_of_free {c : Command} (normal : c.IsNormal) (named : c.name ≠ "")
    (free : c.name ∉ Engine.reservedCommands) : Inbound.ofCommand c = .ok (.other c) := by
  have other : c.name ∉ ["", "hello", "goodbye", "error", "switch", "trigger"] := by
    simp only [Engine.reservedCommands, List.mem_cons, List.not_mem_nil, or_false] at free ⊢
    tauto
  rw [ofCommand_of_notMem other, normal.ofPairs_eq]

/-- A command of a name that is free goes to the handler of this name, and to nothing else. -/
theorem Reaction.ofCommand_of_handler {handler? : String → Option Handler} {handler : Handler}
    {c : Command} (normal : c.IsNormal) (named : c.name ≠ "")
    (free : c.name ∉ Engine.reservedCommands) (found : handler? c.name = some handler) :
    Reaction.ofCommand handler? c = handler c := by
  simp only [ofCommand, Inbound.ofCommand_of_free normal named free, found]

/-- The handler of a name makes no difference to commands of other names, or of none. -/
theorem Reaction.ofCommand_congr {handler? handler?' : String → Option Handler} {name : String}
    (same : ∀ other, other ≠ name → handler? other = handler?' other) {c : Command}
    (normal : c.IsNormal) (foreign : c.name = name → c.name = "") :
    Reaction.ofCommand handler? c = Reaction.ofCommand handler?' c := by
  unfold ofCommand
  cases meaning : Inbound.ofCommand c with
  | error fault => cases fault <;> rfl
  | ok inbound =>
    cases inbound with
    | other command =>
      obtain ⟨rebuilt, named⟩ := Inbound.ofCommand_eq_other meaning
      obtain rfl : command = c := rebuilt.trans normal.ofPairs_eq
      simp only [same command.name fun its => named (foreign its)]
    | hello | goodbye | error | switch | trigger => rfl

namespace Command

variable {c : Command}

-- The name of a command comes first on its line.
private theorem framePrefix_of_name (normal : c.IsNormal)
    (frame : "dmd_frame".toList <+: c.name.toList) : framePrefix <+: Text.bytes c.toWire := by
  have name : framePrefix <+: Text.bytes c.name := by
    obtain ⟨rest, hrest⟩ := frame
    refine ⟨Text.encodeUtf8 rest, ?_⟩
    rw [Text.bytes, ← hrest, framePrefix, Text.bytes, Text.encodeUtf8, Text.encodeUtf8,
      Text.encodeUtf8, List.flatMap_append]
  rw [normal.toWire_eq]
  split
  · exact name
  · rw [Text.bytes_append, Text.bytes_append, List.append_assoc]
    exact name.trans (List.prefix_append _ _)

/-- No line of a command that cannot be told by its name is read as a command of this name. -/
theorem name_of_not_tellable (normal : c.IsNormal) (untold : ¬ Tellable c.name) {line : Bytes}
    (mem : line ∈ Line.linesOf (Text.bytes c.toWire ++ [lineFeed])) {valueCase : ValueCase}
    {read : Command} (told : Line.said valueCase line = .command read) :
    read.name = c.name → read.name = "" := by
  obtain ⟨message, rfl⟩ := Line.exists_text_of_said told
  intro its
  by_contra named
  have ended : Text.bytes c.toWire ++ [lineFeed] = Text.bytes (c.toWire ++ "\n") := by
    rw [Text.bytes_append]
    rfl
  obtain ⟨text, rfl, clear⟩ := Line.exists_text_of_mem_linesOf (ended ▸ mem)
  rw [Text.ofBytes_bytes] at its named message
  -- so the name holds neither a question mark nor a line-feed, and begins like a frame
  have no_lineFeed : '\n' ∉ c.name.toList := by
    rw [← its, name_ofWire, lineFeed_mem_normalName_iff, Text.trim, String.toList_ofList]
    intro mem
    have inside := Text.mem_of_mem_trimList mem
    rw [String.toList_ofList] at inside
    exact clear (List.takeWhile_subset _ inside)
  have frame : "dmd_frame".toList <+: c.name.toList := by
    by_contra other
    exact untold ⟨its ▸ named, no_lineFeed, its ▸ mark_notMem_name_ofWire, other⟩
  have whole : lineFeed ∉ Text.bytes c.toWire := by
    rw [Text.lineFeed_mem_bytes_iff, toWire, lineFeed_mem_encode_iff, Text.trim,
      String.toList_ofList]
    exact fun mem => no_lineFeed (Text.mem_of_mem_trimList mem)
  have only : Text.bytes text = Text.bytes c.toWire := by
    rw [Line.linesOf, List.splitOn_append_cons_self, List.splitOn_eq_singleton whole] at mem
    exact List.mem_singleton.mp (List.mem_filter.mp mem).1
  have shown := List.isPrefixOf_iff_prefix.mpr (framePrefix_of_name normal frame)
  rw [Line.ofBytes, only, shown] at message
  cases message

end Command

/-- A command that can be told arrives as one line on a session that is between two lines: it is
queued, and the connection is as it was. -/
theorem Connection.receive_line {c : Connection} {s : Session} (live : c.session = some s)
    (start : s.framer = .new) {command : Command} (sendable : command.IsSendable)
    (foreign : command.name ∉ Engine.reservedCommands)
    (short : (Text.bytes command.toWire).length ≤ defaultFragmentLimit) (h : History) :
    ∃ reads : List Bytes, reads.flatten = Text.bytes command.toWire ++ [lineFeed] ∧
      c.receive .preserve (Text.bytes command.toWire ++ [lineFeed]) h =
        ⟨c, h.recordAll (reads.map (.read s.id)), #[command], false⟩ := by
  obtain ⟨id, framer⟩ := s
  obtain rfl : framer = .new := start
  generalize bytes : Text.bytes command.toWire ++ [lineFeed] = line
  have cut : (readsOf [] line).flatten = Text.bytes command.toWire ++ [lineFeed] :=
    (Intake.flatten_readsOf [] line).trans bytes.symm
  obtain ⟨text, message, read⟩ : ∃ text, Line.ofBytes (Text.bytes command.toWire) = .message text ∧
      Command.ofWire .preserve text = command := by
    have told := sendable.command?_toWire
    unfold Line.command? at told
    split at told
    · cases told
    · next text kind => exact ⟨text, kind, Option.some.inj told⟩
  have no_hello : command.name ≠ "hello" := fun its => foreign (its ▸ by decide)
  have no_goodbye : command.name ≠ "goodbye" := fun its => foreign (its ▸ by decide)
  have start : (Session.mk id .new).framer.fragment = [] := rfl
  have clear : lineFeed ∉ [] ++ Text.bytes command.toWire := sendable.lineFeed_notMem_toWire
  have some_read : ∀ read ∈ readsOf [] line, read ≠ [] := fun read =>
    Intake.ne_nil_of_mem_readsOf fun _ mem => absurd mem List.not_mem_nil
  refine ⟨readsOf [] line, cut.trans bytes, ?_⟩
  rw [Connection.receive, Intake.takeReads_line live start clear sendable.bytes_toWire_ne_nil short
    cut some_read]
  have same : ({ c with session := some ⟨id, .new⟩ } : Connection) = c := by rw [← live]
  simp only [List.nil_append, Intake.takeLine, message, read, Intake.takeCommand, no_hello,
    no_goodbye, if_false]
  exact congrArg (Intake.mk · _ _ _) same

namespace Engine

/-- A command joins the inbox of a connection, and the record goes on. -/
def withCommand (e : Engine) (name : String) (command : Command) (h : History) : Engine :=
  { e with
    inboxes := e.inboxes.map fun i =>
      if i.connection = name then { i with commands := i.commands ++ [command] } else i
    history := h }

/-- Nothing waits to be dispatched, and no connection to be removed. -/
structure Idle (e : Engine) : Prop where
  commands : ∀ i ∈ e.inboxes, i.commands = []
  departures : e.departures = []

variable {e : Engine}

/-- A command that can be told arrives on a session as one line: it joins the inbox of the
connection that holds the session, and nothing else changes but the record of what was read. -/
theorem receive_line (sound : Sound ⟨[], e⟩) (preserve : e.valueCase = .preserve) {c : Connection}
    (hc : c ∈ e.registry) {s : Session} (live : c.session = some s)
    (start : s.framer.fragment = []) {command : Command} (sendable : command.IsSendable)
    (foreign : command.name ∉ reservedCommands)
    (short : (Text.bytes command.toWire).length ≤ defaultFragmentLimit) :
    ∃ reads : List Bytes, reads.flatten = Text.bytes command.toWire ++ [lineFeed] ∧
      e.receive s.id (Text.bytes command.toWire ++ [lineFeed]) =
        e.withCommand c.name command (e.history.recordAll (reads.map (.read s.id))) := by
  obtain ⟨i, -, l, -, -, -, -, agrees⟩ := sound.exists_agrees hc
  have framer : s.framer = .new := by
    have inStep := agrees.incoming.inStep s live
    rw [inStep] at start ⊢
    exact congrArg (Framer.mk defaultFragmentLimit ·.toArray) start
  have found : e.connectionOf? s.id = some c := by
    cases holder : e.connectionOf? s.id with
    | none =>
      have missing := List.find?_eq_none.mp holder c hc
      simp [live] at missing
    | some d =>
      unfold connectionOf? at holder
      have hd := List.mem_of_find?_eq_some holder
      have holds := List.find?_some holder
      obtain ⟨t, its, same⟩ := (Option.any_eq_true _ _).mp holds
      by_cases own : d.name = c.name
      · rw [sound.eq_of_name hd hc own]
      · exact absurd (of_decide_eq_true same) (sound.session_ne hc hd own live its)
  have registry : e.replace c = e.registry := by
    refine (List.map_congr_left fun d hd => ?_).trans (List.map_id _)
    split
    · next own => exact sound.eq_of_name hc hd own.symm
    · rfl
  obtain ⟨reads, cut, heard⟩ :=
    Connection.receive_line live framer sendable foreign short e.history
  rw [← preserve] at heard
  refine ⟨reads, cut, ?_⟩
  simp only [receive, found, heard, registry]
  rfl

/-- A command that joins an inbox waits behind what waited. -/
theorem waiting_withCommand {name : String} (mem : name ∈ e.inboxes.map (·.connection))
    (command : Command) (h : History) :
    (e.withCommand name command h).waiting name = e.waiting name ++ [command] :=
  waiting_of_mem (e := e) (· ++ [command]) mem

/-- The inboxes are the same when a command joins one of them. -/
theorem mem_withCommand {name : String} (mem : name ∈ e.inboxes.map (·.connection))
    (command : Command) (h : History) :
    name ∈ (e.withCommand name command h).inboxes.map (·.connection) := by
  obtain ⟨i, hi, rfl⟩ := List.mem_map.mp mem
  exact List.mem_map.mpr ⟨_, List.mem_map_of_mem hi, by rw [if_pos rfl]⟩

/-- A poll carries out the reaction to a command that joins an inbox while nothing waits, and
nothing else, if nothing arrives during the reaction. -/
theorem poll_withCommand (idle : e.Idle) {name : String} {command : Command}
    (mem : name ∈ e.inboxes.map (·.connection))
    (quiet : (Reaction.ofCommand (e.handlers.lookup ·) command).Quiet) (h : History) (bound : Nat) :
    (e.withCommand name command h).poll (bound + 2) =
      some (1, ({ e with history := h } : Engine).dispatch name command) := by
  have none : ∀ n, e.waiting n = [] := by
    intro n
    unfold waiting
    split
    · next i found => exact idle.commands i (List.mem_of_find?_eq_some found)
    · rfl
  have own : (e.withCommand name command h).waiting name = [command] := by
    rw [waiting_withCommand mem, none, List.nil_append]
  have others : ∀ n, n ≠ name → (e.withCommand name command h).waiting n = [] := fun n differ =>
    (waiting_of_ne (e := e) (· ++ [command]) differ).trans (none n)
  obtain ⟨e₁, taken, polled⟩ :=
    poll_of_single (mem_withCommand mem command h) own others idle.departures quiet bound
  have emptied : e₁ = { e with history := h } := by
    obtain ⟨-, rfl⟩ := takeCommand_eq taken
    have inboxes : (e.withCommand name command h).inboxes.map (fun i =>
        if i.connection = name then { i with commands := i.commands.tail } else i) = e.inboxes := by
      rw [withCommand, List.map_map]
      refine (List.map_congr_left fun i hi => ?_).trans (List.map_id _)
      obtain ⟨connection, commands⟩ := i
      obtain rfl : commands = [] := idle.commands _ hi
      by_cases its : connection = name <;> simp [its]
    rw [inboxes]
    rfl
  rw [polled, emptied]

/-- In every run, a handler that is registered is called for the commands of its name that arrive
as they were sent. Such a command comes as one line on a session that is between two lines: it joins
the inbox of the connection, and nothing else changes. A poll dispatches what waited before, and
then this command; where nothing waits and the handler lets nothing arrive, the poll carries out the
reaction of the handler to this command, once, and nothing else. If a command of the name cannot be
told over a wire, then nothing that is read from its line is left to the handler: another one of
this name, or none, would make no difference. -/
theorem handler_called_of_run {e₀ : Engine} (fresh : e₀.Fresh) (before later : List Request)
    {name : String} {handler : Handler}
    (accepted : ∃ e, (e₀.run before).register name handler = .ok e)
    {pairs : List (String × String)} (full : ∀ pair ∈ pairs, pair.1 ≠ "" ∧ pair.2 ≠ "") :
    let e := e₀.run (before ++ .register name handler :: later)
    let command := Command.ofPairs name pairs
    let line := Text.bytes command.toWire ++ [lineFeed]
    (Command.Tellable command.name →
      (∀ d : Engine, d.handlers = e.handlers → ∀ connection, d.dispatch connection command =
        react (handler command)
          { d with history := d.history.record (.dispatched connection command) }) ∧
      (e₀.valueCase = .preserve → line.length ≤ defaultFragmentLimit + 1 →
        ∀ c ∈ e.registry, ∀ s, c.session = some s → s.framer.fragment = [] →
          ∃ reads : List Bytes, reads.flatten = line ∧
            let h := e.history.recordAll (reads.map (.read s.id))
            let heard := e.receive s.id line
            heard = e.withCommand c.name command h ∧
            (∀ bound count e', heard.poll bound = some (count, e') →
              ∃ es more, h.GoesOn es e'.history ∧
                es.filterMap (·.commandFor? c.name) = e.waiting c.name ++ command :: more) ∧
            (e.Idle → (handler command).Quiet → ∀ bound, heard.poll (bound + 2) =
              some (1, react (handler command)
                { e with history := h.record (.dispatched c.name command) })))) ∧
    (¬ Command.Tellable command.name → ∀ received ∈ Line.linesOf line, ∀ valueCase read,
      Line.said valueCase received = .command read →
        ∀ handler? handler?' : String → Option Handler,
          (∀ other, other ≠ command.name → handler? other = handler?' other) →
            Reaction.ofCommand handler? read = Reaction.ofCommand handler?' read) := by
  intro e command line
  obtain ⟨e₁, accepted⟩ := accepted
  obtain ⟨free, -⟩ := register_ok_iff.mp accepted
  have known : e.handlers.lookup (Command.normalName name) = some handler := by
    have later := lookup_of_registered accepted later
    rwa [← run_append] at later
  rw [← Command.name_ofPairs name pairs] at free known
  have normal : command.IsNormal := Command.isNormal_ofPairs name pairs
  refine ⟨fun tellable => ?_, fun untold received mem valueCase read told handler? handler?' same =>
    Reaction.ofCommand_congr same (Line.isNormal_of_said told)
      (Command.name_of_not_tellable normal untold mem told)⟩
  have reaction : Reaction.ofCommand (e.handlers.lookup ·) command = handler command :=
    Reaction.ofCommand_of_handler normal tellable.named free known
  have dispatched (d : Engine) (same : d.handlers = e.handlers) (connection : String) :
      d.dispatch connection command = react (handler command)
        { d with history := d.history.record (.dispatched connection command) } := by
    rw [dispatch, same, reaction]
  refine ⟨dispatched, fun preserve short c hc s live start => ?_⟩
  have sound : Sound ⟨[], e⟩ := sound_of_run fresh _
  have sendable : command.IsSendable :=
    (Command.isSendable_ofPairs full).mpr (Command.name_ofPairs name pairs ▸ tellable)
  have within : (Text.bytes command.toWire).length ≤ defaultFragmentLimit := by
    rw [List.length_append, List.length_singleton] at short
    exact Nat.le_of_succ_le_succ short
  obtain ⟨reads, cut, joined⟩ := receive_line sound ((valueCase_run e₀ _).trans preserve) hc live
    start sendable free within
  have mem : c.name ∈ e.inboxes.map (·.connection) := sound.inboxes ▸ List.mem_map_of_mem hc
  refine ⟨reads, cut, joined, fun bound count e' polled => ?_, fun idle quiet bound => ?_⟩
  · have heard := sound.receive s.id line
    rw [joined] at polled heard
    obtain ⟨es, more, on, served⟩ := poll_serves heard polled (mem_withCommand mem _ _)
    rw [waiting_withCommand mem, List.append_assoc] at served
    exact ⟨es, more, on, served⟩
  · rw [joined, poll_withCommand idle mem (reaction ▸ quiet), dispatched
      { e with history := e.history.recordAll (reads.map (.read s.id)) } rfl c.name]

/-- The reaction to a command that arrives under a name that was registered with blanks and
capitals. -/
theorem handler_called_of_run_tilt :
    let e₀ := new fun _ _ _ => true
    let handler : Handler := fun c => .send (.error "tilt" c.name) fun accepted =>
      .note (.acknowledged accepted) .done
    let before := [Request.configure [("peer", .ofHost "host")], .start]
    let pairs := [("Reason", "a&b=\n"), ("x", "1")]
    let e := e₀.run (before ++ .register " Tilt " handler :: [.wait 1])
    let command := Command.ofPairs " Tilt " pairs
    e₀.Fresh ∧ (∃ e, (e₀.run before).register " Tilt " handler = .ok e) ∧
      (∀ pair ∈ pairs, pair.1 ≠ "" ∧ pair.2 ≠ "") ∧ Command.Tellable command.name ∧
      ∃ reads : List Bytes, reads.flatten = Text.bytes command.toWire ++ [lineFeed] ∧
        (e.receive 0 (Text.bytes command.toWire ++ [lineFeed])).poll 2 =
          some (1, react (handler command) { e with
            history := (e.history.recordAll (reads.map (.read 0))).record
              (.dispatched "peer" command) }) := by
  intro e₀ handler before pairs e command
  have fresh : e₀.Fresh := fresh_new _
  have accepted : ∃ e, (e₀.run before).register " Tilt " handler = .ok e :=
    ⟨_, register_ok_iff.mpr ⟨by decide +kernel, by decide +kernel, rfl⟩⟩
  have full : ∀ pair ∈ pairs, pair.1 ≠ "" ∧ pair.2 ≠ "" := by decide
  have tellable : Command.Tellable command.name :=
    ⟨by decide +kernel, by decide +kernel, by decide +kernel, by decide +kernel⟩
  have idle : e.Idle := ⟨by decide +kernel, by decide +kernel⟩
  have held : (e.registry.map fun c => (c.name, c.session.map fun s => (s.id, s.framer.fragment))) =
      [("peer", some (0, []))] := by decide +kernel
  obtain ⟨c, hc, its⟩ := List.mem_map.mp (held ▸ List.mem_cons_self)
  obtain ⟨named, session⟩ := Prod.mk.inj its
  obtain ⟨s, live, start⟩ := Option.map_eq_some_iff.mp session
  obtain ⟨own, start⟩ := Prod.mk.inj start
  obtain ⟨-, called⟩ := (handler_called_of_run fresh before [.wait 1] accepted full).1 tellable
  obtain ⟨reads, cut, -, -, polled⟩ := called rfl (by decide +kernel) c hc s live start
  rw [own, named] at polled
  exact ⟨fresh, accepted, full, tellable, reads, cut, polled idle (fun _ => trivial) 0⟩

/-- A handler is registered under a name that begins like a display frame. The command of this name
that a peer sends is shown to the host as a frame, and the handler is not called. -/
theorem handler_called_of_run_framed :
    let handler : Handler := fun c => .note (.handled "dmd_frames" c) .done
    let e₀ := (new fun _ _ _ => true).run [.configure [("peer", .ofHost "host")], .start]
    let registered := e₀.handle (.register "dmd_frames" handler)
    let heard := registered.2.receive 0
      (Text.bytes (Command.ofPairs "dmd_frames" []).toWire ++ [lineFeed])
    let polled := heard.handle (.poll 9)
    registered.1 = .done ∧ polled.1 = .count 0 ∧
      (polled.2.history.journal.all fun
        | .host (.note _) | .dispatched .. => false
        | _ => true) = true ∧
      (polled.2.history.journal.head?.any fun
        | .framed session payload => session = 0 ∧ payload = []
        | _ => false) = true := by
  decide +kernel

end Engine

end Backbox
