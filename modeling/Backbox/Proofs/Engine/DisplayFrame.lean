import Backbox.Proofs.Engine.Exchange
import Backbox.Proofs.Engine.Handler
import Backbox.Proofs.Line.Name

/-!
# Display frames that are taken for commands

A display frame is known by the bytes that it begins with, a command by its name once it is trimmed
and lower-cased. A line whose name is `dmd_frame` only then, because of capitals or blanks, is not
known as a frame. It waits for the host's poll as a command that no handler may be registered for,
and is answered with an error report.
-/

namespace Backbox

namespace Line

/-- A line is a message if it does not begin like a display frame. -/
theorem ofBytes_eq_message_iff {line : Bytes} {text : String} :
    ofBytes line = .message text ↔ ¬ framePrefix <+: line ∧ text = Text.ofBytes line := by
  rw [ofBytes, ← List.isPrefixOf_iff_prefix]
  split
  · next frame => simp [frame]
  · next other => simp [other, eq_comm]

/-- A message names a display frame just if it spells this name. -/
theorem name_eq_dmd_frame_iff (valueCase : ValueCase) {line : Bytes} {text : String}
    (message : ofBytes line = .message text) :
    (Command.ofWire valueCase text).name = "dmd_frame" ↔ Spells "dmd_frame" line := by
  obtain ⟨-, rfl⟩ := ofBytes_eq_message_iff.mp message
  have plain : ∀ c ∈ "dmd_frame".toList, Text.IsPlain c := by
    simp [Text.IsPlain]
  have trimmed : Text.IsTrimmed "dmd_frame".toList := by
    constructor <;> simp [Text.isBlank]
  exact name_ofWire_eq_iff valueCase plain trimmed (by decide)

end Line

namespace Intake

variable {valueCase : ValueCase} {line : Bytes} {x : Intake} {s : Session}

/-- A message that names a display frame waits for the host's poll. -/
theorem takeLine_named {text : String} (live : x.connection.session = some s)
    (message : Line.ofBytes line = .message text)
    (named : (Command.ofWire valueCase text).name = "dmd_frame") : x.takeLine valueCase line =
      { x with commands := x.commands.push (.ofWire valueCase text) } := by
  have no_hello : (Command.ofWire valueCase text).name ≠ "hello" := by simp [named]
  have no_goodbye : (Command.ofWire valueCase text).name ≠ "goodbye" := by simp [named]
  rw [takeLine_of_message live message, takeCommand, if_neg no_hello, if_neg no_goodbye]

end Intake

namespace Engine

/-- In every run, a line that begins like a display frame is shown to the host, and no command is
made of it. Of the other lines, those that spell the name of a display frame, in other letters or
behind blanks, and no others, are read as commands of this name. Such a line waits for the host's
poll, only such lines wait as commands of this name, and the poll answers each of them with an error
report, whatever handlers are registered. -/
theorem display_frames_of_run {e₀ : Engine} (fresh : e₀.Fresh)
    (free : e₀.handlers.lookup "dmd_frame" = none) (requests : List Request) :
    let e := e₀.run requests
    (∀ line payload, Line.ofBytes line = .frame payload →
      framePrefix <+: line ∧ ∀ (x : Intake) s, x.connection.session = some s →
        x.takeLine e.valueCase line =
          { x with history := x.history.record (.framed s.id payload) }) ∧
    (∀ line text, Line.ofBytes line = .message text →
      let c := Command.ofWire e.valueCase text
      ¬ framePrefix <+: line ∧ (c.name = "dmd_frame" ↔ Line.Spells "dmd_frame" line) ∧
        (c.name = "dmd_frame" → ∀ (x : Intake) s, x.connection.session = some s →
          x.takeLine e.valueCase line = { x with commands := x.commands.push c })) ∧
    (∀ i ∈ e.inboxes, ∀ c ∈ i.commands, c.name = "dmd_frame" → ∃ line ∈ e.linesRead,
      ¬ framePrefix <+: line ∧ Line.Spells "dmd_frame" line ∧
        c = .ofWire e.valueCase (Text.ofBytes line)) ∧
    ∀ connection c, c.name = "dmd_frame" → e.dispatch connection c =
      ({ e with history := e.history.record (.dispatched connection c) }.send
        (.error "invalid command" "dmd_frame")).2 := by
  intro e
  refine ⟨fun line payload frame => ⟨?_, fun x s live => Intake.takeLine_of_frame live frame _⟩,
    fun line text message => ⟨(Line.ofBytes_eq_message_iff.mp message).1,
      Line.name_eq_dmd_frame_iff e.valueCase message,
      fun named x s live => Intake.takeLine_named live message named⟩, ?_, ?_⟩
  · by_contra other
    rw [Line.ofBytes_eq_message_iff.mpr ⟨other, rfl⟩] at frame
    cases frame
  · intro i hi c hc named
    obtain ⟨line, read, said⟩ := (sound_of_run fresh requests).exists_line hi hc
    obtain ⟨message, rfl⟩ := Line.exists_text_of_said said
    exact ⟨line, read, (Line.ofBytes_eq_message_iff.mp message).1,
      (Line.name_eq_dmd_frame_iff e.valueCase message).mp named, rfl⟩
  · intro connection c named
    have none : e.handlers.lookup "dmd_frame" = none :=
      lookup_reserved_run (by decide) free requests
    have rebuilt : (Command.ofPairs "dmd_frame" c.params.toList).name = "dmd_frame" := by
      rw [Command.name_ofPairs]
      decide
    rw [dispatch, Reaction.ofCommand, Inbound.ofCommand_of_notMem (by rw [named]; decide), named]
    simp only [rebuilt, none]
    rfl

/-- Of a display frame and a line that names one in capitals behind a blank, the second waits as a
command. -/
theorem display_frames_of_run_blank :
    let e₀ := new fun _ _ _ => true
    let e := e₀.run [.configure [("peer", .ofHost "host")], .start,
      .receive 0 (Text.bytes "dmd_frame?a=1\n\u00a0Dmd_Frame ?a=1\n")]
    e₀.Fresh ∧ e₀.handlers.lookup "dmd_frame" = none ∧
      (e.inboxes.map fun i => i.commands.map (·.name)) = [["dmd_frame"]] ∧
      ∃ line ∈ e.linesRead, ¬ framePrefix <+: line ∧ Line.Spells "dmd_frame" line := by
  intro e₀ e
  have fresh : e₀.Fresh := fresh_new _
  have free : e₀.handlers.lookup "dmd_frame" = none := rfl
  have waits : (e.inboxes.map fun i => i.commands.map (·.name)) = [["dmd_frame"]] := by
    decide +kernel
  obtain ⟨i, hi, its⟩ := List.mem_map.mp (waits ▸ List.mem_cons_self)
  obtain ⟨c, hc, named⟩ := List.mem_map.mp (its ▸ List.mem_cons_self)
  obtain ⟨-, -, told, -⟩ := display_frames_of_run fresh free
    [.configure [("peer", .ofHost "host")], .start,
      .receive 0 (Text.bytes "dmd_frame?a=1\n\u00a0Dmd_Frame ?a=1\n")]
  obtain ⟨line, read, other, spells, -⟩ := told i hi c hc named
  exact ⟨fresh, free, waits, line, read, other, spells⟩

/-- A line that names a display frame in capitals is a message, and is read as a command of this
name. It waits for the poll, which answers it with an error report. -/
theorem display_frames_of_run_capitals :
    let line := Text.bytes "DMD_FRAME?a=1"
    let e := (new fun _ _ _ => true).run [.configure [("peer", .ofHost "host")], .start,
      .receive 0 (line ++ [lineFeed])]
    let polled := e.handle (.poll 9)
    Line.ofBytes line = .message "DMD_FRAME?a=1" ∧
      (Command.ofWire .preserve "DMD_FRAME?a=1").name = "dmd_frame" ∧
      (Command.ofWire .lowercase "DMD_FRAME?a=1").name = "dmd_frame" ∧
      (e.inboxes.map fun i => i.commands.map (·.name)) = [["dmd_frame"]] ∧
      polled.1 = .count 1 ∧ (polled.2.history.journal.any fun
        | .accepted connection message =>
          connection = "peer" ∧ message = "error?command=dmd_frame&message=invalid+command"
        | _ => false) = true := by
  decide +kernel

end Engine

end Backbox
