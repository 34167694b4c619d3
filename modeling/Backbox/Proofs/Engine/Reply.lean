import Backbox.Proofs.Command.OneLine
import Backbox.Proofs.Command.RoundTrip
import Backbox.Proofs.Connection.Inbound

/-!
# Replies and what they draw

Without handlers, a command is answered with one command at most: an error report at once, or, when
the host has completed the event of a trigger, the trigger that its callback asks for. Neither draws
a reply itself. An error report is never answered, and the trigger that answers a callback asks for
none, in whatever letter case values are read.
-/

namespace Backbox

/-- A trigger passes on its parameters but its name and its callback. -/
theorem Inbound.params_of_trigger {c : Command} {name : String} {callback : Option String}
    {params : Params} (meaning : Inbound.ofCommand c = .ok (.trigger name callback params)) :
    params = (c.params.erase "name").erase "callback" := by
  unfold ofCommand at meaning
  split at meaning
  · cases meaning
  · cases meaning
  · cases meaning
  · cases meaning
  · unfold ofSwitch at meaning
    split at meaning
    · split at meaning <;> cases meaning
    · cases meaning
  · split at meaning
    · cases meaning
    · exact (Inbound.trigger.inj (Except.ok.inj meaning)).2.2.symm
  · cases meaning

/-- The commands that answer other commands: error reports, and triggers that ask for no callback. -/
inductive Command.IsReply : Command → Prop where
  | error (message name : String) : IsReply (.error message name)
  | trigger (callback : String) {params : Params}
      (none : ∀ pair ∈ params.toList, Text.lower pair.1 ≠ "callback") :
    IsReply (callbackTrigger callback params)

namespace Reaction

/-- A reaction that answers with one command at most: at once, or when the host has completed the
event that it posts. -/
inductive Answers : Reaction → Option Command → Prop where
  | silent : Answers .done none
  | setSwitch (name : String) (active logical : Bool) :
    Answers (.setSwitch name active logical .done) none
  | post (event : String) (fields : Params) : Answers (.post event fields .done) none
  | atOnce (reply : Command) : Answers (.reply reply) (some reply)
  | onCompletion (event : String) (fields : Params) (reply : Command) :
    Answers (.postAwaited event fields (.reply reply) .done) (some reply)

/-- A reaction has one answer. -/
theorem Answers.unique {reaction : Reaction} {answer other : Option Command}
    (answers : reaction.Answers answer) (also : reaction.Answers other) : answer = other := by
  cases answers <;> cases also <;> rfl

/-- What an engine without handlers does about a line. Frames, greetings and goodbyes are not left
to it. -/
def ofLine (valueCase : ValueCase) (line : Bytes) : Reaction :=
  match Line.said valueCase line with
  | .command c => .ofCommand (fun _ => none) c
  | .frame _ | .hello | .goodbye => .done

/-- Without handlers, a command in normal form is answered with one reply at most. -/
theorem answers_ofCommand {c : Command} (normal : c.IsNormal) :
    ∃ answer, (ofCommand (fun _ => none) c).Answers answer ∧ ∀ reply ∈ answer, reply.IsReply := by
  have silent : ∀ reply ∈ (none : Option Command), reply.IsReply := fun _ mem => by cases mem
  have single {reply : Command} (isReply : reply.IsReply) :
      ∀ other ∈ some reply, other.IsReply := fun _ mem => Option.some.inj mem ▸ isReply
  unfold ofCommand
  split
  · exact ⟨none, .silent, silent⟩
  · exact ⟨none, .silent, silent⟩
  · exact ⟨none, .silent, silent⟩
  · exact ⟨none, .setSwitch .., silent⟩
  · next name callback params meaning =>
    cases callback with
    | none => exact ⟨none, .post .., silent⟩
    | some callback =>
      refine ⟨_, .onCompletion .., single (.trigger callback fun pair mem => ?_)⟩
      rw [Inbound.params_of_trigger meaning] at mem
      obtain ⟨mem, other⟩ := List.mem_filter.mp mem
      rw [normal.keys_eq pair (List.mem_filter.mp mem).1]
      exact of_decide_eq_true other
  · exact ⟨_, .atOnce _, single (.error ..)⟩
  · exact ⟨none, .silent, silent⟩
  · exact ⟨_, .atOnce _, single (.error ..)⟩
  · exact ⟨_, .atOnce _, single (.error ..)⟩

/-- Whatever line arrives, an engine without handlers answers with one reply at most. -/
theorem answers_ofLine (valueCase : ValueCase) (line : Bytes) :
    ∃ answer, (ofLine valueCase line).Answers answer ∧ ∀ reply ∈ answer, reply.IsReply := by
  unfold ofLine
  split
  · next c said =>
    exact answers_ofCommand (Line.isNormal_of_said said)
  all_goals exact ⟨none, .silent, fun _ mem => by cases mem⟩

/-- Error reports are never answered. -/
theorem ofCommand_error {handler? : String → Option Handler} {c : Command}
    (name : c.name = "error") : ofCommand handler? c = .done := by
  simp only [ofCommand, Inbound.ofCommand, name]

/-- Without handlers, a trigger that asks for no callback is not answered. -/
theorem answers_trigger {c : Command} (name : c.name = "trigger")
    (none : c.params.get? "callback" = none) : (ofCommand (fun _ => .none) c).Answers .none := by
  simp only [ofCommand, Inbound.ofCommand, name, none]
  cases c.params.get? "name" with
  | none => exact .silent
  | some name => exact .post ..

end Reaction

namespace Command.IsReply

variable {reply : Command}

/-- A reply is told as one line. -/
theorem isOneLine (isReply : reply.IsReply) : IsOneLine reply.toWire := by
  cases isReply with
  | error message name => exact isOneLine_own message name "" "" .empty _ (by simp)
  | @trigger callback params =>
    exact isOneLine_own callback "" "" "" params _ (by simp)

/-- A reply draws no reply, whatever the letter case is in which values are read. -/
theorem silent (isReply : reply.IsReply) (valueCase : ValueCase) :
    (Reaction.ofLine valueCase (Text.bytes reply.toWire)).Answers none := by
  unfold Reaction.ofLine
  split
  · next c said =>
    obtain ⟨-, rfl⟩ := Line.exists_text_of_said said
    rw [Text.ofBytes_bytes, Command.toWire]
    cases isReply with
    | error message name =>
      have named : (Command.error message name).name = Command.normalName "error" := rfl
      have own : Command.normalName (Command.normalName "error") = "error" := by decide
      rw [named, Command.ofWire_encode valueCase (by decide), Reaction.ofCommand_error own]
      exact .silent
    | @trigger callback params none =>
      have named : (callbackTrigger callback params).name = Command.normalName "trigger" :=
        Command.name_ofPairs "trigger" params.toList
      have own : Command.normalName (Command.normalName "trigger") = "trigger" := by decide
      rw [named, Command.ofWire_encode valueCase (by decide)]
      refine Reaction.answers_trigger own ?_
      rw [Command.get?_readPairs, List.find?_eq_none.mpr, Option.map_none]
      intro pair mem reads
      obtain ⟨-, -, key⟩ := of_decide_eq_true reads
      rcases KeyMap.mem_insertEntry mem with rfl | mem
      · have other : Text.lower (Text.lower "name") ≠ "callback" := by decide
        exact other key
      · obtain ⟨given, its, rfl⟩ := Command.exists_of_mem_ofPairs mem
        exact none given its ((Text.lower_lower _).symm.trans key)
  all_goals exact .silent

end Command.IsReply

end Backbox
