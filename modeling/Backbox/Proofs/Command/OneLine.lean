import Backbox.Probe.Run
import Backbox.Proofs.Command.Wire
import Backbox.Proofs.Line.Stream

/-!
# Commands on one line

A wire text that is followed by a line-feed is one line for its reader only if it holds none
itself. Keys and values are escaped, so they never break a line. Names are trimmed and
lower-cased, but not escaped: a line-feed inside a name ends the line there, and what follows it
is read as a line of its own.
-/

namespace Backbox

/-- A text that its reader takes for one line, once a line-feed ends it. -/
def IsOneLine (text : String) : Prop :=
  (Text.bytes text ++ [lineFeed]).splitOn lineFeed = [Text.bytes text, []]

instance (text : String) : Decidable (IsOneLine text) := inferInstanceAs (Decidable (_ = _))

/-- A text is one line if it holds no line-feed. -/
theorem isOneLine_iff {text : String} : IsOneLine text ↔ '\n' ∉ text.toList := by
  rw [← Text.lineFeed_mem_bytes_iff]
  refine ⟨fun one => ?_, fun clear => ?_⟩
  · have piece : Text.bytes text ∈ (Text.bytes text ++ [lineFeed]).splitOn lineFeed :=
      one ▸ List.mem_cons_self
    exact Line.lineFeed_notMem_of_mem_splitOn piece
  · rw [IsOneLine, List.splitOn_append_cons_self, List.splitOn_eq_singleton clear]
    rfl

namespace Command

variable {name : String} {params : Params}

/-- A wire text is one line if no line-feed is inside its name. -/
theorem isOneLine_encode : IsOneLine (encode name params) ↔ '\n' ∉ (Text.trim name).toList := by
  rw [isOneLine_iff, lineFeed_mem_encode_iff]

/-- A command that was built of a name and parameters is one line if no line-feed is inside this
name. -/
theorem isOneLine_toWire {c : Command} (built : c.name = normalName name) :
    IsOneLine c.toWire ↔ '\n' ∉ (Text.trim name).toList := by
  rw [toWire, isOneLine_encode, ← lineFeed_mem_normalName_iff, built, normalName_normalName,
    lineFeed_mem_normalName_iff]

/-- The probe's message is one line if no line-feed is inside the name that it begins with. -/
theorem isOneLine_command? (message : String) :
    Probe.command? message = .error (.notCommand message) ∨
      ∃ c, Probe.command? message = .ok c ∧ (IsOneLine c.toWire ↔ '\n' ∉ (Text.trim
        (String.ofList ((Text.trim message).toList.takeWhile (· ≠ '?')))).toList) := by
  unfold Probe.command?
  simp only
  split
  · exact .inl rfl
  · exact .inr ⟨_, rfl, isOneLine_toWire (name_ofWire ..)⟩

/-- The line by which the probe echoes an event is one line if no line-feed is inside the name of
the event. -/
theorem isOneLine_echo? (event : String) (fields : Params) (awaited : Bool) :
    ∃ line, Probe.echo? (.post event fields awaited) = some line ∧
      (IsOneLine line ↔ '\n' ∉ (Text.trim event).toList) := by
  have whole : '\n' ∈ ("event " ++ encode event fields).toList ↔
      '\n' ∈ (encode event fields).toList := by
    simp [String.toList_append]
  refine ⟨_, rfl, ?_⟩
  rw [isOneLine_iff, whole, ← isOneLine_iff, isOneLine_encode]

/-- What the engine says of its own accord is one line, as it has a fixed name. -/
theorem isOneLine_own (first second third fourth : String) (params : Params) :
    ∀ c ∈ [hello first, goodbye, error first second, callbackTrigger first params,
      scoreChange first second third, playerVariable first second third fourth],
      IsOneLine c.toWire := by
  have fixed {name : String} {c : Command} (built : c.name = normalName name)
      (clear : '\n' ∉ (Text.trim name).toList) : IsOneLine c.toWire :=
    (isOneLine_toWire built).mpr clear
  simp only [List.forall_mem_cons, List.not_mem_nil, false_imp_iff, implies_true, and_true]
  exact ⟨fixed rfl (by decide), fixed rfl (by decide), fixed rfl (by decide),
    fixed (name_ofPairs "trigger" params.toList) (by decide), fixed rfl (by decide),
    fixed rfl (by decide)⟩

/-- Whatever its keys and values are, a message is one line exactly if no line-feed is inside its
name. So it is with every command that is built of a name and parameters, with the command that
stands for an event of the host, and with the probe's messages and the events that it echoes. What
the engine says of its own accord is always one line. -/
theorem isOneLine_iff_name (name : String) (params : Params) :
    (IsOneLine (encode name params) ↔ '\n' ∉ (Text.trim name).toList) ∧
    (∀ pairs, IsOneLine (ofPairs name pairs).toWire ↔ '\n' ∉ (Text.trim name).toList) ∧
    (∀ templates fields player,
      IsOneLine (EventMap.renderMapping ⟨name, templates⟩ fields player).toWire ↔
        '\n' ∉ (Text.trim name).toList) ∧
    (∀ message, Probe.command? message = .error (.notCommand message) ∨
      ∃ c, Probe.command? message = .ok c ∧ (IsOneLine c.toWire ↔ '\n' ∉ (Text.trim
        (String.ofList ((Text.trim message).toList.takeWhile (· ≠ '?')))).toList)) ∧
    (∀ awaited, ∃ line, Probe.echo? (.post name params awaited) = some line ∧
      (IsOneLine line ↔ '\n' ∉ (Text.trim name).toList)) ∧
    ∀ first second third fourth, ∀ c ∈ [hello first, goodbye, error first second,
      callbackTrigger first params, scoreChange first second third,
      playerVariable first second third fourth], IsOneLine c.toWire := by
  refine ⟨isOneLine_encode, fun pairs => ?_, fun templates fields player => ?_,
    isOneLine_command?, isOneLine_echo? name params, fun first second third fourth =>
    isOneLine_own first second third fourth params⟩
  · exact isOneLine_toWire (name_ofPairs name pairs)
  · exact isOneLine_toWire (name_ofPairs name _)

/-- A line-feed inside a name makes two lines of one message. -/
theorem linesOf_encode_broken :
    ¬ IsOneLine (encode "a\nb" .empty) ∧
      Line.linesOf (Text.bytes (encode "a\nb" .empty) ++ [lineFeed]) =
        [Text.bytes "a", Text.bytes "b"] := by
  decide +kernel

end Command

end Backbox
