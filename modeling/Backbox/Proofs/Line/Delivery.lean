import Backbox.Command.Catalog
import Backbox.Line.Kind
import Backbox.Proofs.Command.Wire
import Backbox.Proofs.Line.Stream

/-!
# Delivery of commands

What one side writes the other side reads. The wire texts of commands, each followed by a
line-feed, form a byte stream; cut into chunks in any way, taken in by a framer and read line
by line, it gives the commands back.
-/

namespace Backbox

/-- The command that a line reads as; a display frame is no command. -/
def Line.command? (valueCase : ValueCase) (line : Bytes) : Option Command :=
  match Line.ofBytes line with
  | .frame _ => none
  | .message text => some (.ofWire valueCase text)

namespace Command

/-- A command that can be told over a wire: in normal form, with a name of its own that
neither ends the line, nor begins the parameters, nor makes the line a display frame, and
without empty keys and values. -/
structure IsSendable (c : Command) : Prop extends c.IsNormal where
  named : c.name ≠ ""
  no_lineFeed : '\n' ∉ c.name.toList
  no_mark : '?' ∉ c.name.toList
  no_frame : ¬ "dmd_frame".toList <+: c.name.toList
  full : ∀ pair ∈ c.params.toList, pair.1 ≠ "" ∧ pair.2 ≠ ""

/-- A name by which a command can be told: it neither ends the line, nor begins the parameters, nor
makes the line a display frame. -/
structure Tellable (name : String) : Prop where
  named : name ≠ ""
  no_lineFeed : '\n' ∉ name.toList
  no_mark : '?' ∉ name.toList
  no_frame : ¬ "dmd_frame".toList <+: name.toList

/-- A command that is built with keys and values can be told over a wire if its name allows it. -/
theorem isSendable_ofPairs {name : String} {pairs : List (String × String)}
    (full : ∀ pair ∈ pairs, pair.1 ≠ "" ∧ pair.2 ≠ "") :
    (ofPairs name pairs).IsSendable ↔ Tellable (normalName name) := by
  rw [← name_ofPairs name pairs]
  constructor
  · rintro ⟨-, named, no_lineFeed, no_mark, no_frame, -⟩
    exact ⟨named, no_lineFeed, no_mark, no_frame⟩
  · rintro ⟨named, no_lineFeed, no_mark, no_frame⟩
    exact ⟨isNormal_ofPairs name pairs, named, no_lineFeed, no_mark, no_frame,
      full_ofPairs name full⟩

/-- The bytes of commands on the wire: each wire text is followed by a line-feed. -/
def streamOf (commands : List Command) : Bytes :=
  commands.flatMap fun c => Text.bytes c.toWire ++ [lineFeed]

namespace IsSendable

variable {c : Command}

-- A wire text is the name, alone or followed by the mark that begins the parameters.
private theorem toList_toWire (h : c.IsSendable) :
    ∃ query, c.toWire.toList = c.name.toList ++ query ∧ (query = [] ∨ query.head? = some '?') := by
  rw [h.toIsNormal.toWire_eq]
  split
  · exact ⟨[], by simp, .inl rfl⟩
  · exact ⟨'?' :: (Text.Form.encode c.params.toList).toList, by simp [String.toList_append],
      .inr rfl⟩

/-- A wire text is one line. -/
theorem lineFeed_notMem_toWire (h : c.IsSendable) : lineFeed ∉ Text.bytes c.toWire := by
  rw [Text.lineFeed_mem_bytes_iff, toWire, lineFeed_mem_encode_iff, Text.trim,
    String.toList_ofList]
  exact fun mem => h.no_lineFeed (Text.mem_of_mem_trimList mem)

/-- A wire text is not empty. -/
theorem bytes_toWire_ne_nil (h : c.IsSendable) : Text.bytes c.toWire ≠ [] := by
  intro empty
  have text : c.toWire = "" := by rw [← Text.ofBytes_bytes c.toWire, empty]; rfl
  obtain ⟨query, hq, -⟩ := toList_toWire h
  rw [text, String.toList_empty] at hq
  have name : c.name.toList = [] := (List.append_eq_nil_iff.mp hq.symm).1
  exact h.named (String.toList_eq_nil_iff.mp name)

-- No question mark is in a frame's prefix, so it would lie in the name as a whole.
private theorem not_frame (h : c.IsSendable) : ¬ framePrefix <+: Text.bytes c.toWire := by
  rintro ⟨rest, hrest⟩
  have wire : "dmd_frame".toList <+: c.toWire.toList := by
    refine ⟨Text.decodeUtf8 rest, ?_⟩
    rw [← Text.decodeUtf8_encodeUtf8_append, ← Text.decodeUtf8_encodeUtf8 c.toWire.toList]
    exact congrArg Text.decodeUtf8 hrest
  obtain ⟨query, hq, mark⟩ := toList_toWire h
  obtain ⟨more, hm⟩ := wire
  rw [hq] at hm
  rcases List.append_eq_append_iff.mp hm with ⟨after, hname, -⟩ | ⟨past, hframe, hquery⟩
  · exact h.no_frame ⟨after, hname.symm⟩
  · cases past with
    | nil => exact h.no_frame ⟨[], by rw [hframe, List.append_nil, List.append_nil]⟩
    | cons d past =>
      rcases mark with none | mark
      · rw [none] at hquery
        exact absurd hquery (by simp)
      · rw [hquery] at mark
        have hd : '?' ∈ "dmd_frame".toList := by
          rw [hframe, ← Option.some.inj mark]
          exact List.mem_append_right _ List.mem_cons_self
        exact absurd hd (by decide)

/-- A wire text is read as the command that it was written for. -/
theorem command?_toWire (h : c.IsSendable) :
    Line.command? .preserve (Text.bytes c.toWire) = some c := by
  have message : framePrefix.isPrefixOf (Text.bytes c.toWire) = false := by
    rw [← Bool.not_eq_true, List.isPrefixOf_iff_prefix]
    exact not_frame h
  rw [Line.command?, Line.ofBytes, message, if_neg (by decide), Text.ofBytes_bytes]
  exact congrArg some (ofWire_toWire h.toIsNormal h.no_mark h.full fun _ _ => rfl)

end IsSendable

/-- Split at its line-feeds, the stream of commands is their wire texts and nothing after
them. -/
theorem splitOn_streamOf {commands : List Command} (h : ∀ c ∈ commands, c.IsSendable) :
    (streamOf commands).splitOn lineFeed = commands.map (Text.bytes ·.toWire) ++ [[]] := by
  induction commands with
  | nil => rfl
  | cons c rest ih =>
    have first := (h c List.mem_cons_self).lineFeed_notMem_toWire
    rw [streamOf, List.flatMap_cons, List.append_assoc, List.singleton_append,
      List.splitOn_append_cons_self, List.splitOn_eq_singleton first]
    exact congrArg _ (ih fun d hd => h d (List.mem_cons_of_mem _ hd))

/-- The lines of the stream of commands are their wire texts. -/
theorem linesOf_streamOf {commands : List Command} (h : ∀ c ∈ commands, c.IsSendable) :
    Line.linesOf (streamOf commands) = commands.map (Text.bytes ·.toWire) := by
  rw [Line.linesOf, splitOn_streamOf h, List.dropLast_concat, List.filter_eq_self]
  intro line hl
  obtain ⟨c, hc, rfl⟩ := List.mem_map.mp hl
  simp [(h c hc).bytes_toWire_ne_nil]

/-- What one side sends the other receives: however the stream of sendable commands is cut
into chunks, a framer whose limit is no less than the longest wire text takes in every chunk,
is left without a fragment, and hands out lines that read as the commands in their order. -/
theorem received_eq_sent {commands : List Command} {chunks : List Bytes} {limit : Nat}
    (sendable : ∀ c ∈ commands, c.IsSendable)
    (short : ∀ c ∈ commands, (Text.bytes c.toWire).length ≤ limit)
    (cut : chunks.flatten = streamOf commands) :
    ∃ outputs : List (List Bytes),
      (Framer.withLimit limit).pushAll chunks = (outputs.map .ok, Framer.withLimit limit) ∧
      outputs.flatten.map (Line.command? .preserve) = commands.map some := by
  have pieces : ((Framer.withLimit limit).fragment ++ chunks.flatten).splitOn lineFeed =
      commands.map (Text.bytes ·.toWire) ++ [[]] := by
    rw [cut]
    exact splitOn_streamOf sendable
  have within : ∀ piece ∈ ((Framer.withLimit limit).fragment ++ chunks.flatten).splitOn lineFeed,
      piece.length ≤ (Framer.withLimit limit).limit := by
    rw [pieces]
    intro piece hp
    rcases List.mem_append.mp hp with hp | hp
    · obtain ⟨c, hc, rfl⟩ := List.mem_map.mp hp
      exact short c hc
    · rw [List.mem_singleton.mp hp]
      exact Nat.zero_le _
  obtain ⟨outputs, run, lines⟩ := Framer.pushAll_of_short List.not_mem_nil within
  refine ⟨outputs, ?_, ?_⟩
  · rw [run, Line.unfinished, pieces, List.getLastD_concat]
    rfl
  · have wires : outputs.flatten = commands.map (Text.bytes ·.toWire) := by
      rw [lines, cut]
      exact linesOf_streamOf sendable
    rw [wires, List.map_map]
    exact List.map_congr_left fun c hc => (sendable c hc).command?_toWire

/-- A stream that arrives byte by byte, with cuts inside the letters of a name and inside the
escapes of a value that holds every separator. -/
theorem received_eq_sent_byte_by_byte :
    let c := ofPairs " Größe" [("Text", "a&b=c%+\né"), ("x", "1")]
    ∃ outputs : List (List Bytes),
      (Framer.withLimit 64).pushAll ((streamOf [c, gameStart]).map ([·])) =
        (outputs.map .ok, Framer.withLimit 64) ∧
      outputs.flatten.map (Line.command? .preserve) = [some c, some gameStart] := by
  have sendable : (ofPairs " Größe" [("Text", "a&b=c%+\né"), ("x", "1")]).IsSendable :=
    ⟨isNormal_ofPairs _ _, by decide +kernel, by decide +kernel, by decide +kernel,
      by decide +kernel, by decide +kernel⟩
  have bare : gameStart.IsSendable :=
    ⟨isNormal_ofName _, by decide +kernel, by decide +kernel, by decide +kernel,
      by decide +kernel, by decide +kernel⟩
  have all : ∀ c ∈ [ofPairs " Größe" [("Text", "a&b=c%+\né"), ("x", "1")], gameStart],
      c.IsSendable := by
    intro c hc
    rcases List.mem_cons.mp hc with rfl | hc
    · exact sendable
    · rw [List.mem_singleton.mp hc]
      exact bare
  exact received_eq_sent all (by decide +kernel)
    (by rw [← List.flatMap_def, List.flatMap_singleton'])

end Command

end Backbox
