import Backbox.Line.Framer
import Backbox.Proofs.Text.Form

/-!
# The lines of a byte stream

What a stream says line by line, whatever the chunks are in which it arrives: the pieces
that a line-feed ends, without the empty ones, and the unfinished piece after the last
line-feed. A framer that has kept the unfinished piece hands out, chunk by chunk, the lines
that the chunk adds to those of the stream before it.
-/

namespace Backbox

open Text.Form

/-- The byte of a line-feed stands for a line-feed and nothing else. -/
theorem Text.lineFeed_mem_bytes_iff {s : String} : lineFeed ∈ bytes s ↔ '\n' ∈ s.toList :=
  ⟨fun h => ofNat_mem_of_mem_bytes h (by decide), fun h =>
    List.mem_flatMap.mpr ⟨'\n', h, by decide⟩⟩

namespace Line

/-- The lines of a stream: what its line-feeds end, without the empty lines. -/
def linesOf (stream : Bytes) : List Bytes :=
  (stream.splitOn lineFeed).dropLast.filter (!·.isEmpty)

/-- What a stream holds after its last line-feed. -/
def unfinished (stream : Bytes) : Bytes := (stream.splitOn lineFeed).getLastD []

private theorem splitOn_append_of_notMem {front : Bytes} (h : lineFeed ∉ front) (bs : Bytes) :
    (front ++ bs).splitOn lineFeed = (bs.splitOn lineFeed).modifyHead (front ++ ·) := by
  obtain ⟨first, more, hbs⟩ := List.exists_cons_of_ne_nil (List.splitOn_ne_nil lineFeed bs)
  induction front with
  | nil => simp [hbs]
  | cons b rest ih =>
    have hb : (b == lineFeed) = false :=
      beq_eq_false_iff_ne.mpr fun e => h (e ▸ List.mem_cons_self)
    rw [List.cons_append, List.splitOn_cons_eq_if_modifyHead, hb,
      ih fun hm => h (List.mem_cons_of_mem _ hm), hbs]
    rfl

/-- A stream is split where its front part is, and what the front part leaves unfinished goes
on with the rest. -/
theorem splitOn_append (front rest : Bytes) :
    (front ++ rest).splitOn lineFeed =
      (front.splitOn lineFeed).dropLast ++ (unfinished front ++ rest).splitOn lineFeed := by
  induction front with
  | nil => rfl
  | cons b front ih =>
    obtain ⟨first, more, hf⟩ :=
      List.exists_cons_of_ne_nil (List.splitOn_ne_nil lineFeed front)
    rw [List.cons_append, List.splitOn_cons_eq_if_modifyHead, ih]
    unfold unfinished at ih ⊢
    rw [List.splitOn_cons_eq_if_modifyHead b front, hf]
    by_cases hb : b = lineFeed
    · simp [hb, List.getLastD_eq_getLast?]
    · simp only [beq_iff_eq, hb, if_false, List.modifyHead_cons]
      cases more with
      | nil =>
        have hne : (b == lineFeed) = false := beq_eq_false_iff_ne.mpr hb
        simp only [List.dropLast_singleton, List.nil_append, List.getLastD_cons,
          List.getLastD_nil, List.cons_append]
        rw [List.splitOn_cons_eq_if_modifyHead, hne]
        rfl
      | cons next more => simp [List.getLastD_eq_getLast?]

/-- Only the unfinished piece of a stream tells where its next lines begin. -/
theorem linesOf_append (front rest : Bytes) :
    linesOf (front ++ rest) = linesOf front ++ linesOf (unfinished front ++ rest) := by
  rw [linesOf, splitOn_append, List.dropLast_append_of_ne_nil (List.splitOn_ne_nil _ _),
    List.filter_append]
  rfl

/-- What a stream leaves unfinished depends on what its front part leaves. -/
theorem unfinished_append (front rest : Bytes) :
    unfinished (front ++ rest) = unfinished (unfinished front ++ rest) := by
  unfold unfinished
  rw [splitOn_append, List.getLastD_eq_getLast?, List.getLastD_eq_getLast?,
    List.getLast?_append, Option.or_of_isSome
      (List.getLast?_isSome.mpr (List.splitOn_ne_nil _ _))]
  rfl

/-- No line-feed is in a piece. -/
theorem lineFeed_notMem_of_mem_splitOn {stream piece : Bytes}
    (h : piece ∈ stream.splitOn lineFeed) : lineFeed ∉ piece := by
  induction stream generalizing piece with
  | nil => simp_all
  | cons b rest ih =>
    obtain ⟨first, more, hr⟩ := List.exists_cons_of_ne_nil (List.splitOn_ne_nil lineFeed rest)
    rw [List.splitOn_cons_eq_if_modifyHead] at h
    split at h
    · rcases List.mem_cons.mp h with rfl | h
      · simp
      · exact ih h
    · next hb =>
      rw [hr, List.modifyHead_cons] at h
      rcases List.mem_cons.mp h with rfl | h
      · intro hm
        rcases List.mem_cons.mp hm with rfl | hm
        · simp at hb
        · exact ih (hr ▸ List.mem_cons_self) hm
      · exact ih (hr ▸ List.mem_cons_of_mem _ h)

/-- The bytes of characters are split where their line-feeds are. -/
theorem splitOn_encodeUtf8 (cs : List Char) :
    (Text.encodeUtf8 cs).splitOn lineFeed = (cs.splitOn '\n').map Text.encodeUtf8 := by
  induction cs with
  | nil => rfl
  | cons c rest ih =>
    have first : Text.encodeUtf8 (c :: rest) = String.utf8EncodeChar c ++ Text.encodeUtf8 rest :=
      List.flatMap_cons
    obtain ⟨piece, more, hr⟩ := List.exists_cons_of_ne_nil (List.splitOn_ne_nil '\n' rest)
    rw [hr] at ih
    rw [first, List.splitOn_cons_eq_if_modifyHead]
    by_cases ended : c = '\n'
    · have byte : String.utf8EncodeChar '\n' = [lineFeed] := by decide
      rw [ended, byte, List.singleton_append, List.splitOn_cons_eq_if_modifyHead, if_pos (by simp),
        if_pos (by simp), ih, hr]
      rfl
    · have clear : lineFeed ∉ String.utf8EncodeChar c := fun mem => by
        have one : lineFeed ∈ Text.bytes (String.singleton c) := by
          simpa [Text.bytes, Text.encodeUtf8] using mem
        have char := Text.lineFeed_mem_bytes_iff.mp one
        simp only [String.toList_singleton, List.mem_singleton] at char
        exact ended char.symm
      rw [splitOn_append_of_notMem clear, ih, hr, if_neg (by simpa using ended)]
      rfl

/-- Every line of the bytes of a text is itself a text. -/
theorem exists_text_of_mem_linesOf {s : String} {line : Bytes}
    (mem : line ∈ linesOf (Text.bytes s)) : ∃ t, line = Text.bytes t ∧ '\n' ∉ t.toList := by
  have piece := List.dropLast_subset _ (List.mem_filter.mp mem).1
  have clear := lineFeed_notMem_of_mem_splitOn piece
  rw [Text.bytes, splitOn_encodeUtf8] at piece
  obtain ⟨cs, -, rfl⟩ := List.mem_map.mp piece
  have text : Text.encodeUtf8 cs = Text.bytes (String.ofList cs) := by
    rw [Text.bytes, String.toList_ofList]
  rw [text] at clear
  exact ⟨_, text, fun mem => clear (Text.lineFeed_mem_bytes_iff.mpr mem)⟩

/-- No line-feed is in the unfinished piece. -/
theorem lineFeed_notMem_unfinished (stream : Bytes) : lineFeed ∉ unfinished stream := by
  have piece : unfinished stream ∈ stream.splitOn lineFeed := by
    rw [unfinished, List.getLastD_eq_getLast?,
      List.getLast?_eq_some_getLast (List.splitOn_ne_nil lineFeed stream)]
    exact List.getLast_mem _
  exact lineFeed_notMem_of_mem_splitOn piece

/-- What the front part of a stream leaves unfinished begins a piece of the stream. -/
theorem exists_piece (front rest : Bytes) :
    ∃ more, unfinished front ++ more ∈ (front ++ rest).splitOn lineFeed := by
  obtain ⟨first, others, hr⟩ :=
    List.exists_cons_of_ne_nil (List.splitOn_ne_nil lineFeed rest)
  refine ⟨first, ?_⟩
  rw [splitOn_append, splitOn_append_of_notMem (lineFeed_notMem_unfinished _), hr]
  exact List.mem_append_right _ List.mem_cons_self

/-- A piece without a line-feed is unfinished as a whole. -/
theorem unfinished_of_notMem {stream : Bytes} (h : lineFeed ∉ stream) :
    unfinished stream = stream := by
  rw [unfinished, List.splitOn_eq_singleton h]
  rfl

/-- A piece without a line-feed has no lines. -/
theorem linesOf_of_notMem {stream : Bytes} (h : lineFeed ∉ stream) : linesOf stream = [] := by
  rw [linesOf, List.splitOn_eq_singleton h]
  rfl

/-- Behind complete lines, a piece without a line-feed ends no line and is unfinished as a whole. -/
theorem append_of_notMem {front rest : Bytes} (ended : unfinished front = [])
    (h : lineFeed ∉ rest) :
    linesOf (front ++ rest) = linesOf front ∧ unfinished (front ++ rest) = rest := by
  rw [linesOf_append, unfinished_append, ended, List.nil_append, linesOf_of_notMem h,
    unfinished_of_notMem h, List.append_nil]
  exact ⟨rfl, rfl⟩

/-- What a stream leaves unfinished is no longer than the stream. -/
theorem length_unfinished_le (stream : Bytes) : (unfinished stream).length ≤ stream.length := by
  induction stream with
  | nil => simp [unfinished]
  | cons b rest ih =>
    obtain ⟨first, more, hr⟩ := List.exists_cons_of_ne_nil (List.splitOn_ne_nil lineFeed rest)
    unfold unfinished at ih ⊢
    rw [List.splitOn_cons_eq_if_modifyHead]
    rw [hr] at ih ⊢
    rw [List.length_cons]
    split
    · rw [List.getLastD_cons, List.getLastD_cons]
      rw [List.getLastD_cons] at ih
      omega
    · rw [List.modifyHead_cons, List.getLastD_cons]
      rw [List.getLastD_cons] at ih
      cases more with
      | nil =>
        simp only [List.getLastD_nil, List.length_cons] at ih ⊢
        omega
      | cons next more =>
        rw [List.getLastD_cons] at ih ⊢
        omega

/-- Only what follows a line-feed may be unfinished. -/
theorem unfinished_append_lineFeed_cons (before after : Bytes) :
    unfinished (before ++ lineFeed :: after) = unfinished after := by
  unfold unfinished
  rw [List.splitOn_append_cons_self, List.getLastD_eq_getLast?, List.getLastD_eq_getLast?,
    List.getLast?_append, Option.or_of_isSome
      (List.getLast?_isSome.mpr (List.splitOn_ne_nil _ _))]

/-- After a line-feed, only a part of the chunk that brings it is unfinished. -/
theorem length_unfinished_append_le {front chunk : Bytes} (h : lineFeed ∈ chunk) :
    (unfinished (front ++ chunk)).length ≤ chunk.length := by
  obtain ⟨before, after, rfl⟩ := List.append_of_mem h
  have := length_unfinished_le after
  rw [← List.append_assoc, unfinished_append_lineFeed_cons, List.length_append, List.length_cons]
  omega

/-- What a stream leaves unfinished is its end, and stands at its front or after a
line-feed. -/
theorem exists_eq_append_unfinished (stream : Bytes) :
    ∃ ended, stream = ended ++ unfinished stream ∧
      (ended = [] ∨ ended.getLast? = some lineFeed) := by
  by_cases h : lineFeed ∈ stream
  · obtain ⟨after, before, reversed, clear⟩ := List.eq_append_cons_of_mem (List.mem_reverse.mpr h)
    have split : stream = before.reverse ++ lineFeed :: after.reverse := by
      rw [← List.reverse_reverse stream, reversed]
      simp
    have tail : unfinished stream = after.reverse := by
      rw [split, unfinished_append_lineFeed_cons, unfinished_of_notMem (by simpa using clear)]
    refine ⟨before.reverse ++ [lineFeed], ?_, .inr List.getLast?_concat⟩
    rw [tail, List.append_assoc]
    exact split
  · exact ⟨[], by rw [unfinished_of_notMem h, List.nil_append], .inl rfl⟩

end Line

namespace Framer

open Line

-- Cutting a chunk after an unfinished line is splitting the line and the chunk.
private theorem cut_eq {buffer : Array UInt8} (h : lineFeed ∉ buffer.toList) (chunk : Bytes) :
    cut buffer chunk = (((buffer.toList ++ chunk).splitOn lineFeed).dropLast,
      (unfinished (buffer.toList ++ chunk)).toArray) := by
  rw [unfinished, splitOn_append_of_notMem h, cut, pieces_eq_splitOn]
  cases hc : chunk.splitOn lineFeed with
  | nil => exact absurd hc (List.splitOn_ne_nil lineFeed chunk)
  | cons first others =>
    cases others with
    | nil =>
      simp only [List.modifyHead_cons, List.dropLast_singleton, List.getLastD_cons,
        List.getLastD_nil, Prod.mk.injEq, true_and]
      apply Array.ext'
      simp
    | cons next others => simp [List.getLastD_eq_getLast?]

/-- One push: the chunk is taken in when what it leaves unfinished is within the limit, and
then hands out the lines it completes. -/
theorem push_eq {f : Framer} (h : lineFeed ∉ f.fragment) (chunk : Bytes) :
    f.push chunk =
      if f.limit < (unfinished (f.fragment ++ chunk)).length then
        (.error ⟨(unfinished (f.fragment ++ chunk)).length, f.limit⟩, { f with buffer := #[] })
      else (.ok (linesOf (f.fragment ++ chunk)),
        { f with buffer := (unfinished (f.fragment ++ chunk)).toArray }) := by
  simp only [push, cut_eq h, List.size_toArray]
  rfl

/-- Takes in chunks, one after the other. -/
def pushAll : List Bytes → Framer → List (Except FragmentTooLarge (List Bytes)) × Framer
  | [], f => ([], f)
  | chunk :: rest, f =>
    let (result, f) := f.push chunk
    let (results, f) := pushAll rest f
    (result :: results, f)

/-- However a stream of short enough lines is cut into chunks, no push fails, and together
they hand out the lines of the stream. -/
theorem pushAll_of_short {f : Framer} {chunks : List Bytes} (clear : lineFeed ∉ f.fragment)
    (short : ∀ piece ∈ (f.fragment ++ chunks.flatten).splitOn lineFeed,
      piece.length ≤ f.limit) :
    ∃ outputs : List (List Bytes), pushAll chunks f = (outputs.map .ok,
        { f with buffer := (unfinished (f.fragment ++ chunks.flatten)).toArray }) ∧
      outputs.flatten = linesOf (f.fragment ++ chunks.flatten) := by
  induction chunks generalizing f with
  | nil =>
    refine ⟨[], ?_, ?_⟩
    · rw [List.flatten_nil, List.append_nil, unfinished_of_notMem clear]
      rfl
    · rw [List.flatten_nil, List.flatten_nil, List.append_nil, linesOf_of_notMem clear]
  | cons chunk rest ih =>
    rw [List.flatten_cons, ← List.append_assoc] at short ⊢
    -- what the first chunk leaves unfinished begins a piece of the stream
    have begins : (unfinished (f.fragment ++ chunk)).length ≤ f.limit := by
      obtain ⟨more, piece⟩ := exists_piece (f.fragment ++ chunk) rest.flatten
      have := short _ piece
      rw [List.length_append] at this
      omega
    let g : Framer := { f with buffer := (unfinished (f.fragment ++ chunk)).toArray }
    have hg : g.fragment = unfinished (f.fragment ++ chunk) := rfl
    have hpush : f.push chunk = (.ok (linesOf (f.fragment ++ chunk)), g) := by
      rw [push_eq clear, if_neg (by omega)]
    obtain ⟨outputs, run, lines⟩ := ih (f := g) (hg ▸ lineFeed_notMem_unfinished _)
      fun piece hp => short piece (by
        rw [splitOn_append]
        exact List.mem_append_right _ (hg ▸ hp))
    refine ⟨linesOf (f.fragment ++ chunk) :: outputs, ?_, ?_⟩
    · simp only [pushAll, hpush, run]
      rw [hg, unfinished_append (f.fragment ++ chunk)]
      rfl
    · rw [List.flatten_cons, lines, hg, linesOf_append (f.fragment ++ chunk)]

end Framer

end Backbox
