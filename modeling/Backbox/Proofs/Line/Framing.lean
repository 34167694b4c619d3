import Backbox.Proofs.Line.Stream

/-!
# What a framer does, whatever was pushed into it

A framer starts over when a push fails. In between it is a function of the stream received since:
its fragment is what this stream holds after the last line-feed, and a push hands out the lines
that the chunk adds to the stream's. A push fails exactly when the fragment would outgrow the
limit. So long as no push fails, only the stream counts, not the chunks in which it came.
-/

namespace Backbox.Framer

open Line

/-- What was received since the last push that failed, given what was received before some
pushes, and the chunk and the outcome of each of these. -/
def receivedSince (before : Bytes) :
    List (Bytes × Except FragmentTooLarge (List Bytes)) → Bytes
  | [] => before
  | (chunk, .ok _) :: rest => receivedSince (before ++ chunk) rest
  | (_, .error _) :: rest => receivedSince [] rest

/-- A framer agrees with the stream received since the last push that failed. -/
structure Agrees (f : Framer) (limit : Nat) (since : Bytes) : Prop where
  limit_eq : f.limit = limit
  fragment_eq : f.fragment = unfinished since
  short : f.fragment.length ≤ limit

/-- A framer at the start of a stream has received nothing. -/
theorem agrees_withLimit (limit : Nat) : (withLimit limit).Agrees limit [] :=
  ⟨rfl, rfl, Nat.zero_le _⟩

namespace Agrees

variable {f : Framer} {limit : Nat} {since : Bytes}

/-- The fragment holds no line-feed. -/
theorem lineFeed_notMem (agrees : f.Agrees limit since) : lineFeed ∉ f.fragment :=
  agrees.fragment_eq ▸ lineFeed_notMem_unfinished since

/-- A push fails when the stream's unfinished line would exceed the limit: the framer reports
its length and starts over. -/
theorem push_long (agrees : f.Agrees limit since) {chunk : Bytes}
    (long : limit < (unfinished (since ++ chunk)).length) :
    f.push chunk =
      (.error ⟨(unfinished (since ++ chunk)).length, limit⟩, withLimit limit) := by
  have tail := unfinished_append since chunk
  rw [← agrees.fragment_eq] at tail
  rw [push_eq agrees.lineFeed_notMem, ← tail, agrees.limit_eq, if_pos long]
  rfl

/-- Otherwise a push hands out the lines that the chunk adds to those of the stream, and keeps
the stream's unfinished line. -/
theorem push_short (agrees : f.Agrees limit since) {chunk : Bytes}
    (short : (unfinished (since ++ chunk)).length ≤ limit) :
    f.push chunk = (.ok (linesOf (f.fragment ++ chunk)),
      ⟨limit, (unfinished (since ++ chunk)).toArray⟩) := by
  have tail := unfinished_append since chunk
  rw [← agrees.fragment_eq] at tail
  rw [push_eq agrees.lineFeed_notMem, ← tail, agrees.limit_eq, if_neg (Nat.not_lt.mpr short)]

/-- A framer goes on to agree with its stream whatever is pushed into it. -/
theorem pushAll (agrees : f.Agrees limit since) (chunks : List Bytes) :
    (f.pushAll chunks).2.Agrees limit (receivedSince since (chunks.zip (f.pushAll chunks).1)) := by
  induction chunks generalizing f since with
  | nil => exact agrees
  | cons chunk rest ih =>
    by_cases long : limit < (unfinished (since ++ chunk)).length
    · simp only [Framer.pushAll, agrees.push_long long]
      exact ih (agrees_withLimit limit)
    · have short := Nat.not_lt.mp long
      simp only [Framer.pushAll, agrees.push_short short]
      exact ih ⟨rfl, rfl, short⟩

/-- As long as no push fails, only the stream counts. -/
theorem pushAll_ok (agrees : f.Agrees limit since) {chunks : List Bytes}
    {outputs : List (List Bytes)} {g : Framer} (ok : f.pushAll chunks = (outputs.map .ok, g)) :
    linesOf (since ++ chunks.flatten) = linesOf since ++ outputs.flatten ∧
      g.Agrees limit (since ++ chunks.flatten) := by
  induction chunks generalizing f since outputs with
  | nil =>
    obtain ⟨none, rfl⟩ := Prod.mk.inj ok
    rw [List.map_eq_nil_iff.mp none.symm, List.flatten_nil, List.flatten_nil, List.append_nil,
      List.append_nil]
    exact ⟨rfl, agrees⟩
  | cons chunk rest ih =>
    by_cases long : limit < (unfinished (since ++ chunk)).length
    · simp only [Framer.pushAll, agrees.push_long long, Prod.mk.injEq] at ok
      cases outputs with
      | nil => cases ok.1
      | cons => cases ok.1
    · have short := Nat.not_lt.mp long
      have next : Agrees ⟨limit, (unfinished (since ++ chunk)).toArray⟩ limit (since ++ chunk) :=
        ⟨rfl, rfl, short⟩
      simp only [Framer.pushAll, agrees.push_short short, Prod.mk.injEq] at ok
      obtain ⟨results, rfl⟩ := ok
      cases outputs with
      | nil => cases results
      | cons lines more =>
        obtain ⟨first, others⟩ := List.cons.inj results
        obtain ⟨handed, ends⟩ := ih next (Prod.ext others rfl)
        rw [List.flatten_cons, ← List.append_assoc since, List.flatten_cons,
          ← List.append_assoc (linesOf since), ← Except.ok.inj first, agrees.fragment_eq,
          ← linesOf_append]
        exact ⟨handed, ends⟩

end Agrees

/-- After any pushes, with failures among them or without, the fragment is what was received
after the last line-feed and the last failure. The next push fails exactly when the fragment
would exceed the limit, and tells its length; otherwise it hands out the lines that the chunk
completes. Without failures the lines and the fragment are those of the stream, and no push
fails when all its pieces are within the limit. -/
theorem push_after_pushes (limit : Nat) (chunks : List Bytes) (chunk : Bytes) :
    let f := ((withLimit limit).pushAll chunks).2
    let since := receivedSince [] (chunks.zip ((withLimit limit).pushAll chunks).1)
    let tail := unfinished (since ++ chunk)
    (∃ ended, since = ended ++ f.fragment ∧ (ended = [] ∨ ended.getLast? = some lineFeed)) ∧
    lineFeed ∉ f.fragment ∧ f.fragment.length ≤ limit ∧
    (limit < tail.length → f.push chunk = (.error ⟨tail.length, limit⟩, withLimit limit)) ∧
    (tail.length ≤ limit → ∃ lines, linesOf (since ++ chunk) = linesOf since ++ lines ∧
      f.push chunk = (.ok lines, ⟨limit, tail.toArray⟩)) ∧
    (∀ outputs : List (List Bytes), ((withLimit limit).pushAll chunks).1 = outputs.map .ok →
      outputs.flatten = linesOf chunks.flatten ∧ f.fragment = unfinished chunks.flatten) ∧
    ((∀ piece ∈ chunks.flatten.splitOn lineFeed, piece.length ≤ limit) →
      ∃ outputs : List (List Bytes), ((withLimit limit).pushAll chunks).1 = outputs.map .ok) := by
  intro f since tail
  have agrees : f.Agrees limit since := (agrees_withLimit limit).pushAll chunks
  refine ⟨?_, agrees.lineFeed_notMem, agrees.short, agrees.push_long, ?_, ?_, ?_⟩
  · rw [agrees.fragment_eq]
    exact exists_eq_append_unfinished since
  · intro short
    refine ⟨linesOf (f.fragment ++ chunk), ?_, agrees.push_short short⟩
    rw [linesOf_append, agrees.fragment_eq]
  · intro outputs ok
    obtain ⟨lines, ends⟩ := (agrees_withLimit limit).pushAll_ok (Prod.ext ok rfl)
    exact ⟨lines.symm, ends.fragment_eq⟩
  · intro short
    obtain ⟨outputs, ok, -⟩ :=
      pushAll_of_short (f := withLimit limit) List.not_mem_nil short
    exact ⟨outputs, congrArg Prod.fst ok⟩

end Backbox.Framer
