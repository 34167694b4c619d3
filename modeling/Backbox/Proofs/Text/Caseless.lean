import Backbox.Proofs.Text.Form
import Backbox.Proofs.Text.Lower

/-!
# Texts up to the case of ASCII letters

Texts that are the same up to the case of ASCII letters are lowered to one text, whatever stands
around the letters. Bytes that are the same up to the case of ASCII letters read as such texts, with
their escapes or without, whether or not they are UTF-8.
-/

namespace Backbox.Text

variable {c d : Char} {as bs : Bytes} {s t : String}

/-! ### Characters -/

-- An ASCII capital is lowered to an ASCII letter, and nothing else is changed.
private theorem toLower_cases (c : Char) : c.toLower = c ∨
    (0x41 ≤ c.toNat ∧ c.toNat ≤ 0x5A) ∧ 0x61 ≤ c.toLower.toNat ∧ c.toLower.toNat ≤ 0x7A := by
  by_cases low : c.toNat < 0x80
  · exact of_decide_eq_true (ascii_all (p := fun c => c.toLower = c ∨
      (0x41 ≤ c.toNat ∧ c.toNat ≤ 0x5A) ∧ 0x61 ≤ c.toLower.toNat ∧ c.toLower.toNat ≤ 0x7A)
      (by decide +kernel) low)
  · exact .inl (toLower_of_beyond (Nat.le_of_not_lt low))

private theorem inRanges_of_mem {ranges : List (Nat × Nat)} (range : Nat × Nat) {code : Nat}
    (mem : range ∈ ranges) (within : range.1 ≤ code ∧ code ≤ range.2) :
    inRanges ranges code = true :=
  List.any_eq_true.mpr ⟨range, mem, by simp [within]⟩

private theorem inRanges_of_apart {ranges : List (Nat × Nat)} {first last code : Nat}
    (apart : (ranges.all fun range => range.2.blt first || last.blt range.1) = true)
    (within : first ≤ code ∧ code ≤ last) : inRanges ranges code = false := by
  refine List.any_eq_false.mpr fun range mem inside => ?_
  have clear := List.all_eq_true.mp apart range mem
  simp only [Bool.or_eq_true, Nat.blt_eq, Bool.and_eq_true, decide_eq_true_eq] at clear inside
  omega

private theorem isCased_toLower (c : Char) : isCased c.toLower = isCased c := by
  rcases toLower_cases c with same | ⟨capital, small⟩
  · rw [same]
  · rw [isCased, isCased, inRanges_of_mem (0x61, 0x7A) (by simp [casedRanges]) small,
      inRanges_of_mem (0x41, 0x5A) (by simp [casedRanges]) capital]

private theorem isCaseIgnorable_toLower (c : Char) :
    isCaseIgnorable c.toLower = isCaseIgnorable c := by
  rcases toLower_cases c with same | ⟨capital, small⟩
  · rw [same]
  · rw [isCaseIgnorable, isCaseIgnorable, inRanges_of_apart (by decide +kernel) small,
      inRanges_of_apart (by decide +kernel) capital]

private theorem lowerChar_toLower (c : Char) : lowerChar c.toLower = lowerChar c :=
  apply_toLower (by decide +kernel) c

private theorem isSigma_toLower (c : Char) : decide (c.toLower.toNat = 0x3A3) =
    decide (c.toNat = 0x3A3) :=
  apply_toLower (f := fun c => decide (c.toNat = 0x3A3)) (by decide +kernel) c

/-! ### Lowering and trimming -/

private theorem startsCased_map_toLower (cs : List Char) :
    startsCased (cs.map Char.toLower) = startsCased cs := by
  have test : (fun c => !isCaseIgnorable c) ∘ Char.toLower = fun c => !isCaseIgnorable c :=
    funext fun c => congrArg (!·) (isCaseIgnorable_toLower c)
  rw [startsCased, startsCased, List.find?_map, test]
  cases cs.find? fun c => !isCaseIgnorable c with
  | none => rfl
  | some c => exact isCased_toLower c

private theorem lowerPiece_toLower (afterCased : Bool) (c : Char) (rest : List Char) :
    lowerPiece afterCased c.toLower (rest.map Char.toLower) = lowerPiece afterCased c rest := by
  have sigma : c.toLower.toNat = 0x3A3 ↔ c.toNat = 0x3A3 :=
    decide_eq_decide.mp (isSigma_toLower c)
  simp only [lowerPiece, lowerSigma, sigma, startsCased_map_toLower, lowerChar_toLower]

private theorem lowerFrom_map_toLower (afterCased : Bool) (cs : List Char) :
    lowerFrom [] afterCased (cs.map Char.toLower) = lowerFrom [] afterCased cs := by
  induction cs generalizing afterCased with
  | nil => rfl
  | cons c rest ih =>
    have ends : endsCased afterCased c.toLower = endsCased afterCased c := by
      rw [endsCased, endsCased, isCaseIgnorable_toLower, isCased_toLower]
    rw [List.map_cons, lowerFrom_cons, lowerFrom_cons, lowerPiece_toLower, ends, ih]

private theorem trimList_map_toLower (cs : List Char) :
    trimList (cs.map Char.toLower) = (trimList cs).map Char.toLower := by
  have test : isBlank ∘ Char.toLower = isBlank := funext isBlank_toLower
  rw [trimList, trimList, List.dropWhile_map, ← List.map_reverse, List.dropWhile_map, test,
    List.map_reverse]

/-- Texts that are the same up to the case of ASCII letters are lowered to one text. -/
theorem lower_congr (same : s.toList.map Char.toLower = t.toList.map Char.toLower) :
    lower s = lower t := by
  rw [lower, lower, lowerList, lowerList, ← lowerFrom_map_toLower, same, lowerFrom_map_toLower]

/-- Texts that are the same up to the case of ASCII letters are so when they are trimmed. -/
theorem trim_congr (same : s.toList.map Char.toLower = t.toList.map Char.toLower) :
    (trim s).toList.map Char.toLower = (trim t).toList.map Char.toLower := by
  rw [trim, trim, String.toList_ofList, String.toList_ofList, ← trimList_map_toLower, same,
    trimList_map_toLower]

/-! ### Bytes -/

/-- A byte, lowered if it is that of an ASCII capital. -/
def lowerByte (b : UInt8) : UInt8 := if 0x41 ≤ b && b ≤ 0x5A then b + 0x20 else b

private theorem utf8EncodeChar_toLower (low : c.toNat < 0x80) :
    (String.utf8EncodeChar c).map lowerByte = String.utf8EncodeChar c.toLower :=
  of_decide_eq_true (ascii_all
    (p := fun c => (String.utf8EncodeChar c).map lowerByte = String.utf8EncodeChar c.toLower)
    (by decide +kernel) low)

-- Characters that differ in case only are ASCII letters.
private theorem eq_or_ascii (same : c.toLower = d.toLower) :
    c = d ∨ c.toNat < 0x80 ∧ d.toNat < 0x80 := by
  have kept (c : Char) : c.toLower.toNat < 0x80 ↔ c.toNat < 0x80 :=
    decide_eq_decide.mp <|
      apply_toLower (f := fun c => decide (c.toNat < 0x80)) (by decide +kernel) c
  by_cases low : c.toNat < 0x80
  · exact .inr ⟨low, (kept d).mp (same ▸ (kept c).mpr low)⟩
  · have beyond : ¬ d.toNat < 0x80 := fun under => low ((kept c).mp (same ▸ (kept d).mpr under))
    rw [toLower_of_beyond (Nat.le_of_not_lt low),
      toLower_of_beyond (Nat.le_of_not_lt beyond)] at same
    exact .inl same

/-- The bytes of characters that are the same up to case are so too. -/
theorem utf8EncodeChar_congr (same : c.toLower = d.toLower) :
    (String.utf8EncodeChar c).map lowerByte = (String.utf8EncodeChar d).map lowerByte := by
  rcases eq_or_ascii same with rfl | ⟨low, low'⟩
  · rfl
  · rw [utf8EncodeChar_toLower low, utf8EncodeChar_toLower low', same]

-- Bytes that go on with a character are kept, and no other byte becomes one.
private theorem lowerByte_cases (b : UInt8) :
    0x80 ≤ b ∧ lowerByte b = b ∨ b < 0x80 ∧ lowerByte b < 0x80 :=
  of_decide_eq_true <| Form.byte_all
    (p := fun b => 0x80 ≤ b ∧ lowerByte b = b ∨ b < 0x80 ∧ lowerByte b < 0x80)
    (by decide +kernel) b

namespace Utf8Reader

/-- No ASCII byte goes on with the current character. -/
def IsApart : Utf8Reader → Prop
  | between => True
  | inside _ low _ _ => 0x80 ≤ low

instance : DecidablePred IsApart
  | between => .isTrue trivial
  | inside _ low _ _ => inferInstanceAs (Decidable (0x80 ≤ low))

private theorem lead_lowerByte (b : UInt8) : (lead b).1.IsApart ∧
    (lead (lowerByte b)).1 = (lead b).1 ∧
    (lead (lowerByte b)).2.map Char.toLower = (lead b).2.map Char.toLower :=
  of_decide_eq_true <| Form.byte_all (p := fun b => (lead b).1.IsApart ∧
    (lead (lowerByte b)).1 = (lead b).1 ∧
    (lead (lowerByte b)).2.map Char.toLower = (lead b).2.map Char.toLower) (by decide +kernel) b

private theorem read_lowerByte {place : Utf8Reader} (apart : place.IsApart) (b : UInt8) :
    (place.read b).1.IsApart ∧ (place.read (lowerByte b)).1 = (place.read b).1 ∧
      (place.read (lowerByte b)).2.map Char.toLower = (place.read b).2.map Char.toLower := by
  cases place with
  | between => exact lead_lowerByte b
  | inside need low high code =>
    obtain ⟨kept, place, completed⟩ := lead_lowerByte b
    rcases lowerByte_cases b with ⟨-, same⟩ | ⟨under, under'⟩
    · rw [same]
      refine ⟨?_, rfl, rfl⟩
      simp only [read]
      split
      · split
        · trivial
        · exact UInt8.le_refl 0x80
      · exact kept
    · have out {b : UInt8} (under : b < 0x80) : decide (low ≤ b) = false :=
        decide_eq_false fun le => absurd (UInt8.lt_of_le_of_lt (UInt8.le_trans apart le) under)
          (UInt8.lt_irrefl _)
      simp only [read, out under, out under', Bool.false_and]
      exact ⟨kept, place, congrArg (replacement.toLower :: ·) completed⟩

private theorem readAll_map_lowerByte {place : Utf8Reader} (apart : place.IsApart)
    {done done' : List Char} (same : done'.map Char.toLower = done.map Char.toLower) (bs : Bytes) :
    (readAll done' place (bs.map lowerByte)).map Char.toLower =
      (readAll done place bs).map Char.toLower := by
  induction bs generalizing place done done' with
  | nil => simp only [List.map_nil, readAll, List.map_reverse, List.map_append, same]
  | cons b rest ih =>
    obtain ⟨kept, next, completed⟩ := read_lowerByte apart b
    simp only [List.map_cons, readAll, next]
    refine ih kept ?_
    rw [List.map_append, List.map_append, List.map_reverse, List.map_reverse, completed, same]

end Utf8Reader

private theorem decodeUtf8_map_lowerByte (bs : Bytes) :
    (decodeUtf8 (bs.map lowerByte)).map Char.toLower = (decodeUtf8 bs).map Char.toLower :=
  Utf8Reader.readAll_map_lowerByte (show Utf8Reader.between.IsApart from trivial) rfl bs

/-- Bytes that are the same up to the case of ASCII letters read as such texts. -/
theorem ofBytes_congr (same : as.map lowerByte = bs.map lowerByte) :
    (ofBytes as).toList.map Char.toLower = (ofBytes bs).toList.map Char.toLower := by
  rw [ofBytes, ofBytes, String.toList_ofList, String.toList_ofList, ← decodeUtf8_map_lowerByte,
    same, decodeUtf8_map_lowerByte]

/-! ### Escapes -/

namespace Form

-- The case of a letter matters neither for a byte's meaning nor for the digit that it is.
private theorem code_lowerByte (b : UInt8) : (lowerByte b = plus ↔ b = plus) ∧
    (lowerByte b = percent ↔ b = percent) ∧ hexValue? (lowerByte b) = hexValue? b :=
  of_decide_eq_true <| byte_all (p := fun b => (lowerByte b = plus ↔ b = plus) ∧
    (lowerByte b = percent ↔ b = percent) ∧ hexValue? (lowerByte b) = hexValue? b)
    (by decide +kernel) b

private theorem escaped?_map_lowerByte (bs : Bytes) :
    escaped? (bs.map lowerByte) = escaped? bs := by
  match bs with
  | [] => rfl
  | [_] => rfl
  | high :: low :: _ =>
    simp only [List.map_cons, escaped?, (code_lowerByte high).2.2, (code_lowerByte low).2.2]

private theorem unescapeFrom_map_lowerByte {done done' : Bytes}
    (same : done'.map lowerByte = done.map lowerByte) (skip : Nat) (bs : Bytes) :
    (unescapeFrom done' skip (bs.map lowerByte)).map lowerByte =
      (unescapeFrom done skip bs).map lowerByte := by
  have settled (b : UInt8) : lowerByte (lowerByte b) = lowerByte b := of_decide_eq_true <|
    byte_all (p := fun b => lowerByte (lowerByte b) = lowerByte b) (by decide +kernel) b
  induction bs generalizing done done' skip with
  | nil => simp only [List.map_nil, unescapeFrom, List.map_reverse, same]
  | cons b rest ih =>
    obtain ⟨blank, escape, -⟩ := code_lowerByte b
    rw [List.map_cons, unescapeFrom, unescapeFrom]
    simp only [blank, escape, escaped?_map_lowerByte]
    split
    · exact ih same _
    · split
      · exact ih (by rw [List.map_cons, List.map_cons, same]) 0
      · split
        · exact ih (by rw [List.map_cons, List.map_cons, same]) 2
        · exact ih (by rw [List.map_cons, List.map_cons, same, settled]) 0

/-- Written bytes that are the same up to the case of ASCII letters stand for such bytes. -/
theorem unescape_congr (same : as.map lowerByte = bs.map lowerByte) :
    (unescape as).map lowerByte = (unescape bs).map lowerByte := by
  rw [unescape, unescape, ← unescapeFrom_map_lowerByte rfl, same, unescapeFrom_map_lowerByte rfl]

end Form

end Backbox.Text
