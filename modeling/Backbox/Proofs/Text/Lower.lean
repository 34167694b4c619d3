import Backbox.Text.Blank
import Backbox.Text.Lower

/-!
# Lower-casing and trimming settle

A lowered letter is no capital any more, so lowering twice is lowering once; and lowering
leaves no blank character at an end of a trimmed text.
-/

namespace Backbox.Text

namespace CaseRun

private def least (r : CaseRun) : Nat := r.first + r.up - r.down
private def greatest (r : CaseRun) : Nat := r.last + r.up - r.down

private def avoids (r : CaseRun) (range : Nat × Nat) : Bool :=
  r.greatest.blt range.1 || range.2.blt r.least

-- Whether no letter of a run is sent to a letter of another: the ranges lie apart, or the
-- letters of both stand two apart and never meet.
private def misses (r s : CaseRun) : Bool :=
  r.avoids (s.first, s.last) || s.stride.beq 2 && (r.stride.beq 2 || r.first.beq r.last) &&
    ((r.least + s.first) % 2).beq 1

private theorem lowered_bounds {r : CaseRun} {code : Nat} (h : r.covers code = true)
    (down : r.down ≤ r.first) : r.least ≤ r.lowered code ∧ r.lowered code ≤ r.greatest := by
  simp only [covers, Bool.and_eq_true, decide_eq_true_eq] at h
  simp only [least, greatest, lowered]
  omega

private theorem not_in_avoided {r : CaseRun} {code : Nat} (h : r.covers code = true)
    (down : r.down ≤ r.first) {range : Nat × Nat} (apart : r.avoids range = true) :
    ¬ (range.1 ≤ r.lowered code ∧ r.lowered code ≤ range.2) := by
  have bounds := lowered_bounds h down
  simp only [avoids, Bool.or_eq_true, Nat.blt_eq] at apart
  omega

private theorem not_covers_of_misses {r s : CaseRun} {code : Nat} (h : r.covers code = true)
    (down : r.down ≤ r.first) (apart : r.misses s = true) :
    s.covers (r.lowered code) = false := by
  rw [← Bool.not_eq_true]
  intro covered
  simp only [misses, Bool.or_eq_true, Bool.and_eq_true, Nat.beq_eq] at apart
  rcases apart with apart | ⟨⟨stride, single⟩, odd⟩
  · apply not_in_avoided h down apart
    simp only [covers, Bool.and_eq_true, decide_eq_true_eq] at covered
    exact covered.1
  · simp only [covers, Bool.and_eq_true, decide_eq_true_eq, beq_iff_eq, stride] at covered h
    simp only [lowered, least] at covered odd
    rcases single with two | one
    · rw [two] at h
      omega
    · omega

end CaseRun

private def blankRanges : List (Nat × Nat) :=
  [(0x09, 0x0D), (0x20, 0x20), (0x85, 0x85), (0xA0, 0xA0), (0x1680, 0x1680), (0x2000, 0x200A),
    (0x2028, 0x2029), (0x202F, 0x202F), (0x205F, 0x205F), (0x3000, 0x3000)]

private theorem blankRanges_of_isBlank {c : Char} (h : isBlank c = true) :
    ∃ range ∈ blankRanges, range.1 ≤ c.toNat ∧ c.toNat ≤ range.2 := by
  simp only [isBlank, Bool.or_eq_true, Bool.and_eq_true, decide_eq_true_eq, beq_iff_eq] at h
  simp only [blankRanges, List.mem_cons, List.not_mem_nil, or_false, exists_eq_or_imp,
    exists_eq_left]
  omega

-- Code points that no letter is lowered to: the surrogates, the two letters with rules of their
-- own, the ASCII capitals and the question mark.
private def reservedRanges : List (Nat × Nat) :=
  [(0xD800, 0xDFFF), (0x3A3, 0x3A3), (0x130, 0x130), (0x41, 0x5A), (0x3F, 0x3F)]

private theorem caseRuns_miss :
    (caseRuns.all fun r => caseRuns.all fun s => r.misses s) = true := by
  decide +kernel

private theorem caseRuns_avoid :
    (caseRuns.all fun r => r.down.ble r.first && r.greatest.blt 0x110000 &&
      (reservedRanges ++ blankRanges).all r.avoids) = true := by
  decide +kernel

/-- A character that a letter is lowered to: not a capital, not blank, and no question mark. -/
structure IsLowered (c : Char) : Prop where
  lowerChar_eq : lowerChar c = [c]
  ne_sigma : c.toNat ≠ 0x3A3
  not_blank : isBlank c = false
  ne_mark : c ≠ '?'

-- A run lowers to characters, and to none of those that are reserved or blank.
private theorem lowered_of_covers {r : CaseRun} {code : Nat} (hr : r ∈ caseRuns)
    (h : r.covers code = true) : r.down ≤ r.first ∧
      (Char.ofNat (r.lowered code)).toNat = r.lowered code ∧
      ∀ range ∈ reservedRanges ++ blankRanges,
        ¬ (range.1 ≤ r.lowered code ∧ r.lowered code ≤ range.2) := by
  have shape := List.all_eq_true.mp caseRuns_avoid r hr
  simp only [Bool.and_eq_true, Nat.ble_eq, Nat.blt_eq] at shape
  obtain ⟨⟨down, bound⟩, avoided⟩ := shape
  have high := (CaseRun.lowered_bounds h down).2
  have off (range : Nat × Nat) (hm : range ∈ reservedRanges ++ blankRanges) :
      ¬ (range.1 ≤ r.lowered code ∧ r.lowered code ≤ range.2) :=
    CaseRun.not_in_avoided h down (List.all_eq_true.mp avoided range hm)
  have surrogate := off (0xD800, 0xDFFF) (by decide)
  have valid : (r.lowered code).isValidChar := by
    simp only [Nat.isValidChar]
    omega
  refine ⟨down, ?_, off⟩
  rw [Char.ofNat, dif_pos valid]
  rfl

private theorem isLowered_of_covers {r : CaseRun} {code : Nat} (hr : r ∈ caseRuns)
    (h : r.covers code = true) : IsLowered (Char.ofNat (r.lowered code)) := by
  obtain ⟨down, hc, off⟩ := lowered_of_covers hr h
  have sigma := off (0x3A3, 0x3A3) (by decide)
  have dotted := off (0x130, 0x130) (by decide)
  have capital := off (0x41, 0x5A) (by decide)
  have mark := off (0x3F, 0x3F) (by decide)
  have uncovered : caseRuns.find? (·.covers (r.lowered code)) = none := by
    apply List.find?_eq_none.mpr
    intro s hs
    rw [CaseRun.not_covers_of_misses h down
      (List.all_eq_true.mp (List.all_eq_true.mp caseRuns_miss r hr) s hs)]
    decide
  constructor
  · unfold lowerChar
    split
    · rw [if_neg]
      rintro ⟨low, high⟩
      have low : (0x41 : Nat) ≤ (Char.ofNat (r.lowered code)).toNat := low
      have high : (Char.ofNat (r.lowered code)).toNat ≤ 0x5A := high
      omega
    · rw [if_neg (by omega), lowerCode, hc, uncovered]
  · omega
  · rw [← Bool.not_eq_true]
    intro blank
    obtain ⟨range, hm, inside⟩ := blankRanges_of_isBlank blank
    exact off range (List.mem_append_right _ hm) (hc ▸ inside)
  · intro same
    have code : (Char.ofNat (r.lowered code)).toNat = 0x3F := by
      rw [same]
      rfl
    omega

/-- What is checked of all 128 ASCII characters holds of every ASCII character. -/
theorem ascii_all {p : Char → Bool}
    (h : ((List.range 0x80).all fun n => p (Char.ofNat n)) = true) {c : Char}
    (hc : c.toNat < 0x80) : p c = true := by
  have := List.all_eq_true.mp h c.toNat (List.mem_range.mpr hc)
  rwa [Char.ofNat_toNat] at this

/-- Lowering ASCII letters leaves characters beyond ASCII. -/
theorem toLower_of_beyond {c : Char} (beyond : 0x80 ≤ c.toNat) : c.toLower = c := by
  unfold Char.toLower
  rw [dif_neg]
  rintro ⟨-, capital⟩
  have capital : c.toNat ≤ 0x5A := capital
  omega

/-- What is the same for both cases of every ASCII letter is so for all characters. -/
theorem apply_toLower {α : Type} [DecidableEq α] {f : Char → α}
    (ascii : ((List.range 0x80).all fun n => f (Char.ofNat n).toLower = f (Char.ofNat n)) = true)
    (c : Char) : f c.toLower = f c := by
  by_cases low : c.toNat < 0x80
  · exact of_decide_eq_true (ascii_all (p := fun c => f c.toLower = f c) ascii low)
  · rw [toLower_of_beyond (Nat.le_of_not_lt low)]

/-- No letter is blank, in either case. -/
theorem isBlank_toLower (c : Char) : isBlank c.toLower = isBlank c :=
  apply_toLower (by decide +kernel) c

-- An ASCII character is kept, or its partner is a lowered letter.
private theorem lowerChar_ascii {c : Char} (hc : c.toNat < 0x80) :
    (lowerChar c == [c] || (lowerChar c).all fun d =>
      lowerChar d == [d] && d.toNat != 0x3A3 && !isBlank d && d != '?') = true :=
  ascii_all (p := fun c => lowerChar c == [c] || (lowerChar c).all fun d =>
    lowerChar d == [d] && d.toNat != 0x3A3 && !isBlank d && d != '?') (by decide +kernel) hc

/-- A character is kept when it is lowered, or what stands for it is lowered. -/
theorem lowerChar_cases (c : Char) :
    lowerChar c = [c] ∨ lowerChar c ≠ [] ∧ ∀ d ∈ lowerChar c, IsLowered d := by
  by_cases ascii : c.toNat < 0x80
  · have h := lowerChar_ascii ascii
    simp only [Bool.or_eq_true, beq_iff_eq, List.all_eq_true, Bool.and_eq_true, bne_iff_ne,
      Bool.not_eq_true'] at h
    refine h.imp id fun settled => ⟨?_, fun d hd => ?_⟩
    · unfold lowerChar
      rw [if_pos ascii]
      split <;> simp
    · obtain ⟨⟨⟨kept, sigma⟩, blank⟩, mark⟩ := settled d hd
      exact ⟨kept, sigma, blank, mark⟩
  · by_cases dotted : c.toNat = 0x130
    · right
      have hc : lowerChar c = ['i', Char.ofNat 0x307] := by
        unfold lowerChar
        rw [if_neg ascii, if_pos dotted]
      rw [hc]
      refine ⟨by simp, ?_⟩
      intro d hd
      rcases List.mem_cons.mp hd with rfl | hd
      · exact ⟨by decide, by decide, by decide, by decide⟩
      · rw [List.mem_singleton.mp hd]
        exact ⟨by decide +kernel, by decide, by decide, by decide⟩
    · unfold lowerChar
      rw [if_neg ascii, if_neg dotted, lowerCode]
      cases found : caseRuns.find? (·.covers c.toNat) with
      | none => exact .inl (by rw [Char.ofNat_toNat])
      | some run =>
        have lowered := isLowered_of_covers (List.mem_of_find?_eq_some found)
          (List.find?_some (p := fun r : CaseRun => r.covers c.toNat) found)
        exact .inr ⟨by simp, fun d hd => List.mem_singleton.mp hd ▸ lowered⟩

private theorem isLowered_lowerSigma (afterCased : Bool) (rest : List Char) :
    IsLowered (lowerSigma afterCased rest) := by
  unfold lowerSigma
  split <;> exact ⟨by decide +kernel, by decide, by decide, by decide⟩

/-- What stands for a character in the lower-case form of a text. -/
def lowerPiece (afterCased : Bool) (c : Char) (rest : List Char) : List Char :=
  if c.toNat = 0x3A3 then [lowerSigma afterCased rest] else lowerChar c

/-- The lower-case form of a text, character by character. -/
theorem lowerFrom_cons (afterCased : Bool) (c : Char) (rest : List Char) :
    lowerFrom [] afterCased (c :: rest) =
      lowerPiece afterCased c rest ++ lowerFrom [] (endsCased afterCased c) rest := by
  rw [lowerFrom, lowerFrom_eq_append, List.append_nil, List.reverse_reverse]
  rfl

/-- A character is kept when it is no sigma and lowered, or all that stands for it is
lowered. -/
theorem lowerPiece_cases (afterCased : Bool) (c : Char) (rest : List Char) :
    lowerPiece afterCased c rest = [c] ∧ c.toNat ≠ 0x3A3 ∧ lowerChar c = [c] ∨
      lowerPiece afterCased c rest ≠ [] ∧
        ∀ d ∈ lowerPiece afterCased c rest, IsLowered d := by
  unfold lowerPiece
  split
  · exact .inr ⟨by simp, fun d hd => List.mem_singleton.mp hd ▸ isLowered_lowerSigma _ _⟩
  · next sigma => exact (lowerChar_cases c).imp (fun h => ⟨h, sigma, h⟩) id

/-- A text of characters that are each their own lower-case form is its own. -/
theorem lowerFrom_of_kept {cs : List Char} (afterCased : Bool)
    (h : ∀ c ∈ cs, c.toNat ≠ 0x3A3 ∧ lowerChar c = [c]) : lowerFrom [] afterCased cs = cs := by
  induction cs generalizing afterCased with
  | nil => rfl
  | cons c rest ih =>
    have hc := h c List.mem_cons_self
    rw [lowerFrom_cons, lowerPiece, if_neg hc.1, hc.2,
      ih _ fun d hd => h d (List.mem_cons_of_mem _ hd)]
    rfl

/-- Every character of a lower-case form is its own lower-case form. -/
theorem kept_of_mem_lowerFrom {cs : List Char} {afterCased : Bool} {d : Char}
    (h : d ∈ lowerFrom [] afterCased cs) : d.toNat ≠ 0x3A3 ∧ lowerChar d = [d] := by
  induction cs generalizing afterCased with
  | nil => simp [lowerFrom] at h
  | cons c rest ih =>
    rw [lowerFrom_cons] at h
    rcases List.mem_append.mp h with h | h
    · rcases lowerPiece_cases afterCased c rest with ⟨piece, kept⟩ | ⟨-, lowered⟩
      · rw [piece, List.mem_singleton] at h
        exact h ▸ kept
      · exact ⟨(lowered d h).ne_sigma, (lowered d h).lowerChar_eq⟩
    · exact ih h

/-- Lowering makes no character that nothing is lowered to. -/
theorem mem_of_mem_lowerFrom {cs : List Char} {afterCased : Bool} {d : Char}
    (h : d ∈ lowerFrom [] afterCased cs) (other : ¬ IsLowered d) : d ∈ cs := by
  induction cs generalizing afterCased with
  | nil => simp [lowerFrom] at h
  | cons c rest ih =>
    rw [lowerFrom_cons] at h
    rcases List.mem_append.mp h with h | h
    · rcases lowerPiece_cases afterCased c rest with ⟨piece, -⟩ | ⟨-, lowered⟩
      · rw [piece, List.mem_singleton] at h
        exact h ▸ List.mem_cons_self
      · exact absurd (lowered d h) other
    · exact List.mem_cons_of_mem _ (ih h)

/-- Lowering takes no character away that is its own lower-case form. -/
theorem mem_lowerFrom_of_kept {cs : List Char} {afterCased : Bool} {d : Char} (h : d ∈ cs)
    (kept : d.toNat ≠ 0x3A3 ∧ lowerChar d = [d]) : d ∈ lowerFrom [] afterCased cs := by
  induction cs generalizing afterCased with
  | nil => exact absurd h List.not_mem_nil
  | cons c rest ih =>
    rw [lowerFrom_cons]
    rcases List.mem_cons.mp h with rfl | h
    · rw [lowerPiece, if_neg kept.1, kept.2]
      exact List.mem_append_left _ (List.mem_singleton_self d)
    · exact List.mem_append_right _ (ih h)

/-- Lowering twice is lowering once. -/
theorem lowerList_lowerList (cs : List Char) : lowerList (lowerList cs) = lowerList cs :=
  lowerFrom_of_kept false fun _ h => kept_of_mem_lowerFrom h

/-- Lowering twice is lowering once. -/
theorem lower_lower (s : String) : lower (lower s) = lower s := by
  rw [lower, lower, String.toList_ofList, lowerList_lowerList]

/-! ### Words in plain letters -/

/-- An ASCII character that no other character is lowered to, but ASCII capitals: any but `i`, which
U+0130 is lowered to, and `k`, which U+212A is lowered to. -/
def IsPlain (c : Char) : Prop := c.toNat < 0x80 ∧ c ≠ 'i' ∧ c ≠ 'k'

instance (c : Char) : Decidable (IsPlain c) := inferInstanceAs (Decidable (_ ∧ _))

private theorem caseRuns_avoid_plain : (caseRuns.all fun r =>
    r.last.blt 0x80 || r.avoids (0, 0x6A) && r.avoids (0x6C, 0x7F)) = true := by
  decide +kernel

private theorem lowerPiece_ascii (afterCased : Bool) {c : Char} (ascii : c.toNat < 0x80)
    (rest : List Char) : lowerPiece afterCased c rest = [c.toLower] := by
  have lowered := ascii_all (p := fun c => lowerChar c == [c.toLower]) (by decide +kernel) ascii
  rw [lowerPiece, if_neg (by omega)]
  exact beq_iff_eq.mp lowered

-- What stands for a character beyond ASCII is not all plain.
private theorem exists_mem_lowerPiece (afterCased : Bool) {c : Char} (beyond : 0x80 ≤ c.toNat)
    (rest : List Char) : ∃ d ∈ lowerPiece afterCased c rest, ¬ IsPlain d := by
  unfold lowerPiece
  split
  · refine ⟨_, List.mem_singleton_self _, fun plain => absurd plain.1 ?_⟩
    unfold lowerSigma
    split <;> decide
  · unfold lowerChar
    rw [if_neg (by omega)]
    split
    · exact ⟨'i', List.mem_cons_self, fun plain => plain.2.1 rfl⟩
    · refine ⟨_, List.mem_singleton_self _, fun plain => ?_⟩
      unfold lowerCode at plain
      cases found : caseRuns.find? (·.covers c.toNat) with
      | none =>
        simp only [found, Char.ofNat_toNat] at plain
        exact absurd plain.1 (by omega)
      | some run =>
        simp only [found] at plain
        have mem := List.mem_of_find?_eq_some found
        have covered := List.find?_some (p := fun r : CaseRun => r.covers c.toNat) found
        obtain ⟨down, same, -⟩ := lowered_of_covers mem covered
        have shape := List.all_eq_true.mp caseRuns_avoid_plain run mem
        simp only [Bool.or_eq_true, Bool.and_eq_true, Nat.blt_eq] at shape
        rcases shape with low | ⟨front, back⟩
        · simp only [CaseRun.covers, Bool.and_eq_true, decide_eq_true_eq] at covered
          omega
        · have front := CaseRun.not_in_avoided covered down front
          have back := CaseRun.not_in_avoided covered down back
          have ascii := plain.1
          rw [same] at ascii
          have its : run.lowered c.toNat = 0x6B := by omega
          exact plain.2.2 (by rw [its])

private theorem lowerFrom_eq_iff {word : List Char} (plain : ∀ d ∈ word, IsPlain d)
    (afterCased : Bool) (cs : List Char) :
    lowerFrom [] afterCased cs = word ↔ cs.map Char.toLower = word := by
  induction cs generalizing word afterCased with
  | nil => rfl
  | cons c rest ih =>
    rw [lowerFrom_cons, List.map_cons]
    by_cases ascii : c.toNat < 0x80
    · rw [lowerPiece_ascii afterCased ascii, List.singleton_append]
      cases word with
      | nil => simp
      | cons d word =>
        rw [List.cons.injEq, List.cons.injEq, ih fun e he => plain e (.tail _ he)]
    · refine iff_of_false ?_ ?_
      · rintro rfl
        obtain ⟨d, mem, other⟩ := exists_mem_lowerPiece afterCased (Nat.le_of_not_lt ascii) rest
        exact other (plain d (List.mem_append_left _ mem))
      · rintro rfl
        have first := (plain _ List.mem_cons_self).1
        rw [toLower_of_beyond (Nat.le_of_not_lt ascii)] at first
        exact ascii first

/-- A text is lowered to a word in plain letters just if it is this word up to the case of ASCII
letters. -/
theorem lowerList_eq_iff {word : List Char} (plain : ∀ d ∈ word, IsPlain d) {cs : List Char} :
    lowerList cs = word ↔ cs.map Char.toLower = word :=
  lowerFrom_eq_iff plain false cs

/-- No blank character stands at either end. -/
def IsTrimmed (cs : List Char) : Prop :=
  (∀ c ∈ cs.head?, isBlank c = false) ∧ ∀ c ∈ cs.getLast?, isBlank c = false

private theorem head?_dropWhile_blank (cs : List Char) :
    ∀ c ∈ (cs.dropWhile isBlank).head?, isBlank c = false := by
  intro c hc
  have := List.head?_dropWhile_not isBlank cs
  rw [Option.mem_def.mp hc] at this
  simpa using this

/-- Nothing is taken off the front of a text that begins with a character that is not blank. -/
theorem dropWhile_blank_of_head? {cs : List Char}
    (h : ∀ c ∈ cs.head?, isBlank c = false) : cs.dropWhile isBlank = cs := by
  cases cs with
  | nil => rfl
  | cons c rest => rw [List.dropWhile_cons, h c rfl, if_neg (by decide)]

/-- Trimming takes the blank characters off both ends. -/
theorem isTrimmed_trimList (cs : List Char) : IsTrimmed (trimList cs) := by
  have last := head?_dropWhile_blank (cs.dropWhile isBlank).reverse
  refine ⟨fun c hc => ?_, fun c hc => last c (by rwa [trimList, List.getLast?_reverse] at hc)⟩
  -- the trimmed text is a front part of what is left once the front is trimmed
  obtain ⟨off, hoff⟩ := List.dropWhile_suffix isBlank (l := (cs.dropWhile isBlank).reverse)
  have split : trimList cs ++ off.reverse = cs.dropWhile isBlank := by
    rw [trimList, ← List.reverse_append, hoff, List.reverse_reverse]
  apply head?_dropWhile_blank cs c
  rw [← split, List.head?_append, Option.mem_def.mp hc]
  rfl

/-- Trimming adds no character. -/
theorem mem_of_mem_trimList {cs : List Char} {c : Char} (h : c ∈ trimList cs) : c ∈ cs := by
  rw [trimList, List.mem_reverse] at h
  have inner := (List.dropWhile_suffix isBlank).subset h
  exact (List.dropWhile_suffix isBlank).subset (List.mem_reverse.mp inner)

/-- A text without a blank character at either end is its own trimmed form. -/
theorem trimList_of_isTrimmed {cs : List Char} (h : IsTrimmed cs) : trimList cs = cs := by
  rw [trimList, dropWhile_blank_of_head? h.1, dropWhile_blank_of_head?, List.reverse_reverse]
  rw [List.head?_reverse]
  exact h.2

private theorem lowerPiece_not_blank (afterCased : Bool) {c : Char} (rest : List Char)
    (h : isBlank c = false) : lowerPiece afterCased c rest ≠ [] ∧
      ∀ d ∈ lowerPiece afterCased c rest, isBlank d = false := by
  rcases lowerPiece_cases afterCased c rest with ⟨piece, -⟩ | ⟨full, lowered⟩
  · rw [piece]
    exact ⟨by simp, fun d hd => List.mem_singleton.mp hd ▸ h⟩
  · exact ⟨full, fun d hd => (lowered d hd).not_blank⟩

private theorem head?_lowerFrom {cs : List Char} (afterCased : Bool)
    (h : ∀ c ∈ cs.head?, isBlank c = false) :
    ∀ d ∈ (lowerFrom [] afterCased cs).head?, isBlank d = false := by
  cases cs with
  | nil => simp [lowerFrom]
  | cons c rest =>
    obtain ⟨full, clear⟩ := lowerPiece_not_blank afterCased rest (h c rfl)
    intro d hd
    rw [lowerFrom_cons, List.head?_append, List.head?_eq_some_head full] at hd
    obtain rfl : _ = d := Option.some.inj hd
    exact clear _ (List.head_mem full)

/-- Lowering leaves something of every text that is not empty. -/
theorem lowerFrom_ne_nil {cs : List Char} (afterCased : Bool) (h : cs ≠ []) :
    lowerFrom [] afterCased cs ≠ [] := by
  cases cs with
  | nil => exact absurd rfl h
  | cons c rest =>
    rw [lowerFrom_cons]
    rcases lowerPiece_cases afterCased c rest with ⟨piece, -⟩ | ⟨full, -⟩
    · simp [piece]
    · simp [full]

/-- A text of which lowering leaves nothing is empty. -/
theorem lower_ne_empty {s : String} (h : s ≠ "") : lower s ≠ "" := by
  intro nothing
  have full : s.toList ≠ [] := fun none => h (String.toList_eq_nil_iff.mp none)
  apply lowerFrom_ne_nil false full
  rw [← String.toList_ofList (l := lowerFrom [] false s.toList)]
  exact String.toList_eq_nil_iff.mpr nothing

private theorem getLast?_lowerFrom {cs : List Char} (afterCased : Bool)
    (h : ∀ c ∈ cs.getLast?, isBlank c = false) :
    ∀ d ∈ (lowerFrom [] afterCased cs).getLast?, isBlank d = false := by
  induction cs generalizing afterCased with
  | nil => simp [lowerFrom]
  | cons c rest ih =>
    intro d hd
    rw [lowerFrom_cons] at hd
    by_cases more : rest = []
    · subst more
      obtain ⟨-, clear⟩ := lowerPiece_not_blank afterCased [] (h c rfl)
      rw [lowerFrom, List.reverse_nil, List.append_nil] at hd
      exact clear d (List.mem_of_getLast? hd)
    · rw [List.getLast?_append,
        Option.or_of_isSome (List.getLast?_isSome.mpr (lowerFrom_ne_nil _ more))] at hd
      refine ih _ (fun x hx => h x ?_) d hd
      rw [List.getLast?_cons, Option.mem_def.mp hx]
      rfl

/-- Lowering leaves a trimmed text trimmed. -/
theorem isTrimmed_lowerList {cs : List Char} (h : IsTrimmed cs) : IsTrimmed (lowerList cs) :=
  ⟨head?_lowerFrom false h.1, getLast?_lowerFrom false h.2⟩

end Backbox.Text
