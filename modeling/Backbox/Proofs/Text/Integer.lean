import Mathlib.Data.Nat.Digits.Defs
import Backbox.Text.Integer

/-!
# Which texts are integers

A text reads as an integer of a range exactly if it is a decimal numeral whose value lies in the
range: one sign at most, and then one or more ASCII digits, of which leading zeros count for
nothing.
-/

namespace Backbox.Text

/-- One or more ASCII digits. -/
structure IsDigits (cs : List Char) : Prop where
  ne_nil : cs ≠ []
  digit : ∀ c ∈ cs, c.isDigit = true

/-- The integers that signs and digits write. -/
inductive Numeral : List Char → Int → Prop where
  | bare {digits : List Char} (its : IsDigits digits) :
    Numeral digits (Nat.ofDigitChars 10 digits 0)
  | plus {digits : List Char} (its : IsDigits digits) :
    Numeral ('+' :: digits) (Nat.ofDigitChars 10 digits 0)
  | minus {digits : List Char} (its : IsDigits digits) :
    Numeral ('-' :: digits) (-(Nat.ofDigitChars 10 digits 0 : Int))

/-- Whether an integer lies in the range. -/
def IntegerRange.Holds (range : IntegerRange) (n : Int) : Prop := range.low ≤ n ∧ n ≤ range.high

instance (range : IntegerRange) (n : Int) : Decidable (range.Holds n) :=
  inferInstanceAs (Decidable (_ ∧ _))

/-- A number with or without a minus sign. -/
def signed (negative : Bool) (m : Nat) : Int := if negative then -m else m

variable {range : IntegerRange} {negative : Bool} {m k : Nat} {n : Int} {cs : List Char}

/-- In a range around zero, what is nearer to zero lies in it too. -/
theorem IntegerRange.Holds.of_le (zero : range.Holds 0) (holds : range.Holds (signed negative k))
    (le : m ≤ k) : range.Holds (signed negative m) := by
  obtain ⟨low, high⟩ := zero
  cases negative <;> simp only [Holds, signed, if_true] at holds ⊢ <;> grind

private theorem le_ofDigitChars (cs : List Char) (m : Nat) : m ≤ Nat.ofDigitChars 10 cs m := by
  induction cs generalizing m with
  | nil => exact Nat.le_refl m
  | cons c rest ih =>
    rw [Nat.ofDigitChars_cons]
    have := ih (10 * m + (c.toNat - '0'.toNat))
    omega

-- One digit more, read in the direction of the sign.
private theorem next_eq {c : Char} (digit : c.isDigit = true) :
    (if negative then signed negative m * 10 - ((c.toNat : Int) - '0'.toNat)
      else signed negative m * 10 + ((c.toNat : Int) - '0'.toNat)) =
      signed negative (10 * m + (c.toNat - '0'.toNat)) := by
  have least : '0'.toNat ≤ c.toNat := by
    simp only [Char.isDigit, Bool.and_eq_true, decide_eq_true_eq] at digit
    exact digit.1
  cases negative <;> simp only [signed, if_true] <;> grind

/-- Digits that follow a number read as what they write together with it, if this lies in the
range. -/
theorem readDigits_eq_ok_iff (zero : range.Holds 0) (holds : range.Holds (signed negative m)) :
    readDigits range negative (signed negative m) cs = .ok n ↔
      (∀ c ∈ cs, c.isDigit = true) ∧ n = signed negative (Nat.ofDigitChars 10 cs m) ∧
        range.Holds n := by
  induction cs generalizing m with
  | nil =>
    rw [readDigits, Except.ok.injEq]
    constructor
    · rintro rfl
      exact ⟨fun _ hc => absurd hc List.not_mem_nil, rfl, holds⟩
    · rintro ⟨-, rfl, -⟩
      rfl
  | cons c rest ih =>
    have same : ('0' ≤ c ∧ c ≤ '9') ↔ c.isDigit = true := by
      simp only [Char.isDigit, Bool.and_eq_true, decide_eq_true_eq]
      exact Iff.rfl
    rw [readDigits, List.forall_mem_cons, Nat.ofDigitChars_cons]
    by_cases digit : c.isDigit = true
    · simp only [if_pos (same.mpr digit), next_eq digit]
      by_cases fits : range.Holds (signed negative (10 * m + (c.toNat - '0'.toNat)))
      · rw [if_neg (by exact Int.not_lt.mpr fits.2), if_neg (by exact Int.not_lt.mpr fits.1),
          ih fits]
        simp only [digit, true_and]
      · -- what is out of the range stays out of it, whatever digits follow
        refine iff_of_false ?_ fun ⟨_, its, inside⟩ =>
          fits (zero.of_le (its ▸ inside) (le_ofDigitChars rest _))
        split
        · simp
        · split
          · simp
          · next above below => exact absurd ⟨Int.not_lt.mp below, Int.not_lt.mp above⟩ fits
    · rw [if_neg fun its => digit (same.mp its)]
      exact iff_of_false (by simp) fun ⟨⟨its, _⟩, _⟩ => digit its

private theorem not_isDigits_of_sign {sign : Char} (other : sign.isDigit = false)
    (digits : List Char) : ¬ IsDigits (sign :: digits) := by
  intro its
  have digit := its.digit sign List.mem_cons_self
  rw [other] at digit
  cases digit

private theorem numeral_plus_iff :
    Numeral ('+' :: cs) n ↔ IsDigits cs ∧ n = signed false (Nat.ofDigitChars 10 cs 0) := by
  constructor
  · rintro (its | its)
    · exact absurd its (not_isDigits_of_sign rfl cs)
    · exact ⟨its, rfl⟩
  · rintro ⟨its, rfl⟩
    exact .plus its

private theorem numeral_minus_iff :
    Numeral ('-' :: cs) n ↔ IsDigits cs ∧ n = signed true (Nat.ofDigitChars 10 cs 0) := by
  constructor
  · rintro (its | _ | its)
    · exact absurd its (not_isDigits_of_sign rfl cs)
    · exact ⟨its, rfl⟩
  · rintro ⟨its, rfl⟩
    exact .minus its

private theorem numeral_bare_iff (plus : ∀ rest, cs ≠ '+' :: rest)
    (minus : ∀ rest, cs ≠ '-' :: rest) :
    Numeral cs n ↔ IsDigits cs ∧ n = signed false (Nat.ofDigitChars 10 cs 0) := by
  constructor
  · rintro (its | its | its)
    · exact ⟨its, rfl⟩
    · exact absurd rfl (plus _)
    · exact absurd rfl (minus _)
  · rintro ⟨its, rfl⟩
    exact .bare its

/-- A numeral holds signs and digits only. -/
theorem Numeral.code (writes : Numeral cs n) : ∀ c ∈ cs, 0x2B ≤ c.toNat ∧ c.toNat ≤ 0x39 := by
  have digits {ds : List Char} (its : IsDigits ds) : ∀ c ∈ ds, 0x2B ≤ c.toNat ∧ c.toNat ≤ 0x39 := by
    intro c mem
    have digit := its.digit c mem
    simp only [Char.isDigit, Bool.and_eq_true, decide_eq_true_eq] at digit
    have low : 0x30 ≤ c.toNat := digit.1
    have high : c.toNat ≤ 0x39 := digit.2
    omega
  cases writes with
  | bare its => exact digits its
  | plus its | minus its => exact List.forall_mem_cons.mpr ⟨by decide, digits its⟩

/-- A text reads as an integer of a range with negative numbers exactly if it is a numeral of this
value and the range holds it. -/
theorem readInteger_eq_ok_iff {s : String} (low : range.low < 0) (high : 0 ≤ range.high) :
    readInteger range s = .ok n ↔ Numeral s.toList n ∧ range.Holds n := by
  have zero : range.Holds 0 := ⟨Int.le_of_lt low, high⟩
  have reads (negative : Bool) {digits : List Char} (some : digits ≠ []) :
      readDigits range negative 0 digits = .ok n ↔ (IsDigits digits ∧
        n = signed negative (Nat.ofDigitChars 10 digits 0)) ∧ range.Holds n := by
    have start : signed negative 0 = 0 := by cases negative <;> rfl
    have holds : range.Holds (signed negative 0) := start.symm ▸ zero
    have read : readDigits range negative (signed negative 0) digits = .ok n ↔ _ :=
      readDigits_eq_ok_iff zero holds
    rw [start] at read
    rw [read, ← and_assoc]
    exact and_congr_left' (and_congr_left' ⟨fun all => ⟨some, all⟩, fun its => its.digit⟩)
  -- no sign is a digit, and neither a sign nor nothing is a numeral
  have nothing : ¬ IsDigits [] := fun its => its.ne_nil rfl
  unfold readInteger
  split
  · next empty => simp [empty, numeral_bare_iff, nothing]
  · next plus => simp [plus, numeral_plus_iff, nothing]
  · next minus => simp [minus, numeral_minus_iff, nothing]
  · next digits some whole => rw [whole, numeral_plus_iff, reads false some]
  · next digits some whole => rw [if_pos low, whole, numeral_minus_iff, reads true some]
  · next empty _ _ plus minus =>
    rw [numeral_bare_iff plus minus, reads false empty]

end Backbox.Text
