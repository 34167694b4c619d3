import Backbox.Proofs.Engine.Deed
import Backbox.Proofs.Text.Blank
import Backbox.Proofs.Text.Integer

/-!
# The states of switches

A switch command gives the state of the switch as a word between blank characters. The words are
the numerals of 64 bits with a sign, active unless their value is zero, and `true` and `false` in
any case of their letters. Every other text leaves the command without a meaning.
-/

namespace Backbox

/-- The words for a switch state. -/
inductive StateWord : List Char → Bool → Prop where
  | number {word : List Char} {value : Int} (writes : Text.Numeral word value)
      (low : -2 ^ 63 ≤ value) (high : value ≤ 2 ^ 63 - 1) : StateWord word (value ≠ 0)
  | yes {word : List Char} (spells : word.map Char.toLower = "true".toList) : StateWord word true
  | no {word : List Char} (spells : word.map Char.toLower = "false".toList) : StateWord word false

/-- The texts for a switch state: such a word between blank characters. -/
def StateText (raw : String) (active : Bool) : Prop :=
  ∃ lead word trail, Text.AllBlank lead ∧ Text.AllBlank trail ∧
    raw.toList = lead ++ word ++ trail ∧ StateWord word active

/-- The parameters of a switch command name a switch and give its state. -/
structure Switches (params : Params) (name : String) (active : Bool) : Prop where
  named : params.get? "name" = some name
  nonempty : name ≠ ""
  state : ∃ raw, params.get? "state" = some raw ∧ StateText raw active

variable {raw name : String} {active : Bool} {word : List Char} {value : Int} {params : Params}

/-- A numeral holds no blank character. -/
theorem Text.Numeral.isTrimmed (writes : Text.Numeral word value) : Text.IsTrimmed word := by
  have solid : ∀ c ∈ word, Text.isBlank c = false := by
    intro c mem
    have code := writes.code c mem
    rw [← Bool.not_eq_true]
    simp only [Text.isBlank, Bool.or_eq_true, Bool.and_eq_true, decide_eq_true_eq, beq_iff_eq]
    omega
  exact ⟨fun c hc => solid c (List.mem_of_mem_head? hc),
    fun c hc => solid c (List.mem_of_mem_getLast? hc)⟩

/-- A numeral spells no word that holds an `e`. -/
theorem Text.Numeral.not_spells (writes : Text.Numeral word value) :
    'e' ∉ word.map Char.toLower := by
  intro mem
  obtain ⟨c, its, lowered⟩ := List.mem_map.mp mem
  have code := writes.code c its
  have same : c.toLower = c := by
    unfold Char.toLower
    rw [dif_neg]
    rintro ⟨capital, -⟩
    have capital : 0x41 ≤ c.toNat := capital
    omega
  rw [← same, lowered] at code
  exact absurd code (by decide)

/-- A word for a state has no blank ends. -/
theorem StateWord.isTrimmed (states : StateWord word active) : Text.IsTrimmed word := by
  cases states with
  | number writes => exact writes.isTrimmed
  | yes spells | no spells =>
    refine Text.isTrimmed_of_map_toLower (spells ▸ ?_)
    constructor <;> simp [Text.isBlank]

/-- A text for a state is one whose trimmed form is a word for it. -/
theorem stateText_iff : StateText raw active ↔ StateWord (Text.trim raw).toList active := by
  rw [Text.trim, String.toList_ofList]
  constructor
  · rintro ⟨lead, word, trail, front, back, whole, states⟩
    rwa [whole, Text.trimList_append front back states.isTrimmed]
  · intro states
    obtain ⟨lead, trail, front, back, whole⟩ := Text.exists_eq_append_trimList raw.toList
    exact ⟨lead, _, trail, front, back, whole, states⟩

private theorem reads_iff {s : String} : Text.readInteger Text.int64Range s = .ok value ↔
    Text.Numeral s.toList value ∧ -2 ^ 63 ≤ value ∧ value ≤ 2 ^ 63 - 1 := by
  rw [Text.readInteger_eq_ok_iff (by decide) (by decide)]
  simp [Text.IntegerRange.Holds, Text.int64Range]

-- An integer is no other word, and no other integer.
private theorem stateWord_iff_of_read {s : String}
    (read : Text.readInteger Text.int64Range s = .ok value) :
    StateWord s.toList active ↔ decide (value ≠ 0) = active := by
  obtain ⟨writes, low, high⟩ := reads_iff.mp read
  constructor
  · rintro (⟨writes', low', high'⟩ | spells | spells)
    · have same := read.symm.trans (reads_iff.mpr ⟨writes', low', high'⟩)
      rw [Except.ok.inj same]
    · exact absurd (by rw [spells]; decide) writes.not_spells
    · exact absurd (by rw [spells]; decide) writes.not_spells
  · rintro rfl
    exact .number writes low high

private theorem stateWord_iff_of_unread {s : String}
    (unread : ∀ value, Text.readInteger Text.int64Range s ≠ .ok value) :
    StateWord s.toList active ↔ s.toList.map Char.toLower = "true".toList ∧ active = true ∨
      s.toList.map Char.toLower = "false".toList ∧ active = false := by
  constructor
  · rintro (⟨writes, low, high⟩ | spells | spells)
    · exact absurd (reads_iff.mpr ⟨writes, low, high⟩) (unread _)
    · exact .inl ⟨spells, rfl⟩
    · exact .inr ⟨spells, rfl⟩
  · rintro (⟨spells, rfl⟩ | ⟨spells, rfl⟩)
    · exact .yes spells
    · exact .no spells

/-- The texts that are read as switch states. -/
theorem switchState?_eq_some_iff : switchState? raw = some active ↔ StateText raw active := by
  rw [stateText_iff, switchState?]
  cases read : Text.readInteger Text.int64Range (Text.trim raw) with
  | ok value =>
    rw [stateWord_iff_of_read read]
    simp only [Option.some.injEq]
  | error fault =>
    rw [stateWord_iff_of_unread fun value => by rw [read]; simp]
    simp only
    split
    · next yes => simp [yes, eq_comm]
    · next notYes =>
      split
      · next no => simp [no, eq_comm]
      · next notNo => simp only [notYes, notNo, false_and, or_self, reduceCtorEq]

example : switchState? "\u2003+009223372036854775807\u00a0" = some true ∧
    switchState? "9223372036854775808" = none ∧ switchState? "-9223372036854775808" = some true ∧
    switchState? "-9223372036854775809" = none ∧ switchState? "-0" = some false := by
  decide +kernel

/-- Parameters ask for a switch and its state if they name the switch and give its state. -/
theorem asksFor_iff : Deed.AsksFor params name active ↔ Switches params name active := by
  simp only [Deed.AsksFor, switchState?_eq_some_iff]
  exact ⟨fun ⟨named, nonempty, state⟩ => ⟨named, nonempty, state⟩,
    fun ⟨named, nonempty, state⟩ => ⟨named, nonempty, state⟩⟩

/-- A switch command sets a switch to a state exactly if its parameters name the switch and give
this state, and has invalid parameters exactly if they name and give none. -/
theorem ofCommand_switch (params : Params) :
    (∀ name active, Inbound.ofCommand ⟨"switch", params⟩ = .ok (.switch name active) ↔
      Switches params name active) ∧
    (Inbound.ofCommand ⟨"switch", params⟩ = .error (.invalidParameters "switch") ↔
      ∀ name active, ¬ Switches params name active) := by
  have meaning : Inbound.ofCommand ⟨"switch", params⟩ = Inbound.ofSwitch params := rfl
  simp only [meaning, ← asksFor_iff]
  by_cases asks : ∃ name active, Deed.AsksFor params name active
  · obtain ⟨name, active, asks⟩ := asks
    rw [asks.ofSwitch_eq]
    refine ⟨fun other state => ⟨?_, fun also => also.ofSwitch_eq ▸ asks.ofSwitch_eq.symm⟩, ?_⟩
    · rintro ⟨⟩
      exact asks
    · exact iff_of_false (by simp) fun none => none name active asks
  · have none : ∀ name active, ¬ Deed.AsksFor params name active :=
      fun name active its => asks ⟨name, active, its⟩
    rw [Deed.ofSwitch_of_not_asksFor none]
    exact ⟨fun name active => iff_of_false (by simp) (none name active), iff_of_true rfl none⟩

end Backbox
