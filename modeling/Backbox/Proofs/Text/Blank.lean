import Backbox.Proofs.Text.Lower

/-!
# What trimming takes off

A text is its trimmed form between blank characters, and a text without a blank character at
either end is the trimmed form of just the texts that it stands in between blank characters.
-/

namespace Backbox.Text

/-- Only blank characters stand here. -/
def AllBlank (cs : List Char) : Prop := ∀ c ∈ cs, isBlank c = true

private theorem allBlank_takeWhile (cs : List Char) : AllBlank (cs.takeWhile isBlank) :=
  List.all_eq_true.mp List.all_takeWhile

private theorem AllBlank.dropWhile_append {lead : List Char} (blank : AllBlank lead)
    (cs : List Char) : (lead ++ cs).dropWhile isBlank = cs.dropWhile isBlank :=
  List.dropWhile_append_of_pos blank

private theorem AllBlank.reverse {cs : List Char} (blank : AllBlank cs) : AllBlank cs.reverse :=
  fun c mem => blank c (List.mem_reverse.mp mem)

/-- What is trimmed off is blank. -/
theorem exists_eq_append_trimList (cs : List Char) :
    ∃ lead trail, AllBlank lead ∧ AllBlank trail ∧ cs = lead ++ trimList cs ++ trail := by
  let rest := cs.dropWhile isBlank
  refine ⟨cs.takeWhile isBlank, (rest.reverse.takeWhile isBlank).reverse, allBlank_takeWhile cs,
    (allBlank_takeWhile _).reverse, ?_⟩
  have back : trimList cs ++ (rest.reverse.takeWhile isBlank).reverse = rest := by
    rw [trimList, ← List.reverse_append, List.takeWhile_append_dropWhile, List.reverse_reverse]
  rw [List.append_assoc, back, List.takeWhile_append_dropWhile]

/-- Blank characters around a text without blank ends are trimmed off. -/
theorem trimList_append {lead word trail : List Char} (front : AllBlank lead)
    (back : AllBlank trail) (trimmed : IsTrimmed word) :
    trimList (lead ++ word ++ trail) = word := by
  rw [trimList, List.append_assoc, front.dropWhile_append]
  by_cases empty : word = []
  · have gone := back.dropWhile_append []
    rw [List.append_nil] at gone
    rw [empty, List.nil_append, gone]
    rfl
  · have starts : (word ++ trail).dropWhile isBlank = word ++ trail :=
      dropWhile_blank_of_head? fun c hc => trimmed.1 c <| by
        rwa [List.head?_append, Option.or_of_isSome (List.isSome_head?.mpr empty)] at hc
    have ends : word.reverse.dropWhile isBlank = word.reverse :=
      dropWhile_blank_of_head? fun c hc => trimmed.2 c (List.head?_reverse ▸ hc)
    rw [starts, List.reverse_append, back.reverse.dropWhile_append, ends, List.reverse_reverse]

/-- The texts of one trimmed form. -/
theorem trimList_eq_iff {cs word : List Char} (trimmed : IsTrimmed word) :
    trimList cs = word ↔
      ∃ lead trail, AllBlank lead ∧ AllBlank trail ∧ cs = lead ++ word ++ trail := by
  constructor
  · rintro rfl
    exact exists_eq_append_trimList cs
  · rintro ⟨lead, trail, front, back, rfl⟩
    exact trimList_append front back trimmed

/-- A text is blank exactly if nothing is left of it once it is trimmed. -/
theorem isBlankText_iff {s : String} : isBlankText s = true ↔ trim s = "" := by
  have empty : IsTrimmed [] := by simp [IsTrimmed]
  rw [isBlankText, List.all_eq_true, trim, String.ofList_eq_empty_iff, trimList_eq_iff empty]
  constructor
  · intro blank
    exact ⟨s.toList, [], blank, fun c hc => absurd hc List.not_mem_nil, by simp⟩
  · rintro ⟨lead, trail, front, back, whole⟩ c mem
    rw [whole, List.append_nil] at mem
    exact (List.mem_append.mp mem).elim (front c) (back c)

/-- A text is trimmed when it is up to the case of ASCII letters, which are not blank. -/
theorem isTrimmed_of_map_toLower {cs : List Char} (trimmed : IsTrimmed (cs.map Char.toLower)) :
    IsTrimmed cs := by
  refine ⟨fun c hc => isBlank_toLower c ▸ trimmed.1 _ ?_,
    fun c hc => isBlank_toLower c ▸ trimmed.2 _ ?_⟩
  · rw [List.head?_map, Option.mem_def.mp hc]
    rfl
  · rw [List.getLast?_map, Option.mem_def.mp hc]
    rfl

/-- The texts that become a word in plain letters when they are trimmed and lowered: those that
spell it, in any case of its letters, between blank characters. -/
theorem lower_trim_eq_iff {word s : String} (plain : ∀ d ∈ word.toList, IsPlain d)
    (trimmed : IsTrimmed word.toList) : lower (trim s) = word ↔
      ∃ lead spelt trail, AllBlank lead ∧ AllBlank trail ∧
        spelt.map Char.toLower = word.toList ∧ s.toList = lead ++ spelt ++ trail := by
  rw [← String.toList_inj, lower, trim, String.toList_ofList, String.toList_ofList,
    lowerList_eq_iff plain]
  constructor
  · intro spells
    obtain ⟨lead, trail, front, back, whole⟩ := exists_eq_append_trimList s.toList
    exact ⟨lead, _, trail, front, back, spells, whole⟩
  · rintro ⟨lead, spelt, trail, front, back, spells, whole⟩
    rw [whole, trimList_append front back (isTrimmed_of_map_toLower (spells ▸ trimmed)), spells]

end Backbox.Text
