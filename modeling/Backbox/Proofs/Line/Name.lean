import Backbox.Proofs.Command.Wire
import Backbox.Proofs.Text.Blank
import Backbox.Proofs.Text.Utf8

/-!
# Lines that name a command

A line names a command by the text before its first question mark, trimmed and lower-cased. For a
name in plain letters this can be told from the bytes: they spell the name, in any case of its
letters, between blank characters.
-/

namespace Backbox.Line

open Text

/-- The byte of a question mark. -/
def questionMark : UInt8 := 0x3F

/-- A line spells a name, in any case of its ASCII letters, between blank characters and up to the
question mark that begins the parameters, if there is one. -/
def Spells (name : String) (line : Bytes) : Prop :=
  ∃ lead spelt trail rest, AllBlank lead ∧ AllBlank trail ∧
    spelt.map Char.toLower = name.toList ∧
    line = encodeUtf8 (lead ++ spelt ++ trail) ++ rest ∧ ∀ b ∈ rest.head?, b = questionMark

variable {name : String} {line : Bytes} {cs : List Char}

private theorem takeWhile_eq_iff {c : Char} {text : List Char} (clear : c ∉ cs) :
    text.takeWhile (· ≠ c) = cs ↔ ∃ more, text = cs ++ more ∧ ∀ d ∈ more.head?, d = c := by
  constructor
  · rintro rfl
    refine ⟨text.dropWhile (· ≠ c), List.takeWhile_append_dropWhile.symm, fun d hd => ?_⟩
    have ended := List.head?_dropWhile_not (· ≠ c) text
    rw [Option.mem_def.mp hd] at ended
    simpa using ended
  · rintro ⟨more, rfl, ended⟩
    rw [List.takeWhile_append_of_pos]
    · cases more with
      | nil => exact List.append_nil cs
      | cons d more => simp [ended d rfl]
    · intro d hd
      rw [decide_eq_true_eq]
      rintro rfl
      exact clear hd

-- The question mark that ends the name is a byte of its own.
private theorem ended_iff {rest : Bytes} :
    (∀ d ∈ (decodeUtf8 rest).head?, d = '?') ↔ ∀ b ∈ rest.head?, b = questionMark := by
  have byte : String.utf8EncodeChar '?' = [questionMark] := by decide
  constructor
  · intro ended b hb
    cases read : decodeUtf8 rest with
    | nil =>
      rw [decodeUtf8_eq_nil_iff.mp read] at hb
      cases hb
    | cons d more =>
      rw [read] at ended
      obtain rfl := ended d rfl
      obtain ⟨behind, rfl, -⟩ := exists_bytes_of_decodeUtf8 (by decide) read
      rw [byte] at hb
      exact (Option.some.inj hb).symm
  · intro ended d hd
    cases rest with
    | nil => cases hd
    | cons b rest =>
      obtain rfl := ended b rfl
      have read := decodeUtf8_encodeUtf8_append ['?'] rest
      rw [encodeUtf8, List.flatMap_singleton, byte, List.singleton_append] at read
      rw [read] at hd
      exact (Option.some.inj hd).symm

-- A character that is no capital, not blank and not in the name is not before the question mark.
private theorem notMem_spelt {d : Char} {lead spelt trail : List Char} (front : AllBlank lead)
    (back : AllBlank trail) (spells : spelt.map Char.toLower = name.toList)
    (same : d.toLower = d) (visible : isBlank d = false) (foreign : d ∉ name.toList) :
    d ∉ lead ++ spelt ++ trail := by
  intro mem
  rcases List.mem_append.mp mem with mem | mem
  · rcases List.mem_append.mp mem with mem | mem
    · exact absurd (front d mem) (by simp [visible])
    · have lowered := List.mem_map_of_mem (f := Char.toLower) mem
      rw [spells, same] at lowered
      exact foreign lowered
  · exact absurd (back d mem) (by simp [visible])

/-- A line is read as a command of a name in plain letters just if it spells this name. -/
theorem name_ofWire_eq_iff (valueCase : ValueCase) (plain : ∀ d ∈ name.toList, IsPlain d)
    (trimmed : IsTrimmed name.toList) (clear : '?' ∉ name.toList) :
    (Command.ofWire valueCase (Text.ofBytes line)).name = name ↔ Spells name line := by
  have ascii : replacement ∉ name.toList := fun mem => absurd (plain _ mem).1 (by decide)
  have named : (Command.ofWire valueCase (Text.ofBytes line)).name =
      lower (trim (String.ofList ((decodeUtf8 line).takeWhile (· ≠ '?')))) := by
    rw [Text.ofBytes, Command.name_ofWire, String.toList_ofList]
    rfl
  rw [named, lower_trim_eq_iff plain trimmed, String.toList_ofList]
  constructor
  · rintro ⟨lead, spelt, trail, front, back, spells, read⟩
    have no_mark := notMem_spelt front back spells (by decide) (by decide) clear
    have genuine := notMem_spelt front back spells (by decide) (by decide) ascii
    obtain ⟨more, whole, ended⟩ := (takeWhile_eq_iff no_mark).mp read
    obtain ⟨rest, bytes, rfl⟩ := (decodeUtf8_eq_append_iff genuine).mp whole
    exact ⟨lead, spelt, trail, rest, front, back, spells, bytes, ended_iff.mp ended⟩
  · rintro ⟨lead, spelt, trail, rest, front, back, spells, bytes, ended⟩
    have no_mark := notMem_spelt front back spells (by decide) (by decide) clear
    refine ⟨lead, spelt, trail, front, back, spells, (takeWhile_eq_iff no_mark).mpr ?_⟩
    exact ⟨decodeUtf8 rest, by rw [bytes, decodeUtf8_encodeUtf8_append], ended_iff.mpr ended⟩

end Backbox.Line
