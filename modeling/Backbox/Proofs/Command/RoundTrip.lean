import Mathlib.Data.List.TakeWhile
import Backbox.Proofs.Command.Wire

/-!
# Writing, reading and writing again

Whatever name and parameters are written, what is read is their normal form: keys agree up to
case, the first of the entries that agree counts, and entries with an empty part are lost. What
is read once stays as it is when it is written and read again, whatever the text was that it was
read from, so that no two commands that are read have the same wire text.
-/

namespace Backbox

/-- A value in the letter case asked for stays as it is. -/
theorem ValueCase.apply_apply (valueCase : ValueCase) (value : String) :
    valueCase.apply (valueCase.apply value) = valueCase.apply value := by
  cases valueCase with
  | preserve => rfl
  | lowercase => exact Text.lower_lower value

/-- A value that is not empty is not empty in any letter case. -/
theorem ValueCase.apply_ne_empty (valueCase : ValueCase) {value : String} (h : value ≠ "") :
    valueCase.apply value ≠ "" := by
  cases valueCase with
  | preserve => exact h
  | lowercase => exact Text.lower_ne_empty h

namespace Command

/-- The written text of a name without a question mark and any parameters reads as one command:
its name is trimmed and lower-cased, and each of its keys has the value of the first entry, in
ascending order of the keys that were written, which is this key up to case and of which no part
is empty. Read in lower case it is the same command with its values lower-cased. -/
theorem ofWire_encode_eq_iff {name : String} (mark : '?' ∉ name.toList) (params : Params)
    (c : Command) :
    (ofWire .preserve (encode name params) = c ↔
      c.name = Text.lower (Text.trim name) ∧
        ∀ key, c.params.get? key = (params.toList.find? (Reads key ·)).map (·.2)) ∧
    (ofWire .lowercase (encode name params)).name =
      (ofWire .preserve (encode name params)).name ∧
    ∀ key, (ofWire .lowercase (encode name params)).params.get? key =
      ((ofWire .preserve (encode name params)).params.get? key).map Text.lower := by
  rw [ofWire_encode .preserve mark, ofWire_encode .lowercase mark]
  refine ⟨⟨?_, ?_⟩, rfl, fun key => ?_⟩
  · rintro rfl
    exact ⟨rfl, fun key => get?_readPairs .preserve params.toList key⟩
  · obtain ⟨own, held⟩ := c
    rintro ⟨rfl, values⟩
    refine congrArg (mk (normalName name)) (KeyMap.ext_get? fun key => ?_)
    rw [get?_readPairs]
    exact (values key).symm
  · rw [get?_readPairs, get?_readPairs, Option.map_map]
    rfl

/-- Of keys that agree up to case, the first that is written with a value is read. -/
theorem ofWire_encode_eq_iff_colliding :
    let params := KeyMap.ofList [("aB", "2"), ("Ab", "1 &"), ("AB", ""), ("", "0")]
    '?' ∉ " Größe".toList ∧
      (ofWire .preserve (encode " Größe" params)).params.get? "ab" = some "1 &" := by
  intro params
  have mark : '?' ∉ " Größe".toList := by decide
  have read := ((ofWire_encode_eq_iff mark params _).1.mp rfl).2 "ab"
  exact ⟨mark, read.trans (by decide +kernel)⟩

variable {valueCase : ValueCase} {message : String}

/-- The name of a command that was read holds no question mark. -/
theorem mark_notMem_name_ofWire : '?' ∉ (ofWire valueCase message).name.toList := by
  rw [name_ofWire]
  refine mark_notMem_normalName ?_
  rw [String.toList_ofList]
  intro mark
  have other := List.mem_takeWhile_imp mark
  exact absurd rfl (of_decide_eq_true other)

/-- No key and no value of a command that was read is empty, and its values are in the letter
case asked for. -/
theorem full_ofWire {pair : String × String} (h : pair ∈ (ofWire valueCase message).params.toList) :
    (pair.1 ≠ "" ∧ pair.2 ≠ "") ∧ valueCase.apply pair.2 = pair.2 := by
  simp only [ofWire_eq] at h
  obtain ⟨written, -, named, valued, rfl⟩ := exists_of_mem_readPairs h
  exact ⟨⟨Text.lower_ne_empty named, valueCase.apply_ne_empty valued⟩,
    valueCase.apply_apply written.2⟩

/-- What was read from any text stays as it is when it is written and read again: reading
settles in one step. So commands that are read are equal when they are written alike. -/
theorem ofWire_settles (valueCase : ValueCase) (message : String) :
    let c := ofWire valueCase message
    ofWire .preserve c.toWire = c ∧ ofWire valueCase c.toWire = c ∧
      (∀ pair ∈ c.params.toList, pair.1 ≠ "" ∧ pair.2 ≠ "") ∧ '?' ∉ c.name.toList ∧
      ∀ otherCase other, (ofWire otherCase other).toWire = c.toWire →
        ofWire otherCase other = c := by
  have again {anyCase : ValueCase} {text : String} :
      ofWire .preserve (ofWire anyCase text).toWire = ofWire anyCase text :=
    ofWire_toWire (isNormal_ofWire anyCase text) mark_notMem_name_ofWire
      (fun _ hp => (full_ofWire hp).1) fun _ _ => rfl
  refine ⟨again, ?_, fun _ hp => (full_ofWire hp).1, mark_notMem_name_ofWire, ?_⟩
  · exact ofWire_toWire (isNormal_ofWire valueCase message) mark_notMem_name_ofWire
      (fun _ hp => (full_ofWire hp).1) fun _ hp => (full_ofWire hp).2
  · intro otherCase other same
    rw [← again, same, again]

end Command

end Backbox
