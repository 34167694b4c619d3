import Mathlib.Data.List.Find
import Mathlib.Data.List.Sort
import Backbox.KeyMap

/-!
# Looking up keys

A map is known by what its keys are looked up to: maps that agree on every key are equal. Each
operation has one equation that says what every key is looked up to after it.
-/

namespace Backbox.KeyMap

universe u v

variable {β : Type u}

/-- No key has a value in the map without entries. -/
theorem get?_empty (key : String) : (empty : KeyMap β).get? key = none := rfl

private theorem find?_insertEntry (key : String) (value : β) (entries : List (String × β))
    (k : String) : ((insertEntry key value entries).find? (·.1 = k)).map (·.2) =
      if k = key then some value else (entries.find? (·.1 = k)).map (·.2) := by
  have first (rest : List (String × β)) : (((key, value) :: rest).find? (·.1 = k)).map (·.2) =
      if k = key then some value else (rest.find? (·.1 = k)).map (·.2) := by
    by_cases own : k = key
    · simp [own]
    · simp [own, Ne.symm own]
  induction entries with
  | nil => exact first []
  | cons entry rest ih =>
    rw [insertEntry]
    split
    · exact first (entry :: rest)
    · split
      · next same =>
        rw [first rest]
        by_cases own : k = key
        · rw [if_pos own, if_pos own]
        · have other : entry.1 ≠ k := fun its => own (its.symm.trans same.symm)
          rw [if_neg own, if_neg own, List.find?_cons_of_neg (by simpa using other)]
      · next differ =>
        by_cases its : entry.1 = k
        · have other : k ≠ key := fun own => differ (own.symm.trans its.symm)
          rw [if_neg other, List.find?_cons_of_pos (by simpa using its),
            List.find?_cons_of_pos (by simpa using its)]
        · rw [List.find?_cons_of_neg (by simpa using its),
            List.find?_cons_of_neg (by simpa using its), ih]

/-- Setting a key changes what this key is looked up to, and no other. -/
theorem get?_insert (m : KeyMap β) (key : String) (value : β) (k : String) :
    (m.insert key value).get? k = if k = key then some value else m.get? k :=
  find?_insertEntry key value m.entries k

/-- Setting a key that may have a value leaves this value. -/
theorem get?_insertNew (m : KeyMap β) (key : String) (value : β) (k : String) :
    (m.insertNew key value).get? k = (m.get? k).or (if k = key then some value else none) := by
  unfold insertNew
  by_cases own : k = key
  · subst own
    cases held : m.get? k with
    | none => simp [contains, held, get?_insert]
    | some old => simp [contains, held]
  · rw [if_neg own, Option.or_none]
    split
    · rfl
    · rw [get?_insert, if_neg own]

/-- A key that was taken out has no value, and the others are as they were. -/
theorem get?_erase (m : KeyMap β) (key k : String) :
    (m.erase key).get? k = if k = key then none else m.get? k := by
  unfold get? erase
  rw [List.find?_filter]
  by_cases own : k = key
  · subst own
    rw [if_pos rfl, List.find?_eq_none.mpr, Option.map_none]
    simp
  · rw [if_neg own]
    refine congrArg (Option.map Prod.snd) (List.find?_congr fun entry _ => ?_)
    by_cases its : entry.1 = k
    · simp [its, own]
    · simp [its]

private theorem find?_of_mem {entries : List (String × β)}
    (ordered : entries.Pairwise fun a b => a.1 < b.1) {entry : String × β}
    (h : entry ∈ entries) : entries.find? (·.1 = entry.1) = some entry := by
  induction entries with
  | nil => exact absurd h List.not_mem_nil
  | cons first rest ih =>
    obtain ⟨before, ordered⟩ := List.pairwise_cons.mp ordered
    rcases List.mem_cons.mp h with rfl | h
    · exact List.find?_cons_of_pos (by simp)
    · have differ : first.1 ≠ entry.1 := fun same =>
        String.lt_irrefl _ (same ▸ before entry h)
      rw [List.find?_cons_of_neg (by simpa using differ)]
      exact ih ordered h

/-- The entries of a map are what its keys are looked up to. -/
theorem mem_toList_iff {m : KeyMap β} {key : String} {value : β} :
    (key, value) ∈ m.toList ↔ m.get? key = some value := by
  constructor
  · intro h
    rw [get?, find?_of_mem m.ordered h]
    rfl
  · intro h
    obtain ⟨entry, found, rfl⟩ := Option.map_eq_some_iff.mp h
    obtain rfl : entry.1 = key := of_decide_eq_true (List.find?_some found :)
    exact List.mem_of_find?_eq_some found

/-- The first entry that passes a test is the one of the smallest key that does. -/
theorem find?_toList_eq_some_iff {m : KeyMap β} {p : String × β → Bool} {key : String}
    {value : β} : m.toList.find? p = some (key, value) ↔
      m.get? key = some value ∧ p (key, value) = true ∧
        ∀ other value', m.get? other = some value' → p (other, value') = true → key ≤ other := by
  have first {key : String} {value : β} (found : m.toList.find? p = some (key, value)) :
      m.get? key = some value ∧ p (key, value) = true ∧
        ∀ other value', m.get? other = some value' → p (other, value') = true → key ≤ other := by
    obtain ⟨passes, front, back, split, fail⟩ := List.find?_eq_some_iff_append.mp found
    refine ⟨mem_toList_iff.mp (List.mem_of_find?_eq_some found), passes,
      fun other value' held also => ?_⟩
    have mem := mem_toList_iff.mpr held
    rw [split] at mem
    rcases List.mem_append.mp mem with before | mem
    · exact absurd (fail _ before) (by simp [also])
    · rcases List.mem_cons.mp mem with same | after
      · obtain ⟨rfl, -⟩ := Prod.mk.inj same
        exact String.le_refl _
      · have ordered : m.toList.Pairwise fun a b => a.1 < b.1 := m.ordered
        rw [split] at ordered
        have lt : key < other :=
          List.rel_of_pairwise_cons (List.pairwise_append.mp ordered).2.1 after
        exact String.not_lt.mp (String.lt_asymm lt)
  refine ⟨first, fun ⟨held, passes, least⟩ => ?_⟩
  cases found : m.toList.find? p with
  | none => exact absurd passes (List.find?_eq_none.mp found _ (mem_toList_iff.mpr held))
  | some entry =>
    obtain ⟨key', value'⟩ := entry
    obtain ⟨held', passes', least'⟩ := first found
    obtain rfl : key' = key :=
      String.le_antisymm (least' key value held passes) (least key' value' held' passes')
    rw [Option.some.inj (held'.symm.trans held)]

/-- Maps that agree on every key are equal. -/
theorem ext_get? {m n : KeyMap β} (h : ∀ key, m.get? key = n.get? key) : m = n := by
  have irrefl : Std.Irrefl fun a b : String × β => a.1 < b.1 := ⟨fun _ => String.lt_irrefl _⟩
  have antisymm : Std.Antisymm fun a b : String × β => a.1 < b.1 :=
    ⟨fun _ _ lt gt => absurd (String.lt_trans lt gt) (String.lt_irrefl _)⟩
  apply KeyMap.ext
  refine m.ordered.eq_of_mem_iff n.ordered fun entry => ?_
  have mem := @mem_toList_iff β m entry.1 entry.2
  rw [h, ← mem_toList_iff] at mem
  exact mem

/-- No two entries of a map have one key. -/
theorem nodup_keys (m : KeyMap β) : (m.toList.map (·.1)).Nodup := by
  refine List.pairwise_map.mpr (m.ordered.imp fun {a b} lt same => ?_)
  rw [same] at lt
  exact String.lt_irrefl _ lt

private theorem get?_foldl_of_notMem {entries : List (String × β)} {key : String}
    (h : key ∉ entries.map (·.1)) (m : KeyMap β) :
    (entries.foldl (fun m e => m.insert e.1 e.2) m).get? key = m.get? key := by
  induction entries generalizing m with
  | nil => rfl
  | cons entry rest ih =>
    rw [List.map_cons, List.mem_cons, not_or] at h
    rw [List.foldl_cons, ih h.2, get?_insert, if_neg h.1]

/-- A key that no entry has is looked up to nothing. -/
theorem get?_ofList_of_notMem {entries : List (String × β)} {key : String}
    (h : key ∉ entries.map (·.1)) : (ofList entries).get? key = none :=
  get?_foldl_of_notMem h empty

/-- Where no two entries have one key, each key is looked up to the value of its entry. -/
theorem get?_ofList_of_mem {entries : List (String × β)} (distinct : (entries.map (·.1)).Nodup)
    {key : String} {value : β} (h : (key, value) ∈ entries) :
    (ofList entries).get? key = some value := by
  suffices any : ∀ m : KeyMap β,
      (entries.foldl (fun m e => m.insert e.1 e.2) m).get? key = some value from any empty
  induction entries with
  | nil => exact absurd h List.not_mem_nil
  | cons entry rest ih =>
    intro m
    obtain ⟨new, distinct⟩ := List.nodup_cons.mp distinct
    rw [List.foldl_cons]
    rcases List.mem_cons.mp h with rfl | h
    · rw [get?_foldl_of_notMem new, get?_insert, if_pos rfl]
    · exact ih distinct h _

/-- The entries of a map make this map. -/
theorem ofList_toList (m : KeyMap β) : ofList m.toList = m := by
  refine ext_get? fun key => ?_
  cases held : m.get? key with
  | some value => exact get?_ofList_of_mem m.nodup_keys (mem_toList_iff.mpr held)
  | none =>
    refine get?_ofList_of_notMem fun mem => ?_
    obtain ⟨entry, its, rfl⟩ := List.mem_map.mp mem
    rw [mem_toList_iff.mp its] at held
    cases held

/-- The map of the same keys whose values are taken by a function. -/
def mapValues {γ : Type v} (f : β → γ) (m : KeyMap β) : KeyMap γ :=
  ⟨m.entries.map fun entry => (entry.1, f entry.2), List.pairwise_map.mpr m.ordered⟩

/-- A key is looked up to what its value is taken to. -/
theorem get?_mapValues {γ : Type v} (f : β → γ) (m : KeyMap β) (key : String) :
    (m.mapValues f).get? key = (m.get? key).map f := by
  rw [get?, mapValues, List.find?_map, Option.map_map, get?, Option.map_map]
  rfl

/-- The keys of a map are those with a value. -/
theorem mem_keys_iff {m : KeyMap β} {key : String} :
    key ∈ m.keys ↔ ∃ value, m.get? key = some value := by
  constructor
  · intro mem
    obtain ⟨entry, its, rfl⟩ := List.mem_map.mp mem
    exact ⟨entry.2, mem_toList_iff.mp its⟩
  · rintro ⟨value, held⟩
    exact List.mem_map.mpr ⟨(key, value), mem_toList_iff.mpr held, rfl⟩

private theorem mem_keys_foldl {entries : List (String × β)} {key : String} (m : KeyMap β) :
    key ∈ (entries.foldl (fun m e => m.insert e.1 e.2) m).keys ↔
      key ∈ m.keys ∨ key ∈ entries.map (·.1) := by
  induction entries generalizing m with
  | nil => simp
  | cons entry rest ih =>
    have inserted : key ∈ (m.insert entry.1 entry.2).keys ↔ key ∈ m.keys ∨ key = entry.1 := by
      rw [mem_keys_iff, mem_keys_iff, get?_insert]
      by_cases own : key = entry.1 <;> simp [own]
    rw [List.foldl_cons, ih, inserted, List.map_cons, List.mem_cons, or_assoc]

/-- The keys of the map of a list of entries are those of the entries. -/
theorem mem_keys_ofList {entries : List (String × β)} {key : String} :
    key ∈ (ofList entries).keys ↔ key ∈ entries.map (·.1) :=
  (mem_keys_foldl empty).trans (or_iff_right List.not_mem_nil)

end Backbox.KeyMap
