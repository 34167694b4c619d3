import Mathlib.Data.List.Forall2
import Backbox.Document.Reading
import Backbox.Proofs.KeyMap

/-!
# Reading maps from texts

A record is a document that is written as a map from texts. It is read entry by entry, and where no
two entries have one key nothing of it is lost. Whatever else stands in a map, what it has under a
text is read, so one field that is not asked for makes a record unreadable.
-/

namespace Backbox.Document

variable {α β : Type}

/-- A map from texts. -/
def record (fields : List (String × Document)) : Document :=
  .map (fields.map fun field => (.text field.1, field.2))

/-- A record without the fields of some names. -/
def recordWithout (left : List String) (fields : List (String × Document)) : Document :=
  record (fields.filter fun field => field.1 ∉ left)

/-- What is read item by item. -/
theorem mapM_eq_some_iff {read : α → Option β} {items : List α} {values : List β} :
    items.mapM read = some values ↔
      List.Forall₂ (fun item value => read item = some value) items values := by
  induction items generalizing values with
  | nil => simp [eq_comm]
  | cons item rest ih =>
    simp only [List.mapM_cons, Option.bind_eq_bind, Option.pure_def, Option.bind_eq_some_iff,
      List.forall₂_cons_left_iff, ih, Option.some.injEq]
    constructor
    · rintro ⟨value, first, others, later, rfl⟩
      exact ⟨value, others, first, later, rfl⟩
    · rintro ⟨value, others, first, later, rfl⟩
      exact ⟨value, first, others, later, rfl⟩

/-- What is written item by item is read back. -/
theorem mapM_map {read : β → Option α} {write : α → β} {values : List α}
    (back : ∀ value ∈ values, read (write value) = some value) :
    (values.map write).mapM read = some values :=
  mapM_eq_some_iff.mpr (List.forall₂_map_left_iff.mpr (List.forall₂_same.mpr back))

private theorem exists_of_forall₂ {r : α → β → Prop} {items : List α} {values : List β}
    (pairs : List.Forall₂ r items values) {item : α} (mem : item ∈ items) :
    ∃ value ∈ values, r item value := by
  induction pairs with
  | nil => cases mem
  | cons first _ ih =>
    rcases List.mem_cons.mp mem with rfl | mem
    · exact ⟨_, List.mem_cons_self, first⟩
    · obtain ⟨value, its, read⟩ := ih mem
      exact ⟨value, List.mem_cons_of_mem _ its, read⟩

/-- A map is read entry by entry. -/
theorem keyMap?_eq_some_iff {read : Document → Option α} {d : Document} {m : KeyMap α} :
    d.keyMap? read = some m ↔ ∃ es values, d.entries? = some es ∧
      List.Forall₂ (fun entry value => read entry.2 = some value.2 ∧ entry.1 = value.1) es values ∧
      m = KeyMap.ofList values := by
  have one (entry : String × Document) (value : String × α) :
      ((read entry.2).bind fun v => some (entry.1, v)) = some value ↔
        read entry.2 = some value.2 ∧ entry.1 = value.1 := by
    rw [Option.bind_eq_some_iff]
    constructor
    · rintro ⟨v, own, same⟩
      obtain rfl := Option.some.inj same
      exact ⟨own, rfl⟩
    · rintro ⟨own, key⟩
      exact ⟨value.2, own, by rw [key]⟩
  simp only [keyMap?, Option.bind_eq_bind, Option.pure_def, Option.bind_eq_some_iff,
    mapM_eq_some_iff, one, Option.some.injEq]
  constructor
  · rintro ⟨es, entries, values, pairs, made⟩
    exact ⟨es, values, entries, pairs, made.symm⟩
  · rintro ⟨es, values, entries, pairs, made⟩
    exact ⟨es, entries, values, pairs, made.symm⟩

section Record

variable {fields : List (String × Document)}

private theorem mergedEntries_record (fields : List (String × Document)) :
    mergedEntries (fields.map fun field => (.text field.1, field.2)) = some [] := by
  induction fields with
  | nil => rfl
  | cons field rest ih => simp [mergedEntries, isMergeKey, ih]

/-- A record in which no two fields have one name has just these entries. -/
theorem entries?_record (distinct : (fields.map (·.1)).Nodup) :
    (record fields).entries? = some fields := by
  have own : ownEntries (fields.map fun field => (.text field.1, field.2)) =
      fields.map fun field => (.text field.1, field.2) :=
    List.filter_eq_self.mpr fun entry mem => by
      obtain ⟨field, -, rfl⟩ := List.mem_map.mp mem
      rfl
  have keys : textKeys? (fields.map fun field => (.text field.1, field.2)) = some fields :=
    mapM_map fun _ _ => rfl
  simp only [record, entries?, own, keys, mergedEntries_record, Option.bind_eq_bind,
    Option.bind_some, if_pos distinct]
  rfl

/-- A map whose values are written one by one is read back. -/
theorem keyMap?_record {m : KeyMap α} {write : String × α → Document}
    {read : Document → Option α} (back : ∀ entry ∈ m.toList, read (write entry) = some entry.2) :
    (record (m.toList.map fun entry => (entry.1, write entry))).keyMap? read = some m := by
  refine keyMap?_eq_some_iff.mpr
    ⟨_, m.toList, entries?_record ?_, ?_, m.ofList_toList.symm⟩
  · rw [List.map_map]
    exact m.nodup_keys
  · exact List.forall₂_map_left_iff.mpr
      (List.forall₂_same.mpr fun entry mem => ⟨back entry mem, rfl⟩)

/-- A record of which no field is unknown is read as its fields. -/
theorem fields?_record {names : List String} (distinct : (fields.map (·.1)).Nodup)
    (known : ∀ field ∈ fields, field.1 ∈ names) :
    (record fields).fields? names = some (KeyMap.ofList fields) := by
  have read : (record fields).keyMap? some = some (KeyMap.ofList fields) :=
    keyMap?_eq_some_iff.mpr ⟨fields, fields, entries?_record distinct,
      List.forall₂_same.mpr fun _ _ => ⟨rfl, rfl⟩, rfl⟩
  have all : (KeyMap.ofList fields).keys.all names.contains = true := by
    refine List.all_eq_true.mpr fun key mem => List.contains_iff_mem.mpr ?_
    obtain ⟨value, held⟩ := KeyMap.mem_keys_iff.mp mem
    by_contra unknown
    rw [KeyMap.get?_ofList_of_notMem] at held
    · cases held
    · intro here
      obtain ⟨field, its, rfl⟩ := List.mem_map.mp here
      exact unknown (known field its)
  simp only [fields?, read, Option.bind_eq_bind, Option.bind_some, if_pos all]

/-- What is read of a record without the fields of some names. -/
structure Remains (left : List String) (fields : List (String × Document))
    (kept : KeyMap Document) : Prop where
  get?_of_mem : ∀ {name d}, (name, d) ∈ fields → name ∉ left → kept.get? name = some d
  get?_of_left : ∀ {name}, name ∈ left → kept.get? name = none

/-- A record is read as the fields that are not left out. -/
theorem fields?_recordWithout {names : List String} (same : fields.map (·.1) = names)
    (distinct : names.Nodup) (left : List String) :
    ∃ kept, (recordWithout left fields).fields? names = some kept ∧ Remains left fields kept := by
  subst same
  have apart : ((fields.filter fun field => field.1 ∉ left).map (·.1)).Nodup :=
    distinct.sublist (List.filter_sublist.map _)
  refine ⟨_, fields?_record apart fun field mem => ?_, fun mem stays => ?_, fun out => ?_⟩
  · exact List.mem_map_of_mem (List.mem_filter.mp mem).1
  · exact KeyMap.get?_ofList_of_mem apart (List.mem_filter.mpr ⟨mem, decide_eq_true stays⟩)
  · refine KeyMap.get?_ofList_of_notMem fun here => ?_
    obtain ⟨field, kept, rfl⟩ := List.mem_map.mp here
    exact of_decide_eq_true (List.mem_filter.mp kept).2 out

/-- A field is read where it stands, and stands at its default where it is left out. -/
theorem Remains.fieldOr_eq {left : List String} {kept : KeyMap Document}
    (remains : Remains left fields kept) {name : String} {d : Document} {missing value : α}
    {read : Document → Option α} (back : read d = some value) (mem : (name, d) ∈ fields)
    (default : name ∈ left → value = missing) : fieldOr kept name missing read = some value := by
  unfold fieldOr
  by_cases out : name ∈ left
  · rw [remains.get?_of_left out, default out]
  · rw [remains.get?_of_mem mem out]
    exact back

end Record

section Map

variable {entries : List (Document × Document)} {key : String} {value : Document}

private theorem foldl_addMissing {own : List (String × Document)} {entry : String × Document}
    (mem : entry ∈ own) (distinct : (own.map (·.1)).Nodup) (merged : List (String × Document)) :
    entry ∈ merged.foldl addMissing own ∧ ((merged.foldl addMissing own).map (·.1)).Nodup := by
  induction merged generalizing own with
  | nil => exact ⟨mem, distinct⟩
  | cons first rest ih =>
    rw [List.foldl_cons, addMissing]
    split
    · exact ih mem distinct
    · next new =>
      refine ih (List.mem_cons_of_mem _ mem) (List.nodup_cons.mpr ⟨fun here => new ?_, distinct⟩)
      obtain ⟨entry, its, same⟩ := List.mem_map.mp here
      exact List.any_eq_true.mpr ⟨entry, its, decide_eq_true same⟩

/-- What a map has under a text is an entry of it, whatever it takes in from other maps. -/
theorem mem_entries? {es : List (String × Document)}
    (read : (Document.map entries).entries? = some es) (mem : (.text key, value) ∈ entries) :
    (key, value) ∈ es ∧ (es.map (·.1)).Nodup := by
  simp only [entries?, Option.bind_eq_bind, Option.bind_eq_some_iff] at read
  obtain ⟨own, keys, merged, -, rest, -, read⟩ := read
  split at read
  · next distinct =>
    obtain rfl := Option.some.inj read
    have here : (Document.text key, value) ∈ ownEntries entries := List.mem_filter.mpr ⟨mem, rfl⟩
    obtain ⟨entry, its, same⟩ := exists_of_forall₂ (mapM_eq_some_iff.mp keys) here
    obtain rfl : (key, value) = entry := Option.some.inj same
    exact foldl_addMissing its distinct _
  · cases read

/-- What a map has under a text is read. -/
theorem exists_of_keyMap? {read : Document → Option α} {m : KeyMap α}
    (all : (Document.map entries).keyMap? read = some m) (mem : (.text key, value) ∈ entries) :
    ∃ v, read value = some v ∧ m.get? key = some v := by
  obtain ⟨es, values, read_es, pairs, rfl⟩ := keyMap?_eq_some_iff.mp all
  obtain ⟨here, distinct⟩ := mem_entries? read_es mem
  obtain ⟨⟨own, v⟩, its, read_v, same⟩ := exists_of_forall₂ pairs here
  obtain rfl : key = own := same
  have keys : es.map (·.1) = values.map (·.1) := by
    rw [← List.forall₂_eq_eq_eq, List.forall₂_map_left_iff, List.forall₂_map_right_iff]
    exact pairs.imp fun _ _ pair => pair.2
  exact ⟨v, read_v, KeyMap.get?_ofList_of_mem (keys ▸ distinct) its⟩

/-- Every field that a document has is one that is asked for, and is read. -/
theorem get?_fields? {names : List String} {fields : KeyMap Document}
    (read : (Document.map entries).fields? names = some fields)
    (mem : (.text key, value) ∈ entries) : fields.get? key = some value ∧ key ∈ names := by
  simp only [fields?, Option.bind_eq_bind, Option.bind_eq_some_iff] at read
  obtain ⟨fields, all, read⟩ := read
  split at read
  · next known =>
    obtain rfl := Option.some.inj read
    obtain ⟨v, same, held⟩ := exists_of_keyMap? all mem
    obtain rfl := Option.some.inj same
    have named := List.all_eq_true.mp known key (KeyMap.mem_keys_iff.mpr ⟨value, held⟩)
    exact ⟨held, List.contains_iff_mem.mp named⟩
  · cases read

/-- One field that is not asked for makes a document unreadable. -/
theorem fields?_of_unknown {names : List String} (mem : (.text key, value) ∈ entries)
    (unknown : key ∉ names) : (Document.map entries).fields? names = none :=
  Option.eq_none_iff_forall_not_mem.mpr fun _ read => unknown (get?_fields? read mem).2

end Map

end Backbox.Document
