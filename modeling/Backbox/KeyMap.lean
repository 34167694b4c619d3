/-!
# Maps with text keys

Finite maps from texts to values, held as a list in ascending order of the keys. The
order of texts is by code point, which is also the order of their UTF-8 bytes. A map
has one representation, so maps with the same entries are equal.
-/

namespace Backbox

universe u v

/-- A map from texts to values: its entries, in ascending order of their keys. -/
structure KeyMap (β : Type u) where
  entries : List (String × β)
  ordered : entries.Pairwise (fun a b => a.1 < b.1)

namespace KeyMap

variable {β : Type u}

/-- Maps with the same entries are equal. -/
@[ext] theorem ext {m n : KeyMap β} (h : m.entries = n.entries) : m = n := by
  cases m
  cases n
  cases h
  rfl

/-- Equality is equality of the entries. -/
instance [DecidableEq β] : DecidableEq (KeyMap β) := fun m n =>
  decidable_of_iff (m.entries = n.entries) ⟨ext, fun h => h ▸ rfl⟩

/-- The map without entries. -/
def empty : KeyMap β := ⟨[], .nil⟩

instance : EmptyCollection (KeyMap β) := ⟨empty⟩

instance : Inhabited (KeyMap β) := ⟨empty⟩

/-- Whether a map has no entries. -/
def isEmpty (m : KeyMap β) : Bool := m.entries.isEmpty

/-- The number of entries. -/
def size (m : KeyMap β) : Nat := m.entries.length

/-- The keys, in ascending order. -/
def keys (m : KeyMap β) : List String := m.entries.map (·.1)

/-- The value of a key. -/
def get? (m : KeyMap β) (key : String) : Option β :=
  (m.entries.find? (·.1 = key)).map (·.2)

/-- Whether a key has a value. -/
def contains (m : KeyMap β) (key : String) : Bool := (m.get? key).isSome

/-- Puts an entry into an ordered list of entries, in place of one with the same key. -/
def insertEntry (key : String) (value : β) : List (String × β) → List (String × β)
  | [] => [(key, value)]
  | entry :: rest =>
    if key < entry.1 then (key, value) :: entry :: rest
    else if key = entry.1 then (key, value) :: rest
    else entry :: insertEntry key value rest

/-- An entry of the longer list is the new one or an old one. -/
theorem mem_insertEntry {key : String} {value : β} {es : List (String × β)} {x : String × β}
    (h : x ∈ insertEntry key value es) : x = (key, value) ∨ x ∈ es := by
  induction es with
  | nil => simpa [insertEntry] using h
  | cons e rest ih =>
    rw [insertEntry] at h
    split at h
    · simpa using h
    · split at h
      · rcases List.mem_cons.mp h with h | h
        · exact .inl h
        · exact .inr (List.mem_cons_of_mem _ h)
      · rcases List.mem_cons.mp h with h | h
        · exact .inr (h ▸ List.mem_cons_self)
        · exact (ih h).imp id (List.mem_cons_of_mem _)

/-- Putting an entry into an ordered list keeps it ordered. -/
theorem ordered_insertEntry (key : String) (value : β) {es : List (String × β)}
    (h : es.Pairwise (fun a b => a.1 < b.1)) :
    (insertEntry key value es).Pairwise (fun a b => a.1 < b.1) := by
  induction es with
  | nil => simp [insertEntry]
  | cons e rest ih =>
    obtain ⟨first, tail⟩ := List.pairwise_cons.mp h
    rw [insertEntry]
    split
    · next lt =>
      refine List.pairwise_cons.mpr ⟨fun x hx => ?_, h⟩
      rcases List.mem_cons.mp hx with rfl | hx
      · exact lt
      · exact String.lt_trans lt (first x hx)
    · next notLt =>
      split
      · next same => exact List.pairwise_cons.mpr ⟨fun x hx => same ▸ first x hx, tail⟩
      · next differ =>
        refine List.pairwise_cons.mpr ⟨fun x hx => ?_, ih tail⟩
        rcases mem_insertEntry hx with rfl | hx
        · exact Decidable.byContradiction fun notGt =>
            differ (String.le_antisymm (String.not_lt.mp notGt) (String.not_lt.mp notLt))
        · exact first x hx

/-- Sets the value of a key. -/
def insert (m : KeyMap β) (key : String) (value : β) : KeyMap β :=
  ⟨insertEntry key value m.entries, ordered_insertEntry key value m.ordered⟩

/-- Sets the value of a key that has none yet. -/
def insertNew (m : KeyMap β) (key : String) (value : β) : KeyMap β :=
  if m.contains key then m else m.insert key value

/-- Takes a key out. -/
def erase (m : KeyMap β) (key : String) : KeyMap β :=
  ⟨m.entries.filter (·.1 ≠ key), m.ordered.filter _⟩

/-- The map of a list of entries; of entries with one key the last counts. -/
def ofList (entries : List (String × β)) : KeyMap β :=
  entries.foldl (fun m e => m.insert e.1 e.2) empty

/-- The entries, in ascending order of their keys. -/
def toList (m : KeyMap β) : List (String × β) := m.entries

end KeyMap

end Backbox
