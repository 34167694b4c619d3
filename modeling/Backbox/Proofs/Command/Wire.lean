import Mathlib.Data.List.Find
import Backbox.Command.Wire
import Backbox.Proofs.KeyMap
import Backbox.Proofs.Text.Form
import Backbox.Proofs.Text.Lower

/-!
# Reading commands back

A command is kept in a normal form: a trimmed, lower-cased name and lower-cased keys. Every
way to build a command keeps to it, so writing a command changes neither its name nor its
keys. A query is read pair by pair, and a key has the value of the first pair that is read as a
value of it. Reading the written text gives the command back, as long as its name holds no `?`
and no key and no value is empty.
-/

namespace Backbox

namespace Command

/-- The form in which the name of a command is kept is its own normal form. -/
theorem normalName_normalName (name : String) :
    normalName (normalName name) = normalName name := by
  have trimmed : Text.IsTrimmed (Text.lowerList (Text.trimList name.toList)) :=
    Text.isTrimmed_lowerList (Text.isTrimmed_trimList name.toList)
  have kept : Text.trim (normalName name) = normalName name := by
    rw [normalName, Text.lower, Text.trim, Text.trim, String.toList_ofList, String.toList_ofList,
      Text.trimList_of_isTrimmed trimmed]
  conv => lhs; rw [normalName, kept]
  rw [normalName, Text.lower_lower]

/-- The form in which every command is kept: a trimmed, lower-cased name and lower-cased
keys. -/
structure IsNormal (c : Command) : Prop where
  name_eq : normalName c.name = c.name
  keys_eq : ∀ pair ∈ c.params.toList, Text.lower pair.1 = pair.1

/-- A command without parameters is in normal form. -/
theorem isNormal_ofName (name : String) : (ofName name).IsNormal :=
  ⟨normalName_normalName name, fun _ h => absurd h List.not_mem_nil⟩

/-- Setting a parameter keeps the normal form. -/
theorem IsNormal.withParam {c : Command} (h : c.IsNormal) (key value : String) :
    (c.withParam key value).IsNormal := by
  refine ⟨h.name_eq, ?_⟩
  intro pair hp
  rcases KeyMap.mem_insertEntry hp with rfl | hp
  · exact Text.lower_lower key
  · exact h.keys_eq pair hp

/-- Parameters do not change the name of a command. -/
theorem name_ofPairs (name : String) (pairs : List (String × String)) :
    (ofPairs name pairs).name = normalName name := by
  suffices h : ∀ c : Command,
      (pairs.foldl (fun c pair => c.withParam pair.1 pair.2) c).name = c.name from h _
  induction pairs with
  | nil => exact fun _ => rfl
  | cons pair rest ih => exact fun c => ih (c.withParam pair.1 pair.2)

/-- Every parameter of a command that is built of pairs is one of them, under its lower-cased
key. -/
theorem exists_of_mem_ofPairs {name : String} {pairs : List (String × String)}
    {pair : String × String} (h : pair ∈ (ofPairs name pairs).params.toList) :
    ∃ given ∈ pairs, pair = (Text.lower given.1, given.2) := by
  suffices from_either : ∀ c : Command,
      pair ∈ (pairs.foldl (fun c pair => c.withParam pair.1 pair.2) c).params.toList →
        pair ∈ c.params.toList ∨ ∃ given ∈ pairs, pair = (Text.lower given.1, given.2) from
    (from_either _ h).resolve_left List.not_mem_nil
  clear h
  induction pairs with
  | nil => exact fun _ mem => .inl mem
  | cons first rest ih =>
    intro c mem
    rcases ih _ mem with mem | ⟨given, later, its⟩
    · rcases KeyMap.mem_insertEntry mem with rfl | old
      · exact .inr ⟨first, List.mem_cons_self, rfl⟩
      · exact .inl old
    · exact .inr ⟨given, List.mem_cons_of_mem _ later, its⟩

/-- A command built of a name and pairs is in normal form. -/
theorem isNormal_ofPairs (name : String) (pairs : List (String × String)) :
    (ofPairs name pairs).IsNormal := by
  constructor
  · rw [name_ofPairs, normalName_normalName]
  · intro pair mem
    obtain ⟨given, -, rfl⟩ := exists_of_mem_ofPairs mem
    exact Text.lower_lower given.1

/-- Parameters that are given with keys and values have keys and values. -/
theorem full_ofPairs (name : String) {pairs : List (String × String)}
    (full : ∀ pair ∈ pairs, pair.1 ≠ "" ∧ pair.2 ≠ "") :
    ∀ pair ∈ (ofPairs name pairs).params.toList, pair.1 ≠ "" ∧ pair.2 ≠ "" := by
  intro pair mem
  obtain ⟨given, its, rfl⟩ := exists_of_mem_ofPairs mem
  exact ⟨Text.lower_ne_empty (full given its).1, (full given its).2⟩

/-- Parameters whose keys are lower-cased are the parameters of the command that is built of
them. -/
theorem ofPairs_toList {params : Params}
    (lowered : ∀ pair ∈ params.toList, Text.lower pair.1 = pair.1) (name : String) :
    ofPairs name params.toList = ⟨normalName name, params⟩ := by
  suffices h : ∀ m : Params,
      params.toList.foldl (fun c pair => c.withParam pair.1 pair.2) (mk (normalName name) m) =
        ⟨normalName name, params.toList.foldl (fun m pair => m.insert pair.1 pair.2) m⟩ from
    (h .empty).trans (congrArg (mk _) params.ofList_toList)
  generalize params.toList = pairs at lowered
  induction pairs with
  | nil => exact fun _ => rfl
  | cons pair rest ih =>
    intro m
    rw [List.foldl_cons, List.foldl_cons, withParam, lowered pair List.mem_cons_self]
    exact ih (fun other mem => lowered other (List.mem_cons_of_mem _ mem)) _

/-- A command in normal form is the one that is built of its name and its parameters. -/
theorem IsNormal.ofPairs_eq {c : Command} (h : c.IsNormal) :
    ofPairs c.name c.params.toList = c := by
  rw [ofPairs_toList h.keys_eq, h.name_eq]

/-- Taking a parameter out keeps the normal form. -/
theorem IsNormal.takeParam {c : Command} (h : c.IsNormal) (key : String) :
    (c.takeParam key).2.IsNormal :=
  ⟨h.name_eq, fun pair hp => h.keys_eq pair (List.mem_filter.mp hp).1⟩

/-- Whether a pair is read as a value of a key: its key is this key up to case, and neither its
key nor its value is empty. -/
def Reads (key : String) (pair : String × String) : Prop :=
  pair.1 ≠ "" ∧ pair.2 ≠ "" ∧ Text.lower pair.1 = key

instance (key : String) (pair : String × String) : Decidable (Reads key pair) :=
  inferInstanceAs (Decidable (_ ∧ _))

private theorem get?_readPair (valueCase : ValueCase) (m : Params) (pair : String × String)
    (key : String) : (readPair valueCase m pair).get? key =
      (m.get? key).or (if Reads key pair then some (valueCase.apply pair.2) else none) := by
  unfold readPair
  split
  · next empty =>
    have other : ¬ Reads key pair := by
      rintro ⟨named, valued, -⟩
      simp [named, valued] at empty
    rw [if_neg other, Option.or_none]
  · next full =>
    rw [Bool.or_eq_true, String.isEmpty_iff, String.isEmpty_iff, not_or] at full
    have own : Reads key pair ↔ key = Text.lower pair.1 :=
      ⟨fun reads => reads.2.2.symm, fun same => ⟨full.1, full.2, same.symm⟩⟩
    rw [KeyMap.get?_insertNew]
    simp only [own]

private theorem get?_foldl_readPair (valueCase : ValueCase) (m : Params)
    (pairs : List (String × String)) (key : String) :
    (pairs.foldl (readPair valueCase) m).get? key = (m.get? key).or
      ((pairs.find? (Reads key ·)).map fun pair => valueCase.apply pair.2) := by
  induction pairs generalizing m with
  | nil => simp
  | cons pair rest ih =>
    rw [List.foldl_cons, ih, get?_readPair, Option.or_assoc, List.find?_cons]
    by_cases reads : Reads key pair
    · simp [reads]
    · simp [reads]

/-- A key is read as the first of the pairs that are values of it. -/
theorem get?_readPairs (valueCase : ValueCase) (pairs : List (String × String)) (key : String) :
    (readPairs valueCase pairs).get? key =
      (pairs.find? (Reads key ·)).map fun pair => valueCase.apply pair.2 := by
  rw [readPairs, get?_foldl_readPair, KeyMap.get?_empty, Option.none_or]

/-- Parameters with lower-cased keys are read as they are, but for those with an empty part. -/
theorem get?_readPairs_toList (valueCase : ValueCase) {params : Params}
    (lowered : ∀ pair ∈ params.toList, Text.lower pair.1 = pair.1) (key : String) :
    (readPairs valueCase params.toList).get? key = if key = "" then none else
      ((params.get? key).filter (· ≠ "")).map valueCase.apply := by
  have reads {pair : String × String} (mem : pair ∈ params.toList) :
      Reads key pair ↔ key ≠ "" ∧ pair.2 ≠ "" ∧ pair.1 = key := by
    rw [Reads, lowered pair mem]
    constructor
    · rintro ⟨named, valued, rfl⟩
      exact ⟨named, valued, rfl⟩
    · rintro ⟨named, valued, rfl⟩
      exact ⟨named, valued, rfl⟩
  rw [get?_readPairs]
  by_cases named : key = ""
  · rw [if_pos named, List.find?_eq_none.mpr, Option.map_none]
    exact fun pair mem its => ((reads mem).mp (of_decide_eq_true its)).1 named
  rw [if_neg named]
  cases found : params.toList.find? (Reads key ·) with
  | none =>
    have missing := List.find?_eq_none.mp found
    have lost : ∀ value, params.get? key = some value → value = "" := by
      intro value held
      have mem := KeyMap.mem_toList_iff.mpr held
      by_contra valued
      exact missing _ mem (decide_eq_true ((reads mem).mpr ⟨named, valued, rfl⟩))
    rw [Option.filter_eq_none_iff.mpr fun value held => by simp [lost value held]]
    rfl
  | some pair =>
    have mem := List.mem_of_find?_eq_some found
    obtain ⟨-, valued, rfl⟩ := (reads mem).mp (of_decide_eq_true (List.find?_some found :))
    rw [KeyMap.mem_toList_iff.mp mem, Option.filter_some, if_pos (decide_eq_true valued)]
    rfl

/-- Every parameter that was read comes from a pair, of which neither part is empty. -/
theorem exists_of_mem_readPairs {valueCase : ValueCase} {pairs : List (String × String)}
    {entry : String × String} (h : entry ∈ (readPairs valueCase pairs).toList) :
    ∃ pair ∈ pairs, pair.1 ≠ "" ∧ pair.2 ≠ "" ∧
      entry = (Text.lower pair.1, valueCase.apply pair.2) := by
  have held := KeyMap.mem_toList_iff.mp h
  rw [get?_readPairs] at held
  obtain ⟨pair, found, value⟩ := Option.map_eq_some_iff.mp held
  obtain ⟨named, valued, key⟩ : Reads entry.1 pair := of_decide_eq_true (List.find?_some found :)
  exact ⟨pair, List.mem_of_find?_eq_some found, named, valued, Prod.ext key.symm value.symm⟩

/-- The keys that were read are lower-cased. -/
theorem lower_of_mem_readPairs {valueCase : ValueCase} {pairs : List (String × String)} :
    ∀ entry ∈ (readPairs valueCase pairs).toList, Text.lower entry.1 = entry.1 := by
  intro entry mem
  obtain ⟨written, -, -, -, rfl⟩ := exists_of_mem_readPairs mem
  exact Text.lower_lower written.1

/-- A text reads as the normal form of its name, with the parameters as they were read. -/
theorem ofWire_eq (valueCase : ValueCase) (message : String) : ofWire valueCase message =
    ⟨normalName (String.ofList (message.toList.takeWhile (· ≠ '?'))),
      readPairs valueCase (Text.Form.decode
        (String.ofList ((message.toList.dropWhile (· ≠ '?')).drop 1)))⟩ :=
  ofPairs_toList lower_of_mem_readPairs _

/-- The name of a command that was read is the normal form of what comes before the first question
mark. -/
theorem name_ofWire (valueCase : ValueCase) (message : String) : (ofWire valueCase message).name =
    normalName (String.ofList (message.toList.takeWhile (· ≠ '?'))) :=
  name_ofPairs _ _

/-- A command that was read is in normal form. -/
theorem isNormal_ofWire (valueCase : ValueCase) (message : String) :
    (ofWire valueCase message).IsNormal :=
  isNormal_ofPairs _ _

/-- A command in normal form is written with its name as it is. -/
theorem IsNormal.toWire_eq {c : Command} (h : c.IsNormal) :
    c.toWire = if c.params.isEmpty then c.name
      else c.name ++ "?" ++ Text.Form.encode c.params.toList := by
  rw [toWire, encode, h.name_eq]

private theorem takeWhile_name {name : List Char} (h : '?' ∉ name) (query : List Char) :
    (name ++ '?' :: query).takeWhile (· ≠ '?') = name ∧
      ((name ++ '?' :: query).dropWhile (· ≠ '?')).drop 1 = query := by
  have before : ∀ c ∈ name, decide (c ≠ '?') = true := fun c hc =>
    decide_eq_true fun e => h (e ▸ hc)
  rw [List.takeWhile_append_of_pos before, List.dropWhile_append_of_pos before]
  simp

private theorem takeWhile_bare {name : List Char} (h : '?' ∉ name) :
    name.takeWhile (· ≠ '?') = name ∧ (name.dropWhile (· ≠ '?')).drop 1 = [] := by
  have before : ∀ c ∈ name, decide (c ≠ '?') = true := fun c hc =>
    decide_eq_true fun e => h (e ▸ hc)
  have take : (name ++ []).takeWhile (· ≠ '?') = name ++ [].takeWhile (· ≠ '?') :=
    List.takeWhile_append_of_pos before
  have drop : (name ++ []).dropWhile (· ≠ '?') = [].dropWhile (· ≠ '?') :=
    List.dropWhile_append_of_pos before
  rw [List.append_nil] at take drop
  rw [take, drop]
  exact ⟨List.append_nil name, rfl⟩

/-- Where a name holds no question mark, its normal form holds none. -/
theorem mark_notMem_normalName {name : String} (h : '?' ∉ name.toList) :
    '?' ∉ (normalName name).toList := by
  rw [normalName, Text.lower, Text.trim, String.toList_ofList, String.toList_ofList]
  intro mark
  have kept := Text.mem_of_mem_lowerFrom mark fun lowered => lowered.ne_mark rfl
  exact h (Text.mem_of_mem_trimList kept)

/-- The normal form of a name holds a line-feed if one is inside the name. -/
theorem lineFeed_mem_normalName_iff {name : String} :
    '\n' ∈ (normalName name).toList ↔ '\n' ∈ (Text.trim name).toList := by
  have kept : '\n'.toNat ≠ 0x3A3 ∧ Text.lowerChar '\n' = ['\n'] := ⟨by decide, rfl⟩
  have blank : ¬ Text.IsLowered '\n' := fun lowered => absurd lowered.not_blank (by decide)
  rw [normalName, Text.lower, String.toList_ofList, Text.lowerList]
  exact ⟨fun mem => Text.mem_of_mem_lowerFrom mem blank, fun mem =>
    Text.mem_lowerFrom_of_kept mem kept⟩

/-- What a name and parameters are written as holds a line-feed if one is inside the name. -/
theorem lineFeed_mem_encode_iff {name : String} {params : Params} :
    '\n' ∈ (encode name params).toList ↔ '\n' ∈ (Text.trim name).toList := by
  rw [← lineFeed_mem_normalName_iff, encode]
  split
  · exact Iff.rfl
  · simp [String.toList_append, Text.Form.lineFeed_notMem_encode]

/-- What a name and parameters are written as reads as the normal form of the name and, pair by
pair, the parameters. -/
theorem ofWire_encode (valueCase : ValueCase) {name : String} (mark : '?' ∉ name.toList)
    (params : Params) : ofWire valueCase (encode name params) =
      ⟨normalName name, readPairs valueCase params.toList⟩ := by
  have clear := mark_notMem_normalName mark
  rw [encode]
  split
  · next bare =>
    obtain ⟨take, drop⟩ := takeWhile_bare clear
    have none : params.toList = [] := List.isEmpty_iff.mp bare
    simp only [ofWire_eq, take, drop, String.ofList_toList, normalName_normalName, none]
    rfl
  · have split : (normalName name ++ "?" ++ Text.Form.encode params.toList).toList =
        (normalName name).toList ++ '?' :: (Text.Form.encode params.toList).toList := by
      simp [String.toList_append]
    obtain ⟨take, drop⟩ := takeWhile_name clear (Text.Form.encode params.toList).toList
    simp only [ofWire_eq, split, take, drop, String.ofList_toList, normalName_normalName,
      Text.Form.decode_encode]

/-- What a command is written as reads as this command, when its values are in the letter case
asked for. -/
theorem ofWire_toWire {valueCase : ValueCase} {c : Command} (h : c.IsNormal)
    (mark : '?' ∉ c.name.toList)
    (full : ∀ pair ∈ c.params.toList, pair.1 ≠ "" ∧ pair.2 ≠ "")
    (cased : ∀ pair ∈ c.params.toList, valueCase.apply pair.2 = pair.2) :
    ofWire valueCase c.toWire = c := by
  have params : readPairs valueCase c.params.toList = c.params := by
    refine KeyMap.ext_get? fun key => ?_
    rw [get?_readPairs_toList valueCase h.keys_eq]
    cases held : c.params.get? key with
    | none => simp
    | some value =>
      have mem := KeyMap.mem_toList_iff.mpr held
      obtain ⟨named, valued⟩ : key ≠ "" ∧ value ≠ "" := full _ mem
      have same : valueCase.apply value = value := cased _ mem
      simp [named, valued, same]
  rw [toWire, ofWire_encode valueCase mark, h.name_eq, params]

end Command

end Backbox
