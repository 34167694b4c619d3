import Mathlib.Data.List.MinMax
import Backbox.Proofs.KeyMap
import Backbox.Template

/-!
# Templates whose references stand apart

Substitution replaces one name after the other in a text that keeps changing. Where the references
of a template are kept apart by characters that no name has, and neither names nor values hold a
percent sign, this is the same as reading the template once: every reference to a player variable
gives its value, and every other percent sign the value of the longest field that the text behind it
begins with. What an earlier name has put in is never taken for a reference.
-/

namespace Backbox.Template

/-- A reference in a template. -/
inductive Reference where
  /-- To a player variable, by a name between percent signs. -/
  | player (name : String)
  /-- To a field, by a percent sign before its name. -/
  | field
  deriving DecidableEq

/-- A reference as it is written. The name of a field belongs to the text behind it. -/
def Reference.text : Reference → List Char
  | player name => '%' :: name.toList ++ ['%']
  | field => ['%']

/-- A reference and the text behind it, up to the next reference. -/
abbrev Part := Reference × List Char

/-- The template that begins with a text and goes on with parts. -/
def written (lead : List Char) (parts : List Part) : String :=
  String.ofList (lead ++ parts.flatMap fun part => part.1.text ++ part.2)

/-- The field of the longest name that a text begins with. -/
def longestField? (fields : Params) (text : List Char) : Option (String × String) :=
  (fields.toList.filter (·.1.toList.isPrefixOf text)).argmax (·.1.toList.length)

/-- What a part means, whatever the other parts are. -/
def Part.meaning (fields player : Params) : Part → List Char
  | (.player name, text) =>
    match player.get? name with
    | some value => value.toList ++ text
    | none => (Reference.player name).text ++ text
  | (.field, text) =>
    match longestField? fields text with
    | some (name, value) => value.toList ++ text.drop name.toList.length
    | none => '%' :: text

/-- Between any two references stands a character that none of the names has. -/
def Apart (names : List String) (parts : List Part) : Prop :=
  ∀ part ∈ parts.dropLast, ∃ c ∈ part.2, ∀ name ∈ names, c ∉ name.toList

/-- A template whose references can be told apart, for these fields and player variables. -/
structure Separated (fields player : Params) (lead : List Char) (parts : List Part) : Prop where
  names : ∀ name ∈ player.keys ++ fields.keys, '%' ∉ name.toList
  values : ∀ entry ∈ player.toList ++ fields.toList, '%' ∉ entry.2.toList
  lead : '%' ∉ lead
  texts : ∀ part ∈ parts, '%' ∉ part.2
  known : ∀ part ∈ parts, ∀ name, part.1 = .player name → name ∈ player.keys
  apart : Apart (player.keys ++ fields.keys) parts

/-! ### Replacing a pattern that begins with a percent sign -/

variable {pattern value text rest : List Char}

private theorem replaceFrom_eq (pattern value : List Char) (skip : Nat) (text : List Char) :
    replaceFrom pattern value skip text = replaceAll pattern value (text.drop skip) := by
  induction text generalizing skip with
  | nil => rw [List.drop_nil, replaceAll, replaceFrom, replaceFrom]
  | cons c rest ih =>
    cases skip with
    | zero => rfl
    | succ skip =>
      rw [replaceFrom, if_pos (Nat.succ_pos skip), Nat.add_sub_cancel, ih, List.drop_succ_cons]

/-- An occurrence is replaced. -/
theorem replaceAll_of_begins (c : Char) (pattern value rest : List Char) :
    replaceAll (c :: pattern) value (c :: (pattern ++ rest)) =
      value ++ replaceAll (c :: pattern) value rest := by
  have occurs : (c :: pattern).isPrefixOf (c :: (pattern ++ rest)) = true :=
    List.isPrefixOf_iff_prefix.mpr (List.prefix_append _ _)
  rw [replaceAll, replaceFrom, if_neg (Nat.lt_irrefl 0), if_pos occurs,
    replaceFrom_eq, List.length_cons, Nat.add_sub_cancel, List.drop_left]

/-- Where no occurrence begins, a character stays. -/
theorem replaceAll_of_not_begins {c : Char} (other : ¬ pattern <+: c :: rest) :
    replaceAll pattern value (c :: rest) = c :: replaceAll pattern value rest := by
  rw [replaceAll, replaceFrom, if_neg (Nat.lt_irrefl 0),
    if_neg fun occurs => other (List.isPrefixOf_iff_prefix.mp occurs)]
  rfl

/-- A text without the first character of the pattern stays. -/
theorem replaceAll_append {c : Char} (clear : c ∉ text) :
    replaceAll (c :: pattern) value (text ++ rest) =
      text ++ replaceAll (c :: pattern) value rest := by
  induction text with
  | nil => rfl
  | cons first text ih =>
    obtain ⟨differ, clear⟩ := not_or.mp (List.mem_cons.not.mp clear)
    rw [List.cons_append, replaceAll_of_not_begins, ih clear, List.cons_append]
    exact fun occurs => differ (List.cons_prefix_cons.mp occurs).1

/-- A percent sign that does not begin an occurrence stays, with the text behind it. -/
theorem replaceAll_marked (other : ¬ pattern <+: text ++ rest) (clear : '%' ∉ text) :
    replaceAll ('%' :: pattern) value ('%' :: (text ++ rest)) =
      '%' :: (text ++ replaceAll ('%' :: pattern) value rest) := by
  rw [replaceAll_of_not_begins, replaceAll_append clear]
  exact fun occurs => other (List.cons_prefix_cons.mp occurs).2

/-- What a text begins with does not reach beyond a character that it does not have. -/
theorem prefix_append_iff (ends : rest = [] ∨ ∃ c ∈ text, c ∉ pattern) :
    pattern <+: text ++ rest ↔ pattern <+: text := by
  refine ⟨fun begins => ?_, fun begins => begins.trans (List.prefix_append _ _)⟩
  rcases ends with rfl | ⟨c, here, differs⟩
  · rwa [List.append_nil] at begins
  · have whole := List.prefix_append text rest
    rcases List.prefix_or_prefix_of_prefix begins whole with inside | beyond
    · exact inside
    · exact absurd (beyond.subset here) differs

/-- A text is known by the first percent sign behind it. -/
theorem eq_of_begins_marked {name other : List Char} (clear : '%' ∉ name) (clear' : '%' ∉ other)
    (begins : name ++ ['%'] <+: other ++ '%' :: rest) : name = other := by
  induction name generalizing other with
  | nil =>
    cases other with
    | nil => rfl
    | cons c other =>
      have mark := (List.cons_prefix_cons.mp begins).1
      exact absurd (mark ▸ List.mem_cons_self) clear'
  | cons c name ih =>
    cases other with
    | nil =>
      have mark := (List.cons_prefix_cons.mp begins).1
      exact absurd (mark ▸ List.mem_cons_self) clear
    | cons d other =>
      obtain ⟨rfl, inside⟩ := List.cons_prefix_cons.mp begins
      rw [List.mem_cons, not_or] at clear clear'
      rw [ih clear.2 clear'.2 inside]

/-! ### One name after the other -/

/-- What became of a part when some player variables were put in. -/
def Part.withPlayers (done : List (String × String)) : Part → List Char
  | (.player name, text) =>
    match done.find? (·.1 = name) with
    | some entry => entry.2.toList ++ text
    | none => (Reference.player name).text ++ text
  | (.field, text) => '%' :: text

/-- What became of a part when all player variables and some fields were put in. -/
def Part.withFields (player : Params) (done : List (String × String)) : Part → List Char
  | (.player name, text) =>
    match player.get? name with
    | some value => value.toList ++ text
    | none => (Reference.player name).text ++ text
  | (.field, text) =>
    match done.find? (·.1.toList.isPrefixOf text) with
    | some entry => entry.2.toList ++ text.drop entry.1.toList.length
    | none => '%' :: text

variable {fields player : Params} {lead : List Char} {part : Part} {parts : List Part}
  {names : List String} {entry : String × String} {done : List (String × String)}

/-- The first of the parts ends the template, or a character that no name has stands before the
next reference. -/
theorem Apart.first (apart : Apart names (part :: parts)) (f : Part → List Char) :
    parts.flatMap f = [] ∨ ∃ c ∈ part.2, ∀ name ∈ names, c ∉ name.toList := by
  cases parts with
  | nil => exact .inl rfl
  | cons next parts =>
    rw [Apart, List.dropLast_cons_of_ne_nil (List.cons_ne_nil _ _)] at apart
    exact .inr (apart part List.mem_cons_self)

/-- The other parts stand apart too. -/
theorem Apart.of_cons (apart : Apart names (part :: parts)) : Apart names parts := by
  cases parts with
  | nil => exact fun _ mem => absurd mem List.not_mem_nil
  | cons next parts =>
    rw [Apart, List.dropLast_cons_of_ne_nil (List.cons_ne_nil _ _)] at apart
    exact fun part mem => apart part (List.mem_cons_of_mem _ mem)

/-- Putting in one more player variable changes the references to it, and nothing else. -/
theorem putPlayer_withPlayers (apart : Apart names parts) (texts : ∀ part ∈ parts, '%' ∉ part.2)
    (known : ∀ part ∈ parts, ∀ name, part.1 = .player name → '%' ∉ name.toList)
    (named : entry.1 ∈ names) (clearEntry : '%' ∉ entry.1.toList)
    (values : ∀ e ∈ done, '%' ∉ e.2.toList) :
    putPlayer (parts.flatMap (Part.withPlayers done)) entry =
      parts.flatMap (Part.withPlayers (done ++ [entry])) := by
  obtain ⟨name, value⟩ := entry
  induction parts with
  | nil => rfl
  | cons part parts ih =>
    obtain ⟨reference, text⟩ := part
    have clear : '%' ∉ text := texts _ List.mem_cons_self
    have later := ih apart.of_cons (fun p mem => texts p (List.mem_cons_of_mem _ mem))
      fun p mem => known p (List.mem_cons_of_mem _ mem)
    -- no name stands between a percent sign before a text and the next one
    have unnamed : ¬ name.toList ++ ['%'] <+: text ++ parts.flatMap (Part.withPlayers done) := by
      rw [prefix_append_iff]
      · exact fun begins => clear (begins.subset (by simp))
      · refine (apart.first _).imp_right fun ⟨c, here, differs⟩ => ⟨c, here, ?_⟩
        rw [List.mem_append, List.mem_singleton, not_or]
        exact ⟨differs name named, fun mark => clear (mark ▸ here)⟩
    simp only [putPlayer, List.cons_append] at later ⊢
    rw [List.flatMap_cons, List.flatMap_cons, ← later]
    cases reference with
    | field => exact replaceAll_marked unnamed clear
    | player other =>
      have clearName : '%' ∉ other.toList := known _ List.mem_cons_self other rfl
      simp only [Part.withPlayers, List.find?_append]
      cases found : done.find? (·.1 = other) with
      | some e =>
        have clearValue : '%' ∉ e.2.toList := values e (List.mem_of_find?_eq_some found)
        simp only [Option.some_or, List.append_assoc]
        rw [replaceAll_append clearValue, replaceAll_append clear]
      | none =>
        by_cases own : name = other
        · subst own
          simp only [Reference.text, Option.none_or, List.find?_cons, decide_true,
            List.append_assoc, List.cons_append, List.nil_append]
          rw [List.append_cons name.toList '%' (text ++ _), replaceAll_of_begins,
            replaceAll_append clear]
        · have differs : ¬ name.toList ++ ['%'] <+: other.toList ++ '%' ::
              (text ++ parts.flatMap (Part.withPlayers done)) := fun begins =>
            own (String.toList_injective (eq_of_begins_marked clearEntry clearName begins))
          simp only [Reference.text, Option.none_or, List.find?_cons, own, decide_false,
            List.find?_nil, List.append_assoc, List.cons_append, List.nil_append]
          rw [replaceAll_marked differs clearName, replaceAll_marked unnamed clear]

/-- Putting in one more field changes the references to fields that the text behind them begins
with, where no field was put in before, and nothing else. -/
theorem putField_withFields (apart : Apart names parts) (texts : ∀ part ∈ parts, '%' ∉ part.2)
    (known : ∀ part ∈ parts, ∀ name, part.1 = .player name → name ∈ player.keys)
    (named : entry.1 ∈ names) (values : ∀ e ∈ player.toList ++ done, '%' ∉ e.2.toList) :
    putField (parts.flatMap (Part.withFields player done)) entry =
      parts.flatMap (Part.withFields player (done ++ [entry])) := by
  obtain ⟨name, value⟩ := entry
  induction parts with
  | nil => rfl
  | cons part parts ih =>
    obtain ⟨reference, text⟩ := part
    have clear : '%' ∉ text := texts _ List.mem_cons_self
    have later := ih apart.of_cons (fun p mem => texts p (List.mem_cons_of_mem _ mem))
      fun p mem => known p (List.mem_cons_of_mem _ mem)
    have begins_iff : name.toList <+: text ++ parts.flatMap (Part.withFields player done) ↔
        name.toList <+: text :=
      prefix_append_iff ((apart.first _).imp_right fun ⟨c, here, differs⟩ =>
        ⟨c, here, differs name named⟩)
    simp only [putField] at later ⊢
    rw [List.flatMap_cons, List.flatMap_cons, ← later]
    cases reference with
    | player other =>
      obtain ⟨value, held⟩ := KeyMap.mem_keys_iff.mp (known _ List.mem_cons_self other rfl)
      have clearValue : '%' ∉ value.toList :=
        values _ (List.mem_append_left _ (KeyMap.mem_toList_iff.mpr held))
      simp only [Part.withFields, held, List.append_assoc]
      rw [replaceAll_append clearValue, replaceAll_append clear]
    | field =>
      simp only [Part.withFields, List.find?_append]
      cases found : done.find? (·.1.toList.isPrefixOf text) with
      | some e =>
        have clearValue : '%' ∉ e.2.toList :=
          values e (List.mem_append_right _ (List.mem_of_find?_eq_some found))
        have clearDrop : '%' ∉ text.drop e.1.toList.length := fun mem =>
          clear (List.mem_of_mem_drop mem)
        simp only [Option.some_or, List.append_assoc]
        rw [replaceAll_append clearValue, replaceAll_append clearDrop]
      | none =>
        by_cases own : name.toList <+: text
        · obtain ⟨behind, rfl⟩ := own
          have clearBehind : '%' ∉ behind := fun mem => clear (List.mem_append_right _ mem)
          have its : name.toList.isPrefixOf (name.toList ++ behind) = true :=
            List.isPrefixOf_iff_prefix.mpr (List.prefix_append _ _)
          simp only [Option.none_or, List.find?_cons, its, List.drop_left, List.append_assoc,
            List.cons_append]
          rw [replaceAll_of_begins, replaceAll_append clearBehind]
        · have other : name.toList.isPrefixOf text = false :=
            Bool.eq_false_iff.mpr fun its => own (List.isPrefixOf_iff_prefix.mp its)
          simp only [Option.none_or, List.find?_cons, other, List.find?_nil, List.cons_append]
          exact replaceAll_marked (fun begins => own (begins_iff.mp begins)) clear

/-! ### All names -/

-- What one entry after the other is put into holds, at every stage, the entries put in so far.
private theorem foldl_put (put : List Char → String × String → List Char)
    (stage : List (String × String) → List Char) (entries : List (String × String))
    (step : ∀ done entry rest, entries = done ++ entry :: rest →
      put (stage done) entry = stage (done ++ [entry])) :
    entries.foldl put (stage []) = stage entries := by
  suffices later : ∀ rest done, entries = done ++ rest →
      rest.foldl put (stage done) = stage entries from later entries [] rfl
  intro rest
  induction rest with
  | nil =>
    rintro done rfl
    rw [List.append_nil, List.foldl_nil]
  | cons entry rest ih =>
    intro done split
    rw [List.foldl_cons, step done entry rest split]
    exact ih _ (split.trans (List.append_cons ..))

/-- A name that begins another one is this name, if it is no shorter. -/
theorem eq_of_begins {a b : String} (begins : a.toList <+: b.toList)
    (long : b.utf8ByteSize ≤ a.utf8ByteSize) : a = b := by
  obtain ⟨behind, whole⟩ := begins
  have split : a ++ String.ofList behind = b := by
    rw [← String.toList_inj, String.toList_append, String.toList_ofList, whole]
  have none : (String.ofList behind).utf8ByteSize = 0 := by
    have sizes := congrArg String.utf8ByteSize split
    rw [String.utf8ByteSize_append] at sizes
    omega
  rw [← split, String.utf8ByteSize_eq_zero_iff.mp none, String.append_empty]

/-- The entries are the same, in another order. -/
theorem mem_longestFirst {values : Params} : entry ∈ longestFirst values ↔ entry ∈ values.toList :=
  (List.mergeSort_perm _ _).mem_iff

/-- No name comes before a longer one. -/
theorem pairwise_longestFirst (values : Params) :
    (longestFirst values).Pairwise fun a b => b.1.utf8ByteSize ≤ a.1.utf8ByteSize := by
  refine (List.pairwise_mergeSort (fun a b c first second => ?_) (fun a b => ?_) _).imp
    of_decide_eq_true
  · exact decide_eq_true ((of_decide_eq_true second).trans (of_decide_eq_true first))
  · exact (Bool.or_eq_true ..).mpr ((Nat.le_total ..).imp decide_eq_true decide_eq_true)

/-- The longest field that a text begins with is begun by all the others. -/
theorem longestField?_eq_some_iff : longestField? fields text = some entry ↔
    entry ∈ fields.toList ∧ entry.1.toList <+: text ∧
      ∀ other ∈ fields.toList, other.1.toList <+: text → other.1.toList <+: entry.1.toList := by
  have mem (e : String × String) : e ∈ fields.toList.filter (·.1.toList.isPrefixOf text) ↔
      e ∈ fields.toList ∧ e.1.toList <+: text := by
    rw [List.mem_filter, List.isPrefixOf_iff_prefix]
  rw [longestField?, ← Option.mem_def, List.mem_argmax_iff]
  constructor
  · rintro ⟨its, longest, -⟩
    obtain ⟨its, begins⟩ := (mem entry).mp its
    refine ⟨its, begins, fun other field begins' => ?_⟩
    exact List.prefix_of_prefix_length_le begins' begins
      (longest other ((mem other).mpr ⟨field, begins'⟩))
  · rintro ⟨its, begins, longest⟩
    refine ⟨(mem entry).mpr ⟨its, begins⟩, fun other its' => ?_, fun other its' long => ?_⟩
    · obtain ⟨field, begins'⟩ := (mem other).mp its'
      exact (longest other field begins').length_le
    · obtain ⟨field, begins'⟩ := (mem other).mp its'
      have inside := longest other field begins'
      have name : other.1 = entry.1 :=
        String.toList_injective (inside.eq_of_length (inside.length_le.antisymm long))
      have value := (KeyMap.mem_toList_iff.mp field).symm.trans
        (name ▸ KeyMap.mem_toList_iff.mp its)
      rw [Prod.ext name (Option.some.inj value)]

/-- Of the names that a text begins with, the longest comes first. -/
theorem find?_longestFirst (fields : Params) (text : List Char) :
    (longestFirst fields).find? (·.1.toList.isPrefixOf text) = longestField? fields text := by
  cases found : (longestFirst fields).find? (·.1.toList.isPrefixOf text) with
  | none =>
    have none : fields.toList.filter (·.1.toList.isPrefixOf text) = [] :=
      List.filter_eq_nil_iff.mpr fun entry mem =>
        List.find?_eq_none.mp found entry (mem_longestFirst.mpr mem)
    rw [longestField?, none]
    rfl
  | some entry =>
    obtain ⟨its, before, behind, split, others⟩ := List.find?_eq_some_iff_append.mp found
    have begins := List.isPrefixOf_iff_prefix.mp its
    have sorted := (List.pairwise_append.mp (split ▸ pairwise_longestFirst fields)).2.1
    refine (longestField?_eq_some_iff.mpr ⟨?_, begins, fun other field begins' => ?_⟩).symm
    · exact mem_longestFirst.mp (List.mem_of_find?_eq_some found)
    · have mem := split ▸ mem_longestFirst.mpr field
      rcases List.mem_append.mp mem with earlier | later
      · have shown := others other earlier
        rw [List.isPrefixOf_iff_prefix.mpr begins'] at shown
        cases shown
      · rcases List.mem_cons.mp later with rfl | later
        · exact List.prefix_refl _
        · have long := (List.pairwise_cons.mp sorted).1 other later
          rcases List.prefix_or_prefix_of_prefix begins' begins with inside | beyond
          · exact inside
          · exact eq_of_begins beyond long ▸ List.prefix_refl _

/-- A name comes with its value. -/
theorem find?_longestFirst_name (values : Params) (name : String) :
    ((longestFirst values).find? (·.1 = name)).map (·.2) = values.get? name := by
  cases found : (longestFirst values).find? (·.1 = name) with
  | none =>
    refine (Option.eq_none_iff_forall_ne_some.mpr fun value held => ?_).symm
    have mem := mem_longestFirst.mpr (KeyMap.mem_toList_iff.mpr held)
    exact List.find?_eq_none.mp found _ mem (decide_eq_true rfl)
  | some entry =>
    obtain rfl : entry.1 = name := of_decide_eq_true (List.find?_some found :)
    have mem := mem_longestFirst.mp (List.mem_of_find?_eq_some found)
    exact (KeyMap.mem_toList_iff.mp mem).symm

/-- When every player variable was put in, none is left. -/
theorem withPlayers_longestFirst (player : Params) (part : Part) :
    part.withPlayers (longestFirst player) = part.withFields player [] := by
  obtain ⟨reference, text⟩ := part
  cases reference with
  | field => rfl
  | player name =>
    rw [Part.withPlayers, Part.withFields, ← find?_longestFirst_name]
    cases (longestFirst player).find? (·.1 = name) <;> rfl

/-- When every field was put in, each part has become what it means. -/
theorem withFields_longestFirst (fields player : Params) (part : Part) :
    part.withFields player (longestFirst fields) = part.meaning fields player := by
  obtain ⟨reference, text⟩ := part
  cases reference with
  | player name => rfl
  | field =>
    rw [Part.withFields, Part.meaning, find?_longestFirst]
    cases longestField? fields text <;> rfl

/-- Putting in the player variables leaves the fields to be put in. -/
theorem foldl_putPlayer (separated : Separated fields player lead parts) :
    (longestFirst player).foldl putPlayer (written lead parts).toList =
      lead ++ parts.flatMap (Part.withFields player []) := by
  have start : (written lead parts).toList = lead ++ parts.flatMap (Part.withPlayers []) := by
    rw [written, String.toList_ofList]
    refine congrArg (lead ++ ·) (List.flatMap_congr fun part _ => ?_)
    obtain ⟨reference, text⟩ := part
    cases reference <;> rfl
  rw [start]
  refine (foldl_put putPlayer (fun done => lead ++ parts.flatMap (Part.withPlayers done))
    (longestFirst player) fun done entry rest split => ?_).trans ?_
  · have mem (e : String × String) (its : e ∈ done ++ [entry]) : e ∈ player.toList := by
      rw [List.append_cons] at split
      exact mem_longestFirst.mp (split ▸ List.mem_append_left _ its)
    have own := mem entry (List.mem_append_right _ List.mem_cons_self)
    have named : entry.1 ∈ player.keys ++ fields.keys :=
      List.mem_append_left _ (List.mem_map_of_mem own)
    have known := fun part its name same => separated.names name
      (List.mem_append_left _ (separated.known part its name same))
    have values := fun e its => separated.values e
      (List.mem_append_left _ (mem e (List.mem_append_left _ its)))
    rw [← putPlayer_withPlayers separated.apart separated.texts known named
      (separated.names _ named) values]
    exact replaceAll_append separated.lead
  · exact congrArg (lead ++ ·)
      (List.flatMap_congr fun part _ => withPlayers_longestFirst player part)

/-- Putting in the fields leaves what each part means. -/
theorem foldl_putField (separated : Separated fields player lead parts) :
    (longestFirst fields).foldl putField (lead ++ parts.flatMap (Part.withFields player [])) =
      lead ++ parts.flatMap (Part.meaning fields player) := by
  refine (foldl_put putField (fun done => lead ++ parts.flatMap (Part.withFields player done))
    (longestFirst fields) fun done entry rest split => ?_).trans ?_
  · have mem (e : String × String) (its : e ∈ done ++ [entry]) : e ∈ fields.toList := by
      rw [List.append_cons] at split
      exact mem_longestFirst.mp (split ▸ List.mem_append_left _ its)
    have own := mem entry (List.mem_append_right _ List.mem_cons_self)
    have named : entry.1 ∈ player.keys ++ fields.keys :=
      List.mem_append_right _ (List.mem_map_of_mem own)
    have values : ∀ e ∈ player.toList ++ done, '%' ∉ e.2.toList := by
      intro e its
      refine separated.values e (List.mem_append.mpr ((List.mem_append.mp its).imp_right ?_))
      exact fun its => mem e (List.mem_append_left _ its)
    rw [← putField_withFields separated.apart separated.texts separated.known named values]
    exact replaceAll_append separated.lead
  · exact congrArg (lead ++ ·)
      (List.flatMap_congr fun part _ => withFields_longestFirst fields player part)

/-- Where the references of a template can be told apart, one name is put in after the other, but
each reference gives what it means in the template: a player variable its value, and a percent sign
the value of the longest field that the text behind it begins with, or itself if there is none. So a
name never takes the front of a longer one. -/
theorem substitute_written (separated : Separated fields player lead parts) :
    substitute (written lead parts) fields player =
      String.ofList (lead ++ parts.flatMap (Part.meaning fields player)) ∧
    ∀ text name value, longestField? fields text = some (name, value) →
      ∀ other ∈ fields.keys, other.toList <+: text → other.toList <+: name.toList := by
  refine ⟨?_, fun text name value longest other mem begins => ?_⟩
  · rw [substitute, foldl_putPlayer separated, foldl_putField separated]
  · obtain ⟨entry, its, rfl⟩ := List.mem_map.mp mem
    exact (longestField?_eq_some_iff.mp longest).2.2 entry its begins

/-- The number of a ball does not take the front of the number of balls, and what is no name stays
as it is written. -/
theorem substitute_written_ball :
    let fields : Params := .ofList [("ball", "1"), ("ball_count", "3"), ("player", "2")]
    let player : Params := .ofList [("ball", "x"), ("name", "ada")]
    let parts : List Part := [(.field, "ball of ".toList), (.field, "ball_count for ".toList),
      (.player "name", ", ".toList), (.field, "tilt".toList)]
    Separated fields player [] parts ∧
      written [] parts = "%ball of %ball_count for %name%, %tilt" ∧
      substitute (written [] parts) fields player = "1 of 3 for ada, %tilt" := by
  intro fields player parts
  have blank : ∀ part ∈ parts.dropLast, ' ' ∈ part.2 := by decide +kernel
  have unnamed : ∀ name ∈ player.keys ++ fields.keys, ' ' ∉ name.toList := by decide +kernel
  have separated : Separated fields player [] parts :=
    ⟨by decide +kernel, by decide +kernel, by decide +kernel, by decide +kernel,
      by simp [parts, player]; decide +kernel, fun part mem => ⟨' ', blank part mem, unnamed⟩⟩
  exact ⟨separated, by decide +kernel, (substitute_written separated).1.trans (by decide +kernel)⟩

end Backbox.Template
