import Backbox.Proofs.Template

/-!
# What is put in is read again

A template that refers to one player variable becomes a text that holds the value of this variable.
The names that are put in behind it, player variables and then fields, do not tell the value from
the template: what looks like a reference to one of them is replaced, in the value as anywhere else.
So the value stays as it is, whatever the other values are, exactly when the text that holds it
refers to none of these names.
-/

namespace Backbox.Template

variable {fields player values : Params} {name value : String} {pre post text pattern : List Char}

/-! ### The order in which names are put in -/

/-- A name is put in before another one: it is longer, in UTF-8 bytes, or as long and smaller. -/
def Precedes (a b : String) : Prop :=
  b.utf8ByteSize < a.utf8ByteSize ∨ b.utf8ByteSize = a.utf8ByteSize ∧ a < b

instance (a b : String) : Decidable (Precedes a b) := inferInstanceAs (Decidable (_ ∨ _))

/-- No name precedes itself. -/
theorem Precedes.irrefl (a : String) : ¬ Precedes a a := by
  rintro (shorter | ⟨-, smaller⟩)
  · exact Nat.lt_irrefl _ shorter
  · exact String.lt_irrefl _ smaller

/-- Of two names at most one precedes the other. -/
theorem Precedes.asymm {a b : String} (first : Precedes a b) : ¬ Precedes b a := by
  rcases first with shorter | ⟨same, smaller⟩
  · rintro (longer | ⟨same, -⟩) <;> omega
  · rintro (longer | ⟨-, greater⟩)
    · omega
    · exact String.lt_irrefl _ (String.lt_trans smaller greater)

-- Names of one length stay in their order.
private theorem filter_longestFirst (values : Params) (size : Nat) :
    (longestFirst values).filter (·.1.utf8ByteSize = size) =
      values.toList.filter (·.1.utf8ByteSize = size) := by
  have kept : (values.toList.filter (·.1.utf8ByteSize = size)).Sublist (longestFirst values) := by
    refine List.sublist_mergeSort (fun a b c first second => ?_) (fun a b => ?_) ?_
      List.filter_sublist
    · exact decide_eq_true ((of_decide_eq_true second).trans (of_decide_eq_true first))
    · exact (Bool.or_eq_true ..).mpr ((Nat.le_total ..).imp decide_eq_true decide_eq_true)
    · refine List.pairwise_of_forall_mem_list fun a ha b hb => decide_eq_true ?_
      have := of_decide_eq_true (List.mem_filter.mp ha).2
      have := of_decide_eq_true (List.mem_filter.mp hb).2
      omega
  have among := kept.filter (·.1.utf8ByteSize = size)
  rw [List.filter_filter, List.filter_congr fun _ _ => Bool.and_self _] at among
  refine (among.eq_of_length ?_).symm
  exact ((List.mergeSort_perm _ _).filter _).length_eq.symm

/-- Names are put in one after the other in this order. -/
theorem precedes_longestFirst (values : Params) :
    (longestFirst values).Pairwise fun a b => Precedes a.1 b.1 := by
  rw [List.pairwise_iff_forall_sublist]
  intro a b pair
  have long := List.pairwise_iff_forall_sublist.mp (pairwise_longestFirst values) pair
  rcases Nat.lt_or_eq_of_le long with shorter | same
  · exact .inl shorter
  · have kept := pair.filter (·.1.utf8ByteSize = a.1.utf8ByteSize)
    rw [filter_longestFirst] at kept
    simp only [List.filter_cons, same, decide_true, if_true, List.filter_nil] at kept
    exact .inr ⟨same, List.pairwise_iff_forall_sublist.mp values.ordered
      (kept.trans List.filter_sublist)⟩

/-- Names that stand in this order already are put in as they stand. -/
theorem longestFirst_of_pairwise
    (sorted : values.toList.Pairwise fun a b => b.1.utf8ByteSize ≤ a.1.utf8ByteSize) :
    longestFirst values = values.toList :=
  List.mergeSort_of_pairwise (sorted.imp decide_eq_true)

/-- The values whose names are put in behind one name. -/
def putAfter (values : Params) (name : String) : Params :=
  ⟨values.toList.filter fun entry => Precedes name entry.1, values.ordered.filter _⟩

/-- Behind a name, the others are put in as if it and those before it were not there. -/
theorem longestFirst_putAfter {before behind : List (String × String)}
    (split : longestFirst values = before ++ (name, value) :: behind) :
    longestFirst (putAfter values name) = behind := by
  have order := precedes_longestFirst values
  rw [split, List.pairwise_append, List.pairwise_cons] at order
  obtain ⟨-, ⟨first, sorted⟩, apart⟩ := order
  have irrefl : Std.Irrefl fun a b : String × String => Precedes a.1 b.1 :=
    ⟨fun a => Precedes.irrefl a.1⟩
  have antisymm : Std.Antisymm fun a b : String × String => Precedes a.1 b.1 :=
    ⟨fun a b one other => absurd other one.asymm⟩
  refine (precedes_longestFirst _).eq_of_mem_iff sorted fun entry => ?_
  have mem : entry ∈ (putAfter values name).toList ↔
      entry ∈ longestFirst values ∧ Precedes name entry.1 := by
    rw [mem_longestFirst, KeyMap.toList, putAfter, List.mem_filter, decide_eq_true_eq]
  rw [mem_longestFirst, mem, split]
  constructor
  · rintro ⟨mem, behind⟩
    rcases List.mem_append.mp mem with earlier | mem
    · exact absurd behind (apart entry earlier (name, value) List.mem_cons_self).asymm
    · rcases List.mem_cons.mp mem with rfl | later
      · exact absurd behind (Precedes.irrefl _)
      · exact later
  · exact fun later => ⟨List.mem_append_right _ (.tail _ later), first entry later⟩

/-! ### What is replaced -/

/-- What is replaced, one after the other: references to player variables and to fields, and the
values that they give way to. -/
def replacements (fields player : Params) : List (List Char × String) :=
  (longestFirst player).map (fun entry => ((Reference.player entry.1).text, entry.2)) ++
    (longestFirst fields).map fun entry => ('%' :: entry.1.toList, entry.2)

/-- Replaces one after the other. -/
def replaceEach (replacements : List (List Char × String)) (text : List Char) : List Char :=
  replacements.foldl (fun text r => replaceAll r.1 r.2.toList text) text

/-- Substitution replaces one reference after the other. -/
theorem substitute_eq (template : String) (fields player : Params) :
    substitute template fields player =
      String.ofList (replaceEach (replacements fields player) template.toList) := by
  rw [replaceEach, replacements, List.foldl_append, List.foldl_map, List.foldl_map]
  rfl

/-- What does not occur in a text is not replaced. -/
theorem replaceAll_of_absent (absent : ¬ pattern <:+: text) (value : List Char) :
    replaceAll pattern value text = text := by
  induction text with
  | nil => rfl
  | cons c rest ih =>
    rw [List.infix_cons_iff, not_or] at absent
    rw [replaceAll_of_not_begins absent.1, ih absent.2]

/-- Where nothing occurs that is replaced, a text stays. -/
theorem replaceEach_of_absent {replacements : List (List Char × String)}
    (absent : ∀ r ∈ replacements, ¬ r.1 <:+: text) : replaceEach replacements text = text := by
  induction replacements with
  | nil => rfl
  | cons r rest ih =>
    rw [replaceEach, List.foldl_cons, replaceAll_of_absent (absent r List.mem_cons_self)]
    exact ih fun r hr => absent r (.tail _ hr)

private theorem length_replaceFrom_nil_le (pattern : List Char) (skip : Nat) (text : List Char) :
    (replaceFrom pattern [] skip text).length ≤ text.length := by
  induction text generalizing skip with
  | nil => exact Nat.le_refl 0
  | cons c rest ih =>
    rw [replaceFrom, List.length_cons]
    split
    · exact Nat.le_succ_of_le (ih _)
    · split
      · exact Nat.le_succ_of_le (ih _)
      · exact Nat.succ_le_succ (ih _)

/-- What occurs in a text and is left out makes it shorter. -/
theorem length_replaceAll_nil_lt (full : pattern ≠ []) (occurs : pattern <:+: text) :
    (replaceAll pattern [] text).length < text.length := by
  induction text with
  | nil => exact absurd (List.infix_nil.mp occurs) full
  | cons c rest ih =>
    by_cases begins : pattern <+: c :: rest
    · rw [replaceAll, replaceFrom, if_neg (Nat.lt_irrefl 0),
        if_pos (List.isPrefixOf_iff_prefix.mpr begins), List.nil_append]
      exact Nat.lt_succ_of_le (length_replaceFrom_nil_le _ _ _)
    · rw [replaceAll_of_not_begins begins]
      exact Nat.succ_lt_succ (ih ((List.infix_cons_iff.mp occurs).resolve_left begins))

variable {rs : List (List Char × String)}

private theorem length_replaceEach_le (blank : ∀ r ∈ rs, r.2 = "") (text : List Char) :
    (replaceEach rs text).length ≤ text.length := by
  induction rs generalizing text with
  | nil => exact Nat.le_refl _
  | cons r rest ih =>
    rw [replaceEach, List.foldl_cons, blank r List.mem_cons_self]
    exact (ih (fun r hr => blank r (.tail _ hr)) _).trans (length_replaceFrom_nil_le _ _ _)

/-- Where something occurs that is left out, a text becomes shorter. -/
theorem length_replaceEach_lt (blank : ∀ r ∈ rs, r.2 = "") (full : ∀ r ∈ rs, r.1 ≠ [])
    (occurs : ∃ r ∈ rs, r.1 <:+: text) : (replaceEach rs text).length < text.length := by
  induction rs with
  | nil =>
    obtain ⟨r, mem, -⟩ := occurs
    cases mem
  | cons r rest ih =>
    have blankRest : ∀ r ∈ rest, r.2 = "" := fun r hr => blank r (.tail _ hr)
    rw [replaceEach, List.foldl_cons, blank r List.mem_cons_self]
    by_cases first : r.1 <:+: text
    · exact (length_replaceEach_le blankRest _).trans_lt
        (length_replaceAll_nil_lt (full r List.mem_cons_self) first)
    · rw [replaceAll_of_absent first]
      refine ih blankRest (fun r hr => full r (.tail _ hr)) ?_
      obtain ⟨other, mem, its⟩ := occurs
      rcases List.mem_cons.mp mem with rfl | mem
      · exact absurd its first
      · exact ⟨other, mem, its⟩

/-! ### References in a text -/

/-- A text refers to one of the names. -/
def Refers (fields player : Params) (text : String) : Prop :=
  (∃ name ∈ player.keys, (Reference.player name).text <:+: text.toList) ∨
    ∃ name ∈ fields.keys, '%' :: name.toList <:+: text.toList

/-- What a text refers to is told by the names alone. -/
theorem Refers.congr {fields' player' : Params} {template : String}
    (sameFields : fields'.keys = fields.keys) (samePlayer : player'.keys = player.keys) :
    Refers fields' player' template ↔ Refers fields player template := by
  rw [Refers, Refers, sameFields, samePlayer]

/-- A text refers to a name when a reference that is replaced occurs in it. -/
theorem refers_iff {template : String} : Refers fields player template ↔
    ∃ r ∈ replacements fields player, r.1 <:+: template.toList := by
  have named (values : Params) (reference : String → List Char) :
      (∃ name ∈ values.keys, reference name <:+: template.toList) ↔
        ∃ r ∈ (longestFirst values).map (fun entry => (reference entry.1, entry.2)),
          r.1 <:+: template.toList := by
    constructor
    · rintro ⟨name, key, occurs⟩
      obtain ⟨entry, mem, rfl⟩ := List.mem_map.mp key
      exact ⟨_, List.mem_map_of_mem (mem_longestFirst.mpr mem), occurs⟩
    · rintro ⟨r, mem, occurs⟩
      obtain ⟨entry, its, rfl⟩ := List.mem_map.mp mem
      exact ⟨entry.1, List.mem_map_of_mem (mem_longestFirst.mp its), occurs⟩
  simp only [Refers, replacements, List.mem_append, or_and_right, exists_or]
  exact or_congr (named player fun name => (Reference.player name).text)
    (named fields fun name => '%' :: name.toList)

/-- A text that refers to no name is its own substitution. -/
theorem substitute_of_not_refers {template : String} (clear : ¬ Refers fields player template) :
    substitute template fields player = template := by
  rw [substitute_eq, replaceEach_of_absent, String.ofList_toList]
  exact fun r mem occurs => clear (refers_iff.mpr ⟨r, mem, occurs⟩)

/-- A text that refers to a name changes when no name has a value to put in. -/
theorem substitute_ne_of_refers {template : String} (refers : Refers fields player template)
    (blank : ∀ entry ∈ player.toList ++ fields.toList, entry.2 = "") :
    substitute template fields player ≠ template := by
  have blanks : ∀ r ∈ replacements fields player, r.2 = "" ∧ r.1 ≠ [] := by
    intro r mem
    rcases List.mem_append.mp mem with mem | mem
    · obtain ⟨entry, its, rfl⟩ := List.mem_map.mp mem
      exact ⟨blank entry (List.mem_append_left _ (mem_longestFirst.mp its)), List.cons_ne_nil _ _⟩
    · obtain ⟨entry, its, rfl⟩ := List.mem_map.mp mem
      exact ⟨blank entry (List.mem_append_right _ (mem_longestFirst.mp its)), List.cons_ne_nil _ _⟩
  intro same
  have shorter := length_replaceEach_lt (fun r mem => (blanks r mem).1)
    (fun r mem => (blanks r mem).2) (refers_iff.mp refers)
  rw [substitute_eq] at same
  rw [← String.toList_inj, String.toList_ofList] at same
  rw [same] at shorter
  exact Nat.lt_irrefl _ shorter

/-! ### A template that refers to one player variable -/

-- What begins with a percent sign does not begin in a text without one.
private theorem infix_append_iff (clear : '%' ∉ text) {rest : List Char} :
    '%' :: pattern <:+: text ++ rest ↔ '%' :: pattern <:+: rest := by
  induction text with
  | nil => rfl
  | cons c text ih =>
    obtain ⟨differ, clear⟩ := not_or.mp (List.mem_cons.not.mp clear)
    rw [List.cons_append, List.infix_cons_iff, ih clear]
    exact or_iff_right fun begins => differ (List.cons_prefix_cons.mp begins).1

-- A name that the next percent sign ends is known by it.
private theorem eq_of_begins_last {name other : List Char} (clear : '%' ∉ name)
    (clearPost : '%' ∉ post) (begins : other ++ ['%'] <+: name ++ '%' :: post) : other = name := by
  rw [List.append_cons name] at begins
  rcases List.prefix_or_prefix_of_prefix begins (List.prefix_append _ post) with inside | beyond
  · rcases List.prefix_concat_iff.mp inside with same | shorter
    · exact List.append_cancel_right same
    · exact absurd (shorter.subset (by simp)) clear
  · rcases List.prefix_concat_iff.mp beyond with same | ⟨rest, rfl⟩
    · exact (List.append_cancel_right same).symm
    · rw [List.append_assoc _ rest, List.prefix_append_right_inj] at begins
      exact absurd (begins.subset (by simp)) clearPost

/-- The only player variable that is referred to is the one whose reference is there. -/
theorem eq_of_reference {other : String} (clearPre : '%' ∉ pre) (clearName : '%' ∉ name.toList)
    (clearPost : '%' ∉ post)
    (occurs : (Reference.player other).text <:+: pre ++ (Reference.player name).text ++ post) :
    other = name := by
  simp only [Reference.text, List.append_assoc, List.cons_append, List.nil_append] at occurs
  rw [infix_append_iff clearPre, List.infix_cons_iff, infix_append_iff clearName,
    List.infix_cons_iff] at occurs
  rcases occurs with begins | begins | occurs
  · exact String.toList_injective (eq_of_begins_last clearName clearPost
      (List.cons_prefix_cons.mp begins).2)
  · exact absurd ((List.cons_prefix_cons.mp begins).2.subset (by simp)) clearPost
  · exact absurd (occurs.subset List.mem_cons_self) clearPost

/-- The value takes the place of the only reference, and is read with the names that are put in
behind it. -/
theorem substitute_player (clearPre : '%' ∉ pre) (clearName : '%' ∉ name.toList)
    (clearPost : '%' ∉ post) (held : player.get? name = some value) (fields : Params) :
    substitute (String.ofList (pre ++ (Reference.player name).text ++ post)) fields player =
      substitute (String.ofList (pre ++ value.toList ++ post)) fields (putAfter player name) := by
  obtain ⟨before, behind, split⟩ :=
    List.append_of_mem (mem_longestFirst.mpr (KeyMap.mem_toList_iff.mpr held))
  have earlier : replaceEach (before.map fun entry => ((Reference.player entry.1).text, entry.2))
      (pre ++ (Reference.player name).text ++ post) =
        pre ++ (Reference.player name).text ++ post := by
    refine replaceEach_of_absent fun r mem occurs => ?_
    obtain ⟨entry, its, rfl⟩ := List.mem_map.mp mem
    have order := precedes_longestFirst player
    rw [split, List.pairwise_append] at order
    have first : Precedes entry.1 name := order.2.2 entry its (name, value) List.mem_cons_self
    rw [eq_of_reference clearPre clearName clearPost occurs] at first
    exact Precedes.irrefl _ first
  have put : replaceAll (Reference.player name).text value.toList
      (pre ++ (Reference.player name).text ++ post) = pre ++ value.toList ++ post := by
    rw [List.append_assoc, List.append_assoc, Reference.text, List.cons_append,
      replaceAll_append clearPre, List.cons_append, replaceAll_of_begins, replaceAll_of_absent]
    exact fun occurs => clearPost (occurs.subset List.mem_cons_self)
  rw [substitute_eq, substitute_eq, replacements, replacements, longestFirst_putAfter split, split,
    String.toList_ofList, String.toList_ofList, List.map_append, List.map_cons, List.append_assoc]
  unfold replaceEach at earlier ⊢
  rw [List.foldl_append, earlier, List.cons_append, List.foldl_cons, put]

/-- A text without a percent sign refers to no name. -/
theorem not_refers_of_clear {template : String} (clear : '%' ∉ template.toList) :
    ¬ Refers fields player template := by
  rintro (⟨name, -, occurs⟩ | ⟨name, -, occurs⟩) <;>
    exact clear (occurs.subset List.mem_cons_self)

/-- The same names with other values. -/
def revalued (values : Params) (f : String → String) : Params :=
  ⟨values.toList.map fun entry => (entry.1, f entry.1), List.pairwise_map.mpr values.ordered⟩

/-- The names are the same. -/
@[simp] theorem keys_revalued (values : Params) (f : String → String) :
    (revalued values f).keys = values.keys :=
  List.map_map ..

/-- The values are the new ones. -/
theorem mem_revalued {f : String → String} {entry : String × String} :
    entry ∈ (revalued values f).toList ↔ entry.1 ∈ values.keys ∧ entry.2 = f entry.1 := by
  constructor
  · intro mem
    obtain ⟨old, its, rfl⟩ := List.mem_map.mp mem
    exact ⟨List.mem_map.mpr ⟨old, its, rfl⟩, rfl⟩
  · rintro ⟨key, own⟩
    obtain ⟨old, its, same⟩ := List.mem_map.mp key
    exact List.mem_map.mpr ⟨old, its, Prod.ext same (own.trans (congrArg f same.symm)).symm⟩

/-- The names behind a name are told by the names alone. -/
theorem keys_putAfter (values : Params) (name : String) :
    (putAfter values name).keys = values.keys.filter (Precedes name ·) := by
  rw [KeyMap.keys, KeyMap.keys, List.filter_map]
  rfl

/-- A template that refers to one player variable becomes the text that holds its value, but this
text is read again with the names that are put in behind. It stays as it is, whatever their values
are, exactly when it refers to none of them, and so whenever the value has no percent sign. -/
theorem substitute_reference {pre post : String} (clearPre : '%' ∉ pre.toList)
    (clearName : '%' ∉ name.toList) (clearPost : '%' ∉ post.toList)
    (held : player.get? name = some value) (fields : Params) :
    let template := pre ++ "%" ++ name ++ "%" ++ post
    let inserted := pre ++ value ++ post
    substitute template fields player = substitute inserted fields (putAfter player name) ∧
      ((∀ fields' player' : Params, fields'.keys = fields.keys → player'.keys = player.keys →
          player'.get? name = some value → substitute template fields' player' = inserted) ↔
        ¬ Refers fields (putAfter player name) inserted) ∧
      ('%' ∉ value.toList → substitute template fields player = inserted) := by
  intro template inserted
  have written : template =
      String.ofList (pre.toList ++ (Reference.player name).text ++ post.toList) := by
    rw [← String.toList_inj]
    simp [template, Reference.text]
  have holds : inserted = String.ofList (pre.toList ++ value.toList ++ post.toList) := by
    rw [← String.toList_inj]
    simp [inserted]
  have read {player' : Params} (held' : player'.get? name = some value) (fields' : Params) :
      substitute template fields' player' =
        substitute inserted fields' (putAfter player' name) := by
    rw [written, holds]
    exact substitute_player clearPre clearName clearPost held' fields'
  refine ⟨read held fields, ⟨fun verbatim refers => ?_, fun clear => ?_⟩, fun clear => ?_⟩
  · let blank := revalued fields fun _ => ""
    let own := revalued player fun other => if other = name then value else ""
    have keeps : own.get? name = some value := by
      rw [← KeyMap.mem_toList_iff, mem_revalued]
      exact ⟨KeyMap.mem_keys_iff.mpr ⟨value, held⟩, (if_pos rfl).symm⟩
    have same := verbatim blank own (keys_revalued ..) (keys_revalued ..) keeps
    rw [read keeps] at same
    refine substitute_ne_of_refers ?_ ?_ same
    · refine (Refers.congr (keys_revalued ..) ?_).mpr refers
      rw [keys_putAfter, keys_putAfter, keys_revalued]
    · intro entry mem
      rcases List.mem_append.mp mem with behind | mem
      · obtain ⟨mem, behind⟩ := List.mem_filter.mp behind
        have first : Precedes name entry.1 := of_decide_eq_true behind
        refine (mem_revalued.mp mem).2.trans (if_neg fun its => ?_)
        rw [its] at first
        exact Precedes.irrefl name first
      · exact (mem_revalued.mp mem).2
  · intro fields' player' sameFields samePlayer held'
    rw [read held']
    refine substitute_of_not_refers fun refers => clear ((Refers.congr sameFields ?_).mp refers)
    rw [keys_putAfter, keys_putAfter, samePlayer]
  · rw [read held]
    refine substitute_of_not_refers (not_refers_of_clear ?_)
    simp [inserted, clearPre, clear, clearPost]

/-- A value is read with the name that is put in behind it, and not with the one that is put in
before it. -/
theorem substitute_reference_names :
    let player : Params := .ofList [("name", "100%x% of %names%"), ("names", "all"), ("x", "y")]
    '%' ∉ "by ".toList ∧ '%' ∉ "name".toList ∧ '%' ∉ "!".toList ∧
      player.get? "name" = some "100%x% of %names%" ∧
      substitute ("by " ++ "%" ++ "name" ++ "%" ++ "!") .empty player = "by 100y of %names%!" := by
  intro player
  have clearPre : '%' ∉ "by ".toList := by decide
  have clearName : '%' ∉ "name".toList := by decide
  have clearPost : '%' ∉ "!".toList := by decide
  have held : player.get? "name" = some "100%x% of %names%" := by decide +kernel
  refine ⟨clearPre, clearName, clearPost, held, ?_⟩
  rw [(substitute_reference clearPre clearName clearPost held .empty).1, substitute,
    longestFirst_of_pairwise (by decide +kernel), longestFirst_of_pairwise (by decide +kernel)]
  decide +kernel

/-- A value that looks like a reference to a name behind it does not stay as it is. -/
theorem substitute_reference_expanded :
    let player : Params := .ofList [("a", "%b%"), ("b", "x")]
    '%' ∉ "a".toList ∧ player.get? "a" = some "%b%" ∧
      substitute ("" ++ "%" ++ "a" ++ "%" ++ "") .empty player = "x" ∧
      substitute ("" ++ "%" ++ "a" ++ "%" ++ "") .empty player ≠ "" ++ "%b%" ++ "" := by
  intro player
  rw [substitute, longestFirst_of_pairwise (by decide +kernel),
    longestFirst_of_pairwise (by decide +kernel)]
  decide +kernel

end Backbox.Template
