import Backbox.Proofs.Command.Wire
import Backbox.Proofs.Text.Caseless

/-!
# The case of names and keys

A message reads as the same command when letters of its name or of its keys are written in the other
case, wherever they stand: inside an escape, beside characters that are not ASCII, or in bytes that
are not UTF-8. Where values are lower-cased, this holds of the letters of values too; and the
command is the one that is read with the values as they are, with its values lower-cased.
-/

namespace Backbox.Command

open Text

/-- Where a character of a message stands. -/
inductive Part where
  | name
  /-- In front of the first `=` of a piece, or in a piece without one. -/
  | key
  | value
  deriving DecidableEq

/-- Where the character behind one stands. The name ends at the first `?`, a key at `=`, and a value
at `&`. -/
def Part.next : Part → Char → Part
  | name, c => if c = '?' then key else name
  | key, c => if c = '=' then value else key
  | value, c => if c = '&' then key else value

variable {valuesToo : Bool} {valueCase : ValueCase} {part : Part} {c d : Char} {cs ds : List Char}
  {p q : Bytes} {message other : String}

/-- Characters in one place are the same, but for the case of ASCII letters outside the values, or
anywhere if it is free in values too. -/
def Agree (valuesToo : Bool) (part : Part) (c d : Char) : Prop :=
  c = d ∨ (part = .value → valuesToo = true) ∧ c.toLower = d.toLower

instance : Decidable (Agree valuesToo part c d) := inferInstanceAs (Decidable (_ ∨ _))

/-- Two texts agree in every place, from one that stands in some part of a message. -/
def Recased (valuesToo : Bool) : Part → List Char → List Char → Prop
  | _, [], [] => True
  | part, c :: cs, d :: ds => Agree valuesToo part c d ∧ Recased valuesToo (part.next c) cs ds
  | _, _, _ => False

instance decidableRecased (valuesToo : Bool) :
    ∀ part cs ds, Decidable (Recased valuesToo part cs ds)
  | _, [], [] => .isTrue trivial
  | part, c :: cs, _ :: ds =>
    have := decidableRecased valuesToo (part.next c) cs ds
    inferInstanceAs (Decidable (_ ∧ _))
  | _, [], _ :: _ => .isFalse id
  | _, _ :: _, [] => .isFalse id

/-- The pairs that a message holds, behind its name. -/
def pairsOf (message : String) : List (String × String) :=
  Form.decode (String.ofList ((message.toList.dropWhile (· ≠ '?')).drop 1))

/-! ### Marks -/

private theorem eq_mark_iff (same : c.toLower = d.toLower) {mark : Char}
    (settled : ((List.range 0x80).all fun n =>
      decide ((Char.ofNat n).toLower = mark) = decide (Char.ofNat n = mark)) = true) :
    c = mark ↔ d = mark := by
  have kept (c : Char) : c.toLower = mark ↔ c = mark :=
    decide_eq_decide.mp (apply_toLower (f := fun c => decide (c = mark)) settled c)
  rw [← kept, same, kept]

private theorem eq_of_mem_utf8EncodeChar {b : UInt8} (mem : b ∈ String.utf8EncodeChar c)
    (ascii : b < 0x80) : c = Char.ofNat b.toNat := by
  have mem : b ∈ bytes (String.ofList [c]) := by
    rw [bytes, encodeUtf8, String.toList_ofList, List.flatMap_singleton]
    exact mem
  have own := ofNat_mem_of_mem_bytes mem ascii
  rw [String.toList_ofList, List.mem_singleton] at own
  exact own.symm

private theorem Agree.toLower_eq (agree : Agree valuesToo part c d) : c.toLower = d.toLower :=
  agree.elim (congrArg Char.toLower) (·.2)

/-! ### The name -/

private theorem Recased.name (recased : Recased valuesToo .name cs ds) :
    (cs.takeWhile (· ≠ '?')).map Char.toLower = (ds.takeWhile (· ≠ '?')).map Char.toLower ∧
      Recased valuesToo .key ((cs.dropWhile (· ≠ '?')).drop 1)
        ((ds.dropWhile (· ≠ '?')).drop 1) := by
  induction cs generalizing ds with
  | nil =>
    cases ds with
    | nil => exact ⟨rfl, trivial⟩
    | cons => exact recased.elim
  | cons c cs ih =>
    cases ds with
    | nil => exact recased.elim
    | cons d ds =>
      obtain ⟨agree, rest⟩ := recased
      have same := agree.toLower_eq
      have marks : c = '?' ↔ d = '?' := eq_mark_iff same (by decide +kernel)
      by_cases mark : c = '?'
      · have mark' := marks.mp mark
        rw [Part.next, if_pos mark] at rest
        subst mark mark'
        exact ⟨rfl, rest⟩
      · have other := mt marks.mpr mark
        rw [Part.next, if_neg mark] at rest
        obtain ⟨names, queries⟩ := ih rest
        simp only [List.takeWhile_cons, List.dropWhile_cons, mark, other, ne_eq, not_false_eq_true,
          decide_true, if_true, List.map_cons, same, names]
        exact ⟨trivial, queries⟩

/-! ### The pieces -/

-- What stands behind the first `=` of a piece.
private def valueBytes (piece : Bytes) : Bytes := (piece.dropWhile (· ≠ Form.equals)).drop 1

-- The pieces are the same up to case, and their values are the same if the case counts there.
private structure PieceAlike (valuesToo : Bool) (p q : Bytes) : Prop where
  bytes : p.map lowerByte = q.map lowerByte
  value : valuesToo = false → valueBytes p = valueBytes q

-- What is left of two pieces, from a place on.
private def RestAlike (valuesToo : Bool) : Part → Bytes → Bytes → Prop
  | .value, p, q => p.map lowerByte = q.map lowerByte ∧ (valuesToo = false → p = q)
  | _, p, q => PieceAlike valuesToo p q

private theorem restAlike_nil : RestAlike valuesToo part [] [] := by
  cases part with
  | name | key | value => exact ⟨rfl, fun _ => rfl⟩

private theorem restAlike_append (query : part ≠ .name) (agree : Agree valuesToo part c d)
    (mark : c ≠ '&') (rest : RestAlike valuesToo (part.next c) p q) :
    RestAlike valuesToo part (String.utf8EncodeChar c ++ p) (String.utf8EncodeChar d ++ q) := by
  have bytes (alike : p.map lowerByte = q.map lowerByte) :
      (String.utf8EncodeChar c ++ p).map lowerByte =
        (String.utf8EncodeChar d ++ q).map lowerByte := by
    rw [List.map_append, List.map_append, utf8EncodeChar_congr agree.toLower_eq, alike]
  cases part with
  | name => exact absurd rfl query
  | key =>
    have marks : c = '=' ↔ d = '=' := eq_mark_iff agree.toLower_eq (by decide +kernel)
    by_cases ends : c = '='
    · rw [Part.next, if_pos ends] at rest
      obtain ⟨alike, value⟩ := rest
      refine ⟨bytes alike, fun kept => ?_⟩
      rw [ends, marks.mp ends]
      exact value kept
    · rw [Part.next, if_neg ends] at rest
      obtain ⟨alike, value⟩ := rest
      have before {c : Char} (ends : c ≠ '=') :
          ∀ b ∈ String.utf8EncodeChar c, decide (b ≠ Form.equals) = true := fun b mem =>
        decide_eq_true fun its => ends (eq_of_mem_utf8EncodeChar (its ▸ mem) (by decide))
      refine ⟨bytes alike, fun kept => ?_⟩
      rw [valueBytes, valueBytes, List.dropWhile_append_of_pos (before ends),
        List.dropWhile_append_of_pos (before (mt marks.mpr ends))]
      exact value kept
  | value =>
    rw [Part.next, if_neg mark] at rest
    obtain ⟨alike, value⟩ := rest
    refine ⟨bytes alike, fun kept => ?_⟩
    obtain rfl : c = d := agree.resolve_right fun ⟨free, _⟩ => by simp [kept] at free
    rw [value kept]

-- Behind the name there are keys and values, and `&` ends both.
private theorem Part.next_query (query : part ≠ .name) (c : Char) :
    part.next c ≠ .name ∧ (c = '&' → part.next c = .key) := by
  cases part with
  | name => exact absurd rfl query
  | key | value =>
    rw [Part.next]
    split <;> simp_all

private theorem pieces_append {separator : UInt8} {front : Bytes} (clear : separator ∉ front)
    (bs : Bytes) : Form.pieces separator (front ++ bs) =
      (Form.pieces separator bs).modifyHead (front ++ ·) := by
  induction front with
  | nil => exact (congrFun List.modifyHead_id _).symm
  | cons b front ih =>
    rw [List.mem_cons, not_or] at clear
    rw [List.cons_append, Form.pieces_eq_splitOn, List.splitOn_cons_eq_if_modifyHead,
      if_neg (by simpa using Ne.symm clear.1), ← Form.pieces_eq_splitOn, ih clear.2,
      List.modifyHead_modifyHead]
    rfl

private theorem Recased.pieces (query : part ≠ .name) (recased : Recased valuesToo part cs ds) :
    ∃ p ps q qs, Form.pieces Form.ampersand (encodeUtf8 cs) = p :: ps ∧
      Form.pieces Form.ampersand (encodeUtf8 ds) = q :: qs ∧ RestAlike valuesToo part p q ∧
      List.Forall₂ (PieceAlike valuesToo) ps qs := by
  induction cs generalizing part ds with
  | nil =>
    cases ds with
    | nil => exact ⟨[], [], [], [], rfl, rfl, restAlike_nil, .nil⟩
    | cons => exact recased.elim
  | cons c cs ih =>
    cases ds with
    | nil => exact recased.elim
    | cons d ds =>
      obtain ⟨agree, rest⟩ := recased
      have marks : c = '&' ↔ d = '&' := eq_mark_iff agree.toLower_eq (by decide +kernel)
      obtain ⟨p, ps, q, qs, cut, cut', alike, others⟩ := ih (Part.next_query query c).1 rest
      by_cases mark : c = '&'
      · have mark' := marks.mp mark
        rw [(Part.next_query query c).2 mark] at alike
        subst mark mark'
        refine ⟨[], p :: ps, [], q :: qs, cut ▸ rfl, cut' ▸ rfl, restAlike_nil, .cons alike others⟩
      · have clear {c : Char} (mark : c ≠ '&') : Form.ampersand ∉ String.utf8EncodeChar c :=
          fun mem => mark (eq_of_mem_utf8EncodeChar mem (by decide))
        refine ⟨_, ps, _, qs, ?_, ?_, restAlike_append query agree mark alike, others⟩
        · rw [encodeUtf8, List.flatMap_cons, pieces_append (clear mark)]
          exact congrArg _ cut
        · rw [encodeUtf8, List.flatMap_cons, pieces_append (clear (mt marks.mpr mark))]
          exact congrArg _ cut'

/-! ### The pairs -/

-- Pairs that are read alike.
private structure PairAlike (valueCase : ValueCase) (p q : String × String) : Prop where
  empty : (p.1.isEmpty || p.2.isEmpty) = (q.1.isEmpty || q.2.isEmpty)
  key : lower p.1 = lower q.1
  value : valueCase.apply p.2 = valueCase.apply q.2

private theorem isEmpty_congr {s t : String}
    (same : s.toList.map Char.toLower = t.toList.map Char.toLower) : s.isEmpty = t.isEmpty := by
  rw [Bool.eq_iff_iff, String.isEmpty_iff, String.isEmpty_iff, ← String.toList_eq_nil_iff,
    ← String.toList_eq_nil_iff, ← List.map_eq_nil_iff, same, List.map_eq_nil_iff]

private theorem notEquals_lowerByte :
    (fun b => decide (b ≠ Form.equals)) ∘ lowerByte = fun b => decide (b ≠ Form.equals) :=
  funext fun b => of_decide_eq_true <| Form.byte_all
    (p := fun b => decide (lowerByte b ≠ Form.equals) = decide (b ≠ Form.equals))
    (by decide +kernel) b

private theorem PieceAlike.pair (alike : PieceAlike valuesToo p q)
    (free : valuesToo = true → valueCase = .lowercase) :
    PairAlike valueCase (Form.decodePair p) (Form.decodePair q) := by
  have keyBytes : (p.takeWhile (· ≠ Form.equals)).map lowerByte =
      (q.takeWhile (· ≠ Form.equals)).map lowerByte := by
    rw [← notEquals_lowerByte, ← List.takeWhile_map, ← List.takeWhile_map, alike.bytes]
  have ends : (valueBytes p).map lowerByte = (valueBytes q).map lowerByte := by
    rw [valueBytes, valueBytes, List.map_drop, List.map_drop, ← notEquals_lowerByte,
      ← List.dropWhile_map, ← List.dropWhile_map, alike.bytes]
  have keys := ofBytes_congr (Form.unescape_congr keyBytes)
  have values := ofBytes_congr (Form.unescape_congr ends)
  refine ⟨congrArg₂ _ (isEmpty_congr keys) (isEmpty_congr values), lower_congr keys, ?_⟩
  cases its : valuesToo with
  | true =>
    rw [free its]
    exact lower_congr values
  | false =>
    exact congrArg (fun bs => valueCase.apply (ofBytes (Form.unescape bs))) (alike.value its)

private theorem isEmpty_eq (alike : PieceAlike valuesToo p q) : p.isEmpty = q.isEmpty := by
  rw [← List.isEmpty_map (f := lowerByte), alike.bytes, List.isEmpty_map]

-- Empty pieces are passed over on both sides.
private theorem pairs_alike {ps qs : List Bytes} (alike : List.Forall₂ (PieceAlike valuesToo) ps qs)
    (free : valuesToo = true → valueCase = .lowercase) :
    List.Forall₂ (PairAlike valueCase) ((ps.filter (!·.isEmpty)).map Form.decodePair)
      ((qs.filter (!·.isEmpty)).map Form.decodePair) := by
  induction alike with
  | nil => exact .nil
  | @cons p q ps qs first _ ih =>
    rw [List.filter_cons, List.filter_cons, isEmpty_eq first]
    split
    · exact .cons (first.pair free) ih
    · exact ih

private theorem readPairs_congr {ps qs : List (String × String)}
    (alike : List.Forall₂ (PairAlike valueCase) ps qs) :
    readPairs valueCase ps = readPairs valueCase qs := by
  suffices any : ∀ m : Params,
      ps.foldl (readPair valueCase) m = qs.foldl (readPair valueCase) m from any .empty
  induction alike with
  | nil => exact fun _ => rfl
  | cons first _ ih =>
    intro m
    rw [List.foldl_cons, List.foldl_cons, readPair, readPair, first.empty, first.key, first.value,
      ih]

/-- Where characters agree, the messages are read alike. -/
theorem ofWire_of_recased (recased : Recased valuesToo .name message.toList other.toList)
    (free : valuesToo = true → valueCase = .lowercase) :
    ofWire valueCase other = ofWire valueCase message := by
  obtain ⟨names, queries⟩ := recased.name
  obtain ⟨p, ps, q, qs, cut, cut', first, others⟩ := queries.pieces (by decide)
  have pairs := pairs_alike (.cons first others) free
  rw [← cut, ← cut'] at pairs
  have name : normalName (String.ofList (message.toList.takeWhile (· ≠ '?'))) =
      normalName (String.ofList (other.toList.takeWhile (· ≠ '?'))) := by
    refine lower_congr (trim_congr ?_)
    rw [String.toList_ofList, String.toList_ofList]
    exact names
  simp only [ofWire_eq, Form.decode, Form.decodeBytes, bytes, String.toList_ofList, name]
  exact congrArg (mk _) (readPairs_congr pairs).symm

/-- The parameters are those that the pairs behind the name are read as. -/
theorem params_ofWire (valueCase : ValueCase) (message : String) :
    (ofWire valueCase message).params = readPairs valueCase (pairsOf message) := by
  rw [ofWire_eq, pairsOf]

/-- A key is looked up to the value of the first pair that is read as a value of it. -/
theorem get?_ofWire (valueCase : ValueCase) (message key : String) :
    (ofWire valueCase message).params.get? key =
      ((pairsOf message).find? (Reads key ·)).map fun pair => valueCase.apply pair.2 := by
  rw [params_ofWire, get?_readPairs]

/-- A message reads as the same command when letters of its name or of its keys change their case,
and where values are lower-cased also when letters of values do. With values lower-cased it reads as
the command that it reads as with values preserved, each value lower-cased: under both, the value of
a key comes from the first pair that is read as a value of it. -/
theorem ofWire_caseless (message other : String) :
    (∀ valueCase, Recased false .name message.toList other.toList →
      ofWire valueCase other = ofWire valueCase message) ∧
    (Recased true .name message.toList other.toList →
      ofWire .lowercase other = ofWire .lowercase message) ∧
    ofWire .lowercase message = ⟨(ofWire .preserve message).name,
      (ofWire .preserve message).params.mapValues lower⟩ ∧
    ∀ valueCase key, (ofWire valueCase message).params.get? key =
      ((pairsOf message).find? (Reads key ·)).map fun pair => valueCase.apply pair.2 := by
  have values : (ofWire .lowercase message).params =
      (ofWire .preserve message).params.mapValues lower := by
    refine KeyMap.ext_get? fun key => ?_
    rw [KeyMap.get?_mapValues, get?_ofWire, get?_ofWire, Option.map_map]
    rfl
  refine ⟨fun valueCase recased => ofWire_of_recased recased (by simp),
    fun recased => ofWire_of_recased recased fun _ => rfl, ?_,
    fun valueCase key => get?_ofWire valueCase message key⟩
  have name : (ofWire .lowercase message).name = (ofWire .preserve message).name := by
    rw [name_ofWire, name_ofWire]
  rw [← values, ← name]

/-- Letters change their case in a name with a sigma at its end, in the escapes of a key, and in the
other key that is read as the same one. -/
theorem ofWire_caseless_escaped :
    let message := "TriggerΣ?N%c3%a9%Ff=Pong&n%C3%A9%fF=Last"
    let other := "tRIGGERΣ?n%C3%A9%fF=Pong&N%c3%A9%FF=Last"
    let loud := "TRIGGERΣ?N%C3%A9%FF=PONG&N%C3%A9%FF=LAST"
    ofWire .preserve other = ofWire .preserve message ∧
      ofWire .lowercase loud = ofWire .lowercase message := by
  intro message other loud
  obtain ⟨named, -⟩ := ofWire_caseless message other
  obtain ⟨-, anywhere, -⟩ := ofWire_caseless message loud
  exact ⟨named .preserve (by decide +kernel), anywhere (by decide +kernel)⟩

end Backbox.Command
