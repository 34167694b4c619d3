import Backbox.Proofs.Text.Utf8
import Backbox.Text.Form

/-!
# Reading form encoding back

What a list of pairs is written as reads as this list of pairs. The written bytes are ASCII
and hold no line-feed, whatever the pairs hold.
-/

namespace Backbox.Text

/-- The bytes of ASCII characters are their code points. -/
theorem bytes_ascii {bs : Bytes} (h : ∀ b ∈ bs, b < 0x80) :
    bytes (String.ofList (bs.map fun b => Char.ofNat b.toNat)) = bs := by
  rw [bytes, encodeUtf8, String.toList_ofList]
  induction bs with
  | nil => rfl
  | cons b rest ih =>
    have hb : b.toNat < 0x80 := h b List.mem_cons_self
    have hc : (Char.ofNat b.toNat).val.toNat = b.toNat := by
      have valid : b.toNat.isValidChar := Or.inl (by omega)
      rw [Char.ofNat, dif_pos valid]
      rfl
    rw [List.map_cons, List.flatMap_cons, ih fun x hx => h x (List.mem_cons_of_mem _ hx)]
    simp only [String.utf8EncodeChar, hc]
    rw [if_pos (by omega), UInt8.ofNat_toNat]
    rfl

namespace Form

/-- Cutting at a separator is splitting a list on it. -/
theorem pieces_eq_splitOn (separator : UInt8) (bs : Bytes) :
    pieces separator bs = bs.splitOn separator := by
  induction bs with
  | nil => rfl
  | cons b rest ih =>
    rw [List.splitOn_cons_eq_if_modifyHead, ← ih]
    have hne : pieces separator rest ≠ [] := ih ▸ List.splitOn_ne_nil separator rest
    obtain ⟨part, parts, hparts⟩ := List.exists_cons_of_ne_nil hne
    rw [hparts, pieces, List.foldr_cons]
    unfold pieces at hparts
    rw [hparts]
    simp only [List.modifyHead_cons, beq_iff_eq]

/-- What is checked of all 256 bytes holds of every byte. -/
theorem byte_all {p : UInt8 → Bool}
    (h : ((List.range 256).all fun n => p (UInt8.ofNat n)) = true) (b : UInt8) : p b = true := by
  have := List.all_eq_true.mp h b.toNat (List.mem_range.mpr b.toNat_lt)
  rwa [UInt8.ofNat_toNat] at this

-- What a byte may be written as: ASCII, none of the bytes that mean something around it.
private def isCode (b : UInt8) : Bool :=
  b < 0x80 && b != ampersand && b != equals && b != 0x0A

private theorem escapeByte_code (b : UInt8) : (escapeByte b).all isCode = true :=
  byte_all (p := fun b => (escapeByte b).all isCode) (by decide +kernel) b

private theorem escape_code {bs : Bytes} {b : UInt8} (h : b ∈ escape bs) : isCode b = true := by
  obtain ⟨x, -, hb⟩ := List.mem_flatMap.mp h
  exact List.all_eq_true.mp (escapeByte_code x) b hb

private theorem plain_spec (b : UInt8) :
    (!isPlain b || b != plus && b != percent) = true :=
  byte_all (p := fun b => !isPlain b || b != plus && b != percent) (by decide +kernel) b

private theorem hex_spec (b : UInt8) :
    hexValue? (hexDigit (b / 16)) = some (b / 16) ∧
      hexValue? (hexDigit (b % 16)) = some (b % 16) ∧ b / 16 * 16 + b % 16 = b := by
  have := byte_all (p := fun b => hexValue? (hexDigit (b / 16)) = some (b / 16) ∧
    hexValue? (hexDigit (b % 16)) = some (b % 16) ∧ b / 16 * 16 + b % 16 = b)
    (by decide +kernel) b
  exact of_decide_eq_true this

/-- What one byte is written as reads as this byte. -/
theorem unescapeFrom_escapeByte (b : UInt8) (done rest : Bytes) :
    unescapeFrom done 0 (escapeByte b ++ rest) = unescapeFrom (b :: done) 0 rest := by
  unfold escapeByte
  split
  · next plain =>
    have hb := plain_spec b
    simp only [plain, Bool.not_true, Bool.false_or, Bool.and_eq_true, bne_iff_ne] at hb
    rw [List.singleton_append, unescapeFrom]
    simp only [Nat.lt_irrefl, hb.1, hb.2, if_false]
  · split
    · next blank =>
      rw [List.singleton_append, unescapeFrom, blank]
      simp only [Nat.lt_irrefl, if_true, if_false]
    · obtain ⟨high, low, whole⟩ := hex_spec b
      have named : escaped? (hexDigit (b / 16) :: hexDigit (b % 16) :: rest) = some b := by
        simp only [escaped?, high, low, whole]
      have notPlus : percent ≠ plus := by decide
      simp only [List.cons_append, List.nil_append]
      rw [unescapeFrom]
      simp only [Nat.lt_irrefl, if_false, if_true, notPlus, named]
      -- the two digits belong to the escape that has been read
      rw [unescapeFrom, unescapeFrom]
      simp only [Nat.zero_lt_succ, if_true, Nat.add_one_sub_one, Nat.sub_self]

/-- Written bytes read as the bytes they were written for. -/
theorem unescape_escape (bs : Bytes) : unescape (escape bs) = bs := by
  suffices h : ∀ done, unescapeFrom done 0 (escape bs) = done.reverse ++ bs from h []
  induction bs with
  | nil => intro done; simp [escape, unescapeFrom]
  | cons b rest ih =>
    intro done
    change unescapeFrom done 0 (escapeByte b ++ escape rest) = _
    rw [unescapeFrom_escapeByte, ih]
    simp

private theorem equals_notMem_escape (bs : Bytes) : equals ∉ escape bs := by
  intro h
  exact absurd (escape_code h) (by decide)

private theorem encodePair_code {pair : String × String} {b : UInt8} (h : b ∈ encodePair pair) :
    b < 0x80 ∧ b ≠ ampersand ∧ b ≠ 0x0A := by
  rcases List.mem_append.mp h with h | h
  · have := escape_code h
    simp only [isCode, Bool.and_eq_true, bne_iff_ne, decide_eq_true_eq] at this
    exact ⟨this.1.1.1, this.1.1.2, this.2⟩
  · rcases List.mem_cons.mp h with rfl | h
    · decide
    · have := escape_code h
      simp only [isCode, Bool.and_eq_true, bne_iff_ne, decide_eq_true_eq] at this
      exact ⟨this.1.1.1, this.1.1.2, this.2⟩

/-- A written pair reads as this pair. -/
theorem decodePair_encodePair (pair : String × String) :
    decodePair (encodePair pair) = pair := by
  have before : ∀ b ∈ escape (bytes pair.1), decide (b ≠ equals) = true := fun b hb =>
    decide_eq_true fun h => equals_notMem_escape _ (h ▸ hb)
  have key : (encodePair pair).takeWhile (· ≠ equals) = escape (bytes pair.1) := by
    rw [encodePair, List.takeWhile_append_of_pos before, List.takeWhile_cons]
    simp
  have value : (encodePair pair).dropWhile (· ≠ equals) = equals :: escape (bytes pair.2) := by
    rw [encodePair, List.dropWhile_append_of_pos before, List.dropWhile_cons]
    simp
  simp only [decodePair, key, value, List.drop_one, List.tail_cons, unescape_escape, ofBytes_bytes]

private theorem mem_encodeBytes {pairs : List (String × String)} {b : UInt8}
    (h : b ∈ encodeBytes pairs) : b = ampersand ∨ ∃ pair ∈ pairs, b ∈ encodePair pair := by
  induction pairs with
  | nil => simp [encodeBytes] at h
  | cons pair rest ih =>
    cases rest with
    | nil => exact .inr ⟨pair, List.mem_cons_self, by simpa [encodeBytes] using h⟩
    | cons next rest =>
      simp only [encodeBytes, List.map_cons, List.intercalate_cons_cons, List.mem_append,
        List.mem_singleton] at h ih
      rcases h with (h | h) | h
      · exact .inr ⟨pair, List.mem_cons_self, h⟩
      · exact .inl h
      · exact (ih h).imp id fun ⟨p, hp, hb⟩ => ⟨p, List.mem_cons_of_mem _ hp, hb⟩

/-- Written pairs are ASCII on one line. -/
theorem encodeBytes_code {pairs : List (String × String)} {b : UInt8}
    (h : b ∈ encodeBytes pairs) : b < 0x80 ∧ b ≠ 0x0A := by
  rcases mem_encodeBytes h with rfl | ⟨pair, -, hb⟩
  · decide
  · exact ⟨(encodePair_code hb).1, (encodePair_code hb).2.2⟩

/-- Written pairs, as bytes, read as these pairs. -/
theorem decodeBytes_encodeBytes (pairs : List (String × String)) :
    decodeBytes (encodeBytes pairs) = pairs := by
  by_cases none : pairs = []
  · subst none
    rfl
  · have cut : pieces ampersand (encodeBytes pairs) = pairs.map encodePair := by
      rw [pieces_eq_splitOn, encodeBytes, List.splitOn_intercalate]
      · intro piece hp hb
        obtain ⟨pair, -, rfl⟩ := List.mem_map.mp hp
        exact (encodePair_code hb).2.1 rfl
      · simpa using none
    have full : (pairs.map encodePair).filter (!·.isEmpty) = pairs.map encodePair := by
      apply List.filter_eq_self.mpr
      intro piece hp
      obtain ⟨pair, -, rfl⟩ := List.mem_map.mp hp
      simp [encodePair]
    rw [decodeBytes, cut, full, List.map_map]
    conv => rhs; rw [← List.map_id pairs]
    exact List.map_congr_left fun pair _ => decodePair_encodePair pair

/-- The bytes of written pairs. -/
theorem bytes_encode (pairs : List (String × String)) :
    bytes (encode pairs) = encodeBytes pairs :=
  bytes_ascii fun _ h => (encodeBytes_code h).1

/-- Written pairs hold no line-feed. -/
theorem lineFeed_notMem_encode (pairs : List (String × String)) : '\n' ∉ (encode pairs).toList := by
  rw [encode, String.toList_ofList]
  intro mem
  obtain ⟨b, hb, same⟩ := List.mem_map.mp mem
  obtain ⟨ascii, other⟩ := encodeBytes_code hb
  have code : (Char.ofNat b.toNat).toNat = b.toNat := by
    have valid : b.toNat.isValidChar := Or.inl (Nat.lt_trans ascii (by decide))
    rw [Char.ofNat, dif_pos valid]
    rfl
  rw [same] at code
  exact other (UInt8.toNat_inj.mp code.symm)

/-- Written pairs read as these pairs. -/
theorem decode_encode (pairs : List (String × String)) : decode (encode pairs) = pairs := by
  rw [decode, bytes_encode, decodeBytes_encodeBytes]

end Form

end Backbox.Text
