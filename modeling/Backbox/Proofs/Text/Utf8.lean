import Backbox.Text.Utf8

/-!
# Reading UTF-8 back

The bytes of a text read as this text: each character's bytes take the reader through the
character and leave it between characters. The other way round, a character that was read stands in
the bytes as its own ones, but for the character that stands for bytes that are not UTF-8.
-/

namespace Backbox.Text.Utf8Reader

private theorem toNat_byte {n : Nat} (h : n < 256) : (UInt8.ofNat n).toNat = n := by
  rw [UInt8.toNat_ofNat']
  omega

private theorem lead_one {v : Nat} (h : v < 0x80) :
    lead (UInt8.ofNat v) = (between, [Char.ofNat v]) := by
  have hb : (UInt8.ofNat v).toNat = v := toNat_byte (by omega)
  simp only [lead, UInt8.lt_iff_toNat_lt, hb, UInt8.reduceToNat]
  rw [if_pos h]

private theorem lead_two {v : Nat} (low : 0x80 ≤ v) (high : v < 0x800) :
    lead (UInt8.ofNat (v / 64 % 0x20 + 0xC0)) = (inside 1 0x80 0xBF (v / 64), []) := by
  have hb : (UInt8.ofNat (v / 64 % 0x20 + 0xC0)).toNat = v / 64 + 0xC0 := by
    rw [toNat_byte (by omega)]
    omega
  simp only [lead, UInt8.lt_iff_toNat_lt, hb, UInt8.reduceToNat]
  rw [if_neg (by omega), if_neg (by omega), if_pos (by omega), Nat.add_sub_cancel]

private theorem lead_three {v : Nat} (low : 0x800 ≤ v) (high : v < 0x10000)
    (scalar : v < 0xD800 ∨ 0xE000 ≤ v) :
    ∃ a z, lead (UInt8.ofNat (v / 4096 % 0x10 + 0xE0)) = (inside 2 a z (v / 4096), []) ∧
      a.toNat ≤ v / 64 % 0x40 + 0x80 ∧ v / 64 % 0x40 + 0x80 ≤ z.toNat := by
  have hb : (UInt8.ofNat (v / 4096 % 0x10 + 0xE0)).toNat = v / 4096 + 0xE0 := by
    rw [toNat_byte (by omega)]
    omega
  simp only [lead, UInt8.lt_iff_toNat_lt, ← UInt8.toNat_inj, hb, UInt8.reduceToNat]
  rw [if_neg (by omega), if_neg (by omega), if_neg (by omega), Nat.add_sub_cancel]
  split
  · exact ⟨0xA0, 0xBF, rfl, by simp only [UInt8.reduceToNat]; omega,
      by simp only [UInt8.reduceToNat]; omega⟩
  · split
    · exact ⟨0x80, 0x9F, rfl, by simp only [UInt8.reduceToNat]; omega,
        by simp only [UInt8.reduceToNat]; omega⟩
    · rw [if_pos (by omega)]
      exact ⟨0x80, 0xBF, rfl, by simp only [UInt8.reduceToNat]; omega,
        by simp only [UInt8.reduceToNat]; omega⟩

private theorem lead_four {v : Nat} (low : 0x10000 ≤ v) (high : v < 0x110000) :
    ∃ a z, lead (UInt8.ofNat (v / 262144 % 0x8 + 0xF0)) = (inside 3 a z (v / 262144), []) ∧
      a.toNat ≤ v / 4096 % 0x40 + 0x80 ∧ v / 4096 % 0x40 + 0x80 ≤ z.toNat := by
  have hb : (UInt8.ofNat (v / 262144 % 0x8 + 0xF0)).toNat = v / 262144 + 0xF0 := by
    rw [toNat_byte (by omega)]
    omega
  simp only [lead, UInt8.lt_iff_toNat_lt, ← UInt8.toNat_inj, hb, UInt8.reduceToNat]
  rw [if_neg (by omega), if_neg (by omega), if_neg (by omega), if_neg (by omega),
    if_neg (by omega), if_neg (by omega), Nat.add_sub_cancel]
  split
  · exact ⟨0x90, 0xBF, rfl, by simp only [UInt8.reduceToNat]; omega,
      by simp only [UInt8.reduceToNat]; omega⟩
  · split
    · exact ⟨0x80, 0xBF, rfl, by simp only [UInt8.reduceToNat]; omega,
        by simp only [UInt8.reduceToNat]; omega⟩
    · rw [if_pos (by omega)]
      exact ⟨0x80, 0x8F, rfl, by simp only [UInt8.reduceToNat]; omega,
        by simp only [UInt8.reduceToNat]; omega⟩

-- A byte that continues a character carries six bits of its code point.
private theorem read_inside {need code bits : Nat} {a z : UInt8} (hbits : bits < 0x40)
    (low : a.toNat ≤ bits + 0x80) (high : bits + 0x80 ≤ z.toNat) :
    (inside need a z code).read (UInt8.ofNat (bits + 0x80)) =
      if need ≤ 1 then (between, [Char.ofNat (code * 64 + bits)])
      else (inside (need - 1) 0x80 0xBF (code * 64 + bits), []) := by
  have hb : (UInt8.ofNat (bits + 0x80)).toNat = bits + 0x80 := toNat_byte (by omega)
  have hin : a ≤ UInt8.ofNat (bits + 0x80) ∧ UInt8.ofNat (bits + 0x80) ≤ z := by
    simp only [UInt8.le_iff_toNat_le, hb]
    exact ⟨low, high⟩
  simp only [read, hin, hb, decide_true, Bool.and_self, if_true, Nat.add_sub_cancel]

private theorem read_tail {need code bits : Nat} (hbits : bits < 0x40) :
    (inside need 0x80 0xBF code).read (UInt8.ofNat (bits + 0x80)) =
      if need ≤ 1 then (between, [Char.ofNat (code * 64 + bits)])
      else (inside (need - 1) 0x80 0xBF (code * 64 + bits), []) :=
  read_inside hbits (by simp only [UInt8.reduceToNat]; omega)
    (by simp only [UInt8.reduceToNat]; omega)

/-- The bytes of a character read as this character. -/
theorem readAll_utf8EncodeChar (c : Char) (done : List Char) (rest : Bytes) :
    readAll done between (String.utf8EncodeChar c ++ rest) =
      readAll (c :: done) between rest := by
  have hc : Char.ofNat c.val.toNat = c := Char.ofNat_toNat c
  have valid : c.val.toNat < 0xD800 ∨ 0xE000 ≤ c.val.toNat ∧ c.val.toNat < 0x110000 := by
    have := c.valid
    simp only [UInt32.isValidChar, Nat.isValidChar] at this
    omega
  simp only [String.utf8EncodeChar]
  generalize c.val.toNat = v at hc valid
  split
  · next h => simp only [List.cons_append, List.nil_append, readAll, read,
      lead_one (show v < 0x80 by omega), hc, List.reverse_singleton]
  · split
    · next low high =>
      have code : v / 64 * 64 + v % 0x40 = v := by omega
      simp only [List.cons_append, List.nil_append, readAll, read.eq_1,
        lead_two (show 0x80 ≤ v by omega) (show v < 0x800 by omega),
        read_tail (show v % 0x40 < 0x40 by omega), code, hc, Nat.le_refl, if_true,
        List.reverse_nil, List.reverse_singleton]
    · split
      · next low high =>
        obtain ⟨a, z, hl, ha, hz⟩ := lead_three (v := v) (by omega) (by omega) (by omega)
        have code : (v / 4096 * 64 + v / 64 % 0x40) * 64 + v % 0x40 = v := by omega
        simp only [List.cons_append, List.nil_append, readAll, read.eq_1, hl,
          read_inside (show v / 64 % 0x40 < 0x40 by omega) ha hz,
          read_tail (show v % 0x40 < 0x40 by omega), code, hc, Nat.reduceLeDiff, Nat.reduceSub,
          if_true, if_false, List.reverse_nil, List.reverse_singleton]
      · next low =>
        obtain ⟨a, z, hl, ha, hz⟩ := lead_four (v := v) (by omega) (by omega)
        have code : ((v / 262144 * 64 + v / 4096 % 0x40) * 64 + v / 64 % 0x40) * 64 +
            v % 0x40 = v := by omega
        simp only [List.cons_append, List.nil_append, readAll, read.eq_1, hl,
          read_inside (show v / 4096 % 0x40 < 0x40 by omega) ha hz,
          read_tail (show v / 64 % 0x40 < 0x40 by omega),
          read_tail (show v % 0x40 < 0x40 by omega), code, hc, Nat.reduceLeDiff, Nat.reduceSub,
          if_true, if_false, List.reverse_nil, List.reverse_singleton]

end Backbox.Text.Utf8Reader

namespace Backbox.Text

open Utf8Reader

private theorem readAll_eq_append (done : List Char) (place : Utf8Reader) (bs : Bytes) :
    readAll done place bs = done.reverse ++ readAll [] place bs := by
  induction bs generalizing done place with
  | nil => simp [readAll]
  | cons b rest ih =>
    simp only [readAll]
    rw [ih, ih (_ ++ [])]
    simp

/-- Bytes of characters in front of other bytes read as these characters. -/
theorem decodeUtf8_encodeUtf8_append (cs : List Char) (rest : Bytes) :
    decodeUtf8 (encodeUtf8 cs ++ rest) = cs ++ decodeUtf8 rest := by
  induction cs with
  | nil => rfl
  | cons c more ih =>
    have split : encodeUtf8 (c :: more) ++ rest =
        String.utf8EncodeChar c ++ (encodeUtf8 more ++ rest) := by
      rw [encodeUtf8, List.flatMap_cons, List.append_assoc]
      rfl
    rw [split, decodeUtf8, readAll_utf8EncodeChar, readAll_eq_append]
    change [c] ++ decodeUtf8 (encodeUtf8 more ++ rest) = _
    rw [ih]
    rfl

/-- The bytes of characters read as these characters. -/
theorem decodeUtf8_encodeUtf8 (cs : List Char) : decodeUtf8 (encodeUtf8 cs) = cs := by
  have h := decodeUtf8_encodeUtf8_append cs []
  rw [List.append_nil] at h
  rw [h]
  exact List.append_nil cs

/-- The bytes of a text read as this text. -/
theorem ofBytes_bytes (s : String) : ofBytes (bytes s) = s := by
  rw [ofBytes, bytes, decodeUtf8_encodeUtf8, String.ofList_toList]

/-- The bytes of a text in front of another. -/
theorem bytes_append (s t : String) : bytes (s ++ t) = bytes s ++ bytes t := by
  rw [bytes, String.toList_append, encodeUtf8, List.flatMap_append]
  rfl

/-- An ASCII byte of a text is one of its characters. -/
theorem ofNat_mem_of_mem_bytes {s : String} {b : UInt8} (h : b ∈ bytes s) (ascii : b < 0x80) :
    Char.ofNat b.toNat ∈ s.toList := by
  obtain ⟨c, hc, hb⟩ := List.mem_flatMap.mp h
  have low : b.toNat < 0x80 := ascii
  -- all bytes of a longer form are 0x80 or more
  have single : b = UInt8.ofNat c.toNat ∧ c.toNat < 0x80 := by
    have bound : c.val.toNat < 0x110000 := by
      have := c.valid
      simp only [UInt32.isValidChar, Nat.isValidChar] at this
      omega
    simp only [String.utf8EncodeChar] at hb
    change b = UInt8.ofNat c.val.toNat ∧ c.val.toNat < 0x80
    generalize c.val.toNat = v at hb bound
    split at hb
    · next small => exact ⟨List.mem_singleton.mp hb, by omega⟩
    · exfalso
      split at hb
      · simp only [List.mem_cons, List.not_mem_nil, or_false, ← UInt8.toNat_inj,
          UInt8.toNat_ofNat'] at hb
        omega
      · split at hb
        · simp only [List.mem_cons, List.not_mem_nil, or_false, ← UInt8.toNat_inj,
            UInt8.toNat_ofNat'] at hb
          omega
        · simp only [List.mem_cons, List.not_mem_nil, or_false, ← UInt8.toNat_inj,
            UInt8.toNat_ofNat'] at hb
          omega
  obtain ⟨rfl, small⟩ := single
  rwa [UInt8.toNat_ofNat', Nat.mod_eq_of_lt (by omega), Char.ofNat_toNat]

/-! ### The bytes of a character that was read -/

variable {c : Char} {bs : Bytes} {cs more : List Char}

private theorem toNat_ofNat {v : Nat} (valid : v < 0xD800 ∨ 0xE000 ≤ v ∧ v < 0x110000) :
    (Char.ofNat v).val.toNat = v := by
  have valid : v.isValidChar := by
    simp only [Nat.isValidChar]
    omega
  rw [Char.ofNat, dif_pos valid]
  rfl

private theorem encode_one {a : UInt8} (ha : a.toNat < 0x80) :
    String.utf8EncodeChar (Char.ofNat a.toNat) = [a] := by
  simp only [String.utf8EncodeChar, toNat_ofNat (show a.toNat < 0xD800 ∨ _ by omega)]
  rw [if_pos (by omega), UInt8.ofNat_toNat]

private theorem encode_two {a b : UInt8} (ha : 0xC2 ≤ a.toNat ∧ a.toNat < 0xE0)
    (hb : 0x80 ≤ b.toNat ∧ b.toNat ≤ 0xBF) :
    String.utf8EncodeChar (Char.ofNat ((a.toNat - 0xC0) * 64 + (b.toNat - 0x80))) = [a, b] := by
  generalize hv : (a.toNat - 0xC0) * 64 + (b.toNat - 0x80) = v
  simp only [String.utf8EncodeChar, toNat_ofNat (show v < 0xD800 ∨ _ by omega)]
  rw [if_neg (by omega), if_pos (by omega)]
  simp only [List.cons.injEq, and_true, ← UInt8.toNat_inj, UInt8.toNat_ofNat']
  omega

private theorem encode_three {a b d : UInt8} {v : Nat} (ha : 0xE0 ≤ a.toNat ∧ a.toNat < 0xF0)
    (hb : 0x80 ≤ b.toNat ∧ b.toNat ≤ 0xBF) (hd : 0x80 ≤ d.toNat ∧ d.toNat ≤ 0xBF)
    (hv : v = ((a.toNat - 0xE0) * 64 + (b.toNat - 0x80)) * 64 + (d.toNat - 0x80))
    (long : 0x800 ≤ v) (scalar : v < 0xD800 ∨ 0xE000 ≤ v) :
    String.utf8EncodeChar (Char.ofNat v) = [a, b, d] := by
  simp only [String.utf8EncodeChar, toNat_ofNat (show v < 0xD800 ∨ _ by omega)]
  rw [if_neg (by omega), if_neg (by omega), if_pos (by omega)]
  simp only [List.cons.injEq, and_true, ← UInt8.toNat_inj, UInt8.toNat_ofNat']
  omega

private theorem encode_four {a b d f : UInt8} {v : Nat} (ha : 0xF0 ≤ a.toNat ∧ a.toNat ≤ 0xF4)
    (hb : 0x80 ≤ b.toNat ∧ b.toNat ≤ 0xBF) (hd : 0x80 ≤ d.toNat ∧ d.toNat ≤ 0xBF)
    (hf : 0x80 ≤ f.toNat ∧ f.toNat ≤ 0xBF)
    (hv : v = (((a.toNat - 0xF0) * 64 + (b.toNat - 0x80)) * 64 + (d.toNat - 0x80)) * 64 +
      (f.toNat - 0x80)) (long : 0x10000 ≤ v) (scalar : v < 0x110000) :
    String.utf8EncodeChar (Char.ofNat v) = [a, b, d, f] := by
  simp only [String.utf8EncodeChar, toNat_ofNat (show v < 0xD800 ∨ _ by omega)]
  rw [if_neg (by omega), if_neg (by omega), if_neg (by omega)]
  simp only [List.cons.injEq, and_true, ← UInt8.toNat_inj, UInt8.toNat_ofNat']
  omega


/-- What a byte between characters leads to. -/
private inductive Leads (a : UInt8) : Utf8Reader × List Char → Prop where
  | one (first : a.toNat < 0x80) : Leads a (between, [Char.ofNat a.toNat])
  | stray : Leads a (between, [replacement])
  | two (first : 0xC2 ≤ a.toNat ∧ a.toNat < 0xE0) :
    Leads a (inside 1 0x80 0xBF (a.toNat - 0xC0), [])
  | three {low high : UInt8} (first : 0xE0 ≤ a.toNat ∧ a.toNat < 0xF0)
      (tail : 0x80 ≤ low.toNat ∧ high.toNat ≤ 0xBF) (long : a.toNat = 0xE0 → 0xA0 ≤ low.toNat)
      (scalar : a.toNat = 0xED → high.toNat ≤ 0x9F) :
    Leads a (inside 2 low high (a.toNat - 0xE0), [])
  | four {low high : UInt8} (first : 0xF0 ≤ a.toNat ∧ a.toNat ≤ 0xF4)
      (tail : 0x80 ≤ low.toNat ∧ high.toNat ≤ 0xBF) (long : a.toNat = 0xF0 → 0x90 ≤ low.toNat)
      (scalar : a.toNat = 0xF4 → high.toNat ≤ 0x8F) :
    Leads a (inside 3 low high (a.toNat - 0xF0), [])

private theorem leads (a : UInt8) : Leads a (lead a) := by
  unfold lead
  simp only [UInt8.lt_iff_toNat_lt, ← UInt8.toNat_inj, UInt8.reduceToNat]
  split
  · next first => exact .one first
  split
  · exact .stray
  split
  · exact .two (by omega)
  split
  · exact .three (by omega) (by decide) (fun _ => by decide) (by omega)
  split
  · exact .three (by omega) (by decide) (by omega) (fun _ => by decide)
  split
  · exact .three (by omega) (by decide) (by omega) (by omega)
  split
  · exact .four (by omega) (by decide) (fun _ => by decide) (by omega)
  split
  · exact .four (by omega) (by decide) (by omega) (by omega)
  split
  · exact .four (by omega) (by decide) (by omega) (fun _ => by decide)
  · exact .stray

section Inside

variable {need code : Nat} {low high : UInt8}

-- Inside a character, something ill-formed is reported unless the next byte goes on with it.
private theorem exists_tail (genuine : c ≠ replacement)
    (reads : readAll [] (inside need low high code) bs = c :: more) :
    ∃ b rest, bs = b :: rest ∧ low ≤ b ∧ b ≤ high := by
  cases bs with
  | nil => exact absurd (List.cons.inj reads).1.symm genuine
  | cons b rest =>
    refine ⟨b, rest, rfl, Decidable.byContradiction fun ended => ?_⟩
    have ended : (decide (low ≤ b) && decide (b ≤ high)) = false := by
      simpa [Bool.and_eq_false_imp] using ended
    simp only [readAll, Utf8Reader.read, ended] at reads
    rw [readAll_eq_append, List.append_nil, List.reverse_reverse] at reads
    exact genuine (List.cons.inj reads).1.symm

private theorem exists_last (genuine : c ≠ replacement)
    (reads : readAll [] (inside 1 low high code) bs = c :: more) :
    ∃ b rest, bs = b :: rest ∧ (low.toNat ≤ b.toNat ∧ b.toNat ≤ high.toNat) ∧
      c = Char.ofNat (code * 64 + (b.toNat - 0x80)) ∧ decodeUtf8 rest = more := by
  obtain ⟨b, rest, rfl, tail⟩ := exists_tail genuine reads
  simp only [readAll, Utf8Reader.read, tail, decide_true, Bool.and_self, if_true,
    Nat.le_refl] at reads
  rw [readAll_eq_append] at reads
  obtain ⟨own, others⟩ := List.cons.inj reads
  exact ⟨b, rest, rfl, tail, own.symm, others⟩

private theorem exists_onward (genuine : c ≠ replacement)
    (reads : readAll [] (inside (need + 2) low high code) bs = c :: more) :
    ∃ b rest, bs = b :: rest ∧ (low.toNat ≤ b.toNat ∧ b.toNat ≤ high.toNat) ∧
      readAll [] (inside (need + 1) 0x80 0xBF (code * 64 + (b.toNat - 0x80))) rest =
        c :: more := by
  obtain ⟨b, rest, rfl, tail⟩ := exists_tail genuine reads
  have further : ¬ need + 2 ≤ 1 := by omega
  simp only [readAll, Utf8Reader.read, tail, decide_true, Bool.and_self, if_true, further,
    if_false] at reads
  exact ⟨b, rest, rfl, tail, reads⟩

end Inside

/-- A character that bytes read as stands there by its own bytes, unless it stands for bytes that
are not UTF-8. -/
theorem exists_bytes_of_decodeUtf8 (genuine : c ≠ replacement)
    (reads : decodeUtf8 bs = c :: more) :
    ∃ rest, bs = String.utf8EncodeChar c ++ rest ∧ decodeUtf8 rest = more := by
  cases bs with
  | nil => cases reads
  | cons a rest =>
    have reads : (lead a).2 ++ readAll [] (lead a).1 rest = c :: more := by
      have led : decodeUtf8 (a :: rest) = readAll ((lead a).2.reverse ++ []) (lead a).1 rest := rfl
      rw [led, readAll_eq_append, List.append_nil, List.reverse_reverse] at reads
      exact reads
    have led := leads a
    generalize lead a = result at led reads
    cases led with
    | one first =>
      obtain ⟨rfl, others⟩ := List.cons.inj reads
      exact ⟨rest, by rw [encode_one first]; rfl, others⟩
    | stray => exact absurd (List.cons.inj reads).1.symm genuine
    | two first =>
      rw [List.nil_append] at reads
      obtain ⟨b, rest, rfl, tail, own, others⟩ := exists_last genuine reads
      exact ⟨rest, by rw [own, encode_two first tail]; rfl, others⟩
    | three first second long scalar =>
      rw [List.nil_append] at reads
      obtain ⟨b, rest, rfl, tail, reads⟩ := exists_onward genuine reads
      obtain ⟨d, rest, rfl, tail', own, others⟩ := exists_last genuine reads
      simp only [UInt8.reduceToNat] at tail'
      have whole : 0x80 ≤ b.toNat ∧ b.toNat ≤ 0xBF := by omega
      exact ⟨rest, by rw [own, encode_three first whole tail' rfl (by omega) (by omega)]; rfl,
        others⟩
    | four first second long scalar =>
      rw [List.nil_append] at reads
      obtain ⟨b, rest, rfl, tail, reads⟩ := exists_onward genuine reads
      obtain ⟨d, rest, rfl, tail', reads⟩ := exists_onward genuine reads
      obtain ⟨f, rest, rfl, tail'', own, others⟩ := exists_last genuine reads
      simp only [UInt8.reduceToNat] at tail' tail''
      have whole : 0x80 ≤ b.toNat ∧ b.toNat ≤ 0xBF := by omega
      exact ⟨rest, by rw [own, encode_four first whole tail' tail'' rfl (by omega) (by omega)]; rfl,
        others⟩

/-- Where bytes read as characters, none of which stands for bytes that are not UTF-8, they are the
bytes of these characters. -/
theorem decodeUtf8_eq_append_iff (genuine : replacement ∉ cs) : decodeUtf8 bs = cs ++ more ↔
    ∃ rest, bs = encodeUtf8 cs ++ rest ∧ decodeUtf8 rest = more := by
  constructor
  · intro reads
    induction cs generalizing bs with
    | nil => exact ⟨bs, rfl, reads⟩
    | cons c cs ih =>
      rw [List.mem_cons, not_or] at genuine
      obtain ⟨rest, rfl, later⟩ := exists_bytes_of_decodeUtf8 (Ne.symm genuine.1) reads
      obtain ⟨rest, rfl, last⟩ := ih genuine.2 later
      refine ⟨rest, ?_, last⟩
      rw [encodeUtf8, encodeUtf8, List.flatMap_cons, List.append_assoc]
  · rintro ⟨rest, rfl, rfl⟩
    exact decodeUtf8_encodeUtf8_append cs rest

-- A byte completes a character, or leaves the reader inside one.
private theorem read_inside_of_nil {place : Utf8Reader} {b : UInt8}
    (nothing : (place.read b).2 = []) : (place.read b).1 ≠ between := by
  cases place with
  | between =>
    rw [Utf8Reader.read] at nothing ⊢
    have led := leads b
    generalize lead b = result at led nothing ⊢
    cases led with
    | one | stray => cases nothing
    | two | three | four => exact Utf8Reader.noConfusion
  | inside need low high code =>
    by_cases tail : (decide (low ≤ b) && decide (b ≤ high)) = true
    · simp only [Utf8Reader.read, tail, if_true] at nothing ⊢
      by_cases last : need ≤ 1
      · simp only [if_pos last] at nothing
        cases nothing
      · simp only [if_neg last]
        exact Utf8Reader.noConfusion
    · simp only [Utf8Reader.read, tail] at nothing
      cases nothing

private theorem readAll_ne_nil {place : Utf8Reader} (begun : place ≠ between ∨ bs ≠ []) :
    readAll [] place bs ≠ [] := by
  induction bs generalizing place with
  | nil =>
    cases place with
    | between => exact absurd rfl (begun.resolve_right (by simp))
    | inside => exact List.cons_ne_nil _ _
  | cons b rest ih =>
    rw [readAll]
    simp only
    rw [readAll_eq_append, List.append_nil, List.reverse_reverse]
    intro nothing
    obtain ⟨none, later⟩ := List.append_eq_nil_iff.mp nothing
    exact ih (.inl (read_inside_of_nil none)) later

/-- Some bytes read as some text. -/
theorem decodeUtf8_eq_nil_iff : decodeUtf8 bs = [] ↔ bs = [] := by
  refine ⟨fun nothing => ?_, fun none => none ▸ rfl⟩
  exact Decidable.byContradiction fun some => readAll_ne_nil (.inr some) nothing

end Backbox.Text
