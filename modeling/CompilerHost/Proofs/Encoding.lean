import CompilerHost.Options
import CompilerHost.Proofs.Contents

/-! # Encoded texts

A text is read back from its encoding, strictly or not, and has a zero byte in it only where it has
the character of that number. The JSON text of flags has none.
-/

namespace CompilerHost

namespace Utf8

/-! ## One character -/

theorem isContinuation_iff {b : UInt8} :
    isContinuation b = true ↔ 0x80 ≤ b.toNat ∧ b.toNat ≤ 0xBF := by
  simp [isContinuation, UInt8.le_iff_toNat_le]

theorem step_of_one {a : UInt8} (rest : List UInt8) (ha : a.toNat < 0x80) :
    step a rest = (.char (Char.ofNat a.toNat), rest) := by
  unfold step
  exact if_pos (UInt8.lt_iff_toNat_lt.2 ha)

theorem step_of_two {a b : UInt8} (rest : List UInt8) (ha : 0xC2 ≤ a.toNat ∧ a.toNat ≤ 0xDF)
    (hb : isContinuation b = true) :
    step a (b :: rest) = (.char (Char.ofNat (extend (a.toNat - 0xC0) b)), rest) := by
  have h1 : ¬a.toNat < 0x80 := by omega
  unfold step
  simp [UInt8.lt_iff_toNat_lt, UInt8.le_iff_toNat_le, h1, ha, hb]

theorem step_of_three {a b c : UInt8} (rest : List UInt8)
    (ha : 0xE0 ≤ a.toNat ∧ a.toNat ≤ 0xEF) (hb : secondOfThree a b = true)
    (hc : isContinuation c = true) :
    step a (b :: c :: rest) =
      (.char (Char.ofNat (extend (extend (a.toNat - 0xE0) b) c)), rest) := by
  have h1 : ¬a.toNat < 0x80 := by omega
  have h2 : ¬a.toNat ≤ 0xDF := by omega
  unfold step
  simp [UInt8.lt_iff_toNat_lt, UInt8.le_iff_toNat_le, h1, h2, ha, hb, hc]

theorem step_of_four {a b c d : UInt8} (rest : List UInt8)
    (ha : 0xF0 ≤ a.toNat ∧ a.toNat ≤ 0xF4) (hb : secondOfFour a b = true)
    (hc : isContinuation c = true) (hd : isContinuation d = true) :
    step a (b :: c :: d :: rest) =
      (.char (Char.ofNat (extend (extend (extend (a.toNat - 0xF0) b) c) d)), rest) := by
  have h1 : ¬a.toNat < 0x80 := by omega
  have h2 : ¬a.toNat ≤ 0xDF := by omega
  have h3 : ¬a.toNat ≤ 0xEF := by omega
  unfold step
  simp [UInt8.lt_iff_toNat_lt, UInt8.le_iff_toNat_le, h1, h2, h3, ha, hb, hc, hd]

/-- A byte is a mark that says what it is for, and bits of a character. -/
theorem toNat_marked (bits mark : Nat) (h : bits + mark < 256) :
    (UInt8.ofNat (bits + mark)).toNat = bits + mark := UInt8.toNat_ofNat_of_lt' h

theorem isContinuation_marked {bits : Nat} (h : bits < 64) :
    isContinuation (UInt8.ofNat (bits + 128)) = true := by
  rw [isContinuation_iff, toNat_marked bits 128 (by omega)]
  omega

theorem extend_marked (before : Nat) {bits : Nat} (h : bits < 64) :
    extend before (UInt8.ofNat (bits + 128)) = before * 64 + bits := by
  have hb := toNat_marked bits 128 (by omega)
  unfold extend
  omega

/-- The second byte of three is in its range because the character takes no fewer bytes, and is no
surrogate. -/
theorem secondOfThree_marked {v : Nat} (hlow : 0x7FF < v) (hhigh : v ≤ 0xFFFF)
    (hplain : v < 0xD800 ∨ 0xDFFF < v) :
    secondOfThree (UInt8.ofNat (v / 4096 % 16 + 224)) (UInt8.ofNat (v / 64 % 64 + 128)) = true := by
  have ha := toNat_marked (v / 4096 % 16) 224 (by omega)
  have hb := toNat_marked (v / 64 % 64) 128 (by omega)
  have h224 : UInt8.toNat 224 = 224 := rfl
  have h237 : UInt8.toNat 237 = 237 := rfl
  simp only [secondOfThree, beq_iff_eq, ← UInt8.toNat_inj, UInt8.le_iff_toNat_le, ha, hb, h224,
    h237]
  split
  · simp
    omega
  · split
    · simp
      omega
    · exact isContinuation_marked (by omega)

/-- The second byte of four is in its range because the character takes no fewer bytes, and there
is no greater one. -/
theorem secondOfFour_marked {v : Nat} (hlow : 0xFFFF < v) (hhigh : v < 0x110000) :
    secondOfFour (UInt8.ofNat (v / 262144 % 8 + 240)) (UInt8.ofNat (v / 4096 % 64 + 128)) =
      true := by
  have ha := toNat_marked (v / 262144 % 8) 240 (by omega)
  have hb := toNat_marked (v / 4096 % 64) 128 (by omega)
  have h240 : UInt8.toNat 240 = 240 := rfl
  have h244 : UInt8.toNat 244 = 244 := rfl
  simp only [secondOfFour, beq_iff_eq, ← UInt8.toNat_inj, UInt8.le_iff_toNat_le, ha, hb, h240,
    h244]
  split
  · simp
    omega
  · split
    · simp
      omega
    · exact isContinuation_marked (by omega)

/-- The encoding of a character is one piece, whatever follows it. -/
theorem pieces_utf8EncodeChar (c : Char) (rest : List UInt8) :
    pieces (String.utf8EncodeChar c ++ rest) = .char c :: pieces rest := by
  have hc : Char.ofNat c.val.toNat = c := c.ofNat_toNat
  have hvalid : c.val.toNat < 0xD800 ∨ 0xDFFF < c.val.toNat ∧ c.val.toNat < 0x110000 := c.valid
  suffices hstep : ∀ a tail, String.utf8EncodeChar c = a :: tail →
      step a (tail ++ rest) = (.char c, rest) by
    cases hbytes : String.utf8EncodeChar c with
    | nil => exact absurd hbytes String.utf8EncodeChar_ne_nil
    | cons a tail => rw [List.cons_append, pieces, hstep a tail hbytes]
  intro a tail hbytes
  simp only [String.utf8EncodeChar] at hbytes
  generalize c.val.toNat = v at hc hvalid hbytes
  -- as many cases as an encoding has lengths
  split at hbytes
  · rename_i h1
    obtain ⟨rfl, rfl⟩ := List.cons.inj hbytes
    have ha : (UInt8.ofNat v).toNat = v :=
      UInt8.toNat_ofNat_of_lt' (Nat.lt_of_le_of_lt h1 (by decide))
    rw [List.nil_append, step_of_one rest (by omega), ha, hc]
  · split at hbytes
    · rename_i h1 h2
      obtain ⟨rfl, rfl⟩ := List.cons.inj hbytes
      have ha := toNat_marked (v / 64 % 32) 192 (by omega)
      have hv : v / 64 % 32 * 64 + v % 64 = v := by omega
      rw [List.cons_append, List.nil_append,
        step_of_two rest (by omega) (isContinuation_marked (by omega)), ha, Nat.add_sub_cancel,
        extend_marked _ (by omega), hv, hc]
    · split at hbytes
      · rename_i h1 h2 h3
        obtain ⟨rfl, rfl⟩ := List.cons.inj hbytes
        have ha := toNat_marked (v / 4096 % 16) 224 (by omega)
        have hsecond := secondOfThree_marked (v := v) (by omega) h3 (by omega)
        have hv : (v / 4096 % 16 * 64 + v / 64 % 64) * 64 + v % 64 = v := by omega
        rw [List.cons_append, List.cons_append, List.nil_append,
          step_of_three rest (by omega) hsecond (isContinuation_marked (by omega)), ha,
          Nat.add_sub_cancel, extend_marked _ (by omega), extend_marked _ (by omega), hv, hc]
      · rename_i h1 h2 h3
        obtain ⟨rfl, rfl⟩ := List.cons.inj hbytes
        have ha := toNat_marked (v / 262144 % 8) 240 (by omega)
        have hsecond := secondOfFour_marked (v := v) (by omega) (by omega)
        have hv : ((v / 262144 % 8 * 64 + v / 4096 % 64) * 64 + v / 64 % 64) * 64 + v % 64 = v := by
          omega
        rw [List.cons_append, List.cons_append, List.cons_append, List.nil_append,
          step_of_four rest (by omega) hsecond (isContinuation_marked (by omega))
            (isContinuation_marked (by omega)), ha,
          Nat.add_sub_cancel, extend_marked _ (by omega), extend_marked _ (by omega),
          extend_marked _ (by omega), hv, hc]

/-! ## Texts -/

theorem pieces_flatMap (cs : List Char) :
    pieces (cs.flatMap String.utf8EncodeChar) = cs.map .char := by
  induction cs with
  | nil => simp [pieces]
  | cons c cs ih => rw [List.flatMap_cons, pieces_utf8EncodeChar, ih, List.map_cons]

theorem firstFault?_map_char (offset : Nat) (cs : List Char) :
    firstFault? offset (cs.map .char) = none := by
  induction cs generalizing offset with
  | nil => rfl
  | cons c cs ih => exact ih _

theorem lossyText_map_char (cs : List Char) : lossyText (cs.map .char) = String.ofList cs := by
  rw [lossyText, List.map_map]
  congr 1
  exact List.map_id cs

/-- The bytes of a text, character by character. -/
theorem toList_toUTF8 (text : String) :
    text.toUTF8.toList = text.toList.flatMap String.utf8EncodeChar := by
  rw [toList_byteArray, String.toUTF8_eq_toByteArray, ← String.utf8Encode_toList, List.utf8Encode,
    List.toList_data_toByteArray]

theorem pieces_toUTF8 (text : String) :
    piecesFrom [] text.toUTF8.toList = text.toList.map .char := by
  rw [piecesFrom_nil, toList_toUTF8, pieces_flatMap]

/-- A text is read back from its encoding. -/
theorem decode_toUTF8 (text : String) : decode text.toUTF8 = .ok text := by
  rw [decode, decodeList, pieces_toUTF8]
  simp only [firstFault?_map_char, lossyText_map_char, String.ofList_toList]

/-- There is nothing to repair in an encoded text. -/
theorem decodeLossy_toUTF8 (text : String) : decodeLossy text.toUTF8 = (text, false) := by
  rw [decodeLossy, pieces_toUTF8]
  simp only [firstFault?_map_char, lossyText_map_char, String.ofList_toList, Option.isSome_none]

/-- Texts with the same encoding are the same. -/
theorem eq_of_toUTF8 {a b : String} (h : a.toUTF8.toList = b.toUTF8.toList) : a = b := by
  have hdecode := decodeLossy_toUTF8 a
  rw [decodeLossy, h] at hdecode
  exact (congrArg Prod.fst (hdecode.symm.trans (decodeLossy_toUTF8 b)))

/-! ## Zeros -/

/-- Only one character has a zero byte in its encoding. -/
theorem eq_zero_of_mem_utf8EncodeChar {c : Char} (h : 0 ∈ String.utf8EncodeChar c) :
    c = '\x00' := by
  have hc : Char.ofNat c.val.toNat = c := c.ofNat_toNat
  have hmarked : ∀ bits mark, 0 < mark → bits + mark < 256 → UInt8.ofNat (bits + mark) ≠ 0 := by
    intro bits mark hpos hlt heq
    have hzero := congrArg UInt8.toNat heq
    rw [toNat_marked bits mark hlt] at hzero
    have h0 : UInt8.toNat 0 = 0 := rfl
    omega
  simp only [String.utf8EncodeChar] at h
  generalize c.val.toNat = v at hc h
  split at h
  · rename_i h1
    have hzero := congrArg UInt8.toNat (List.mem_singleton.1 h)
    have hv : v = 0 := by
      rw [UInt8.toNat_ofNat_of_lt' (Nat.lt_of_le_of_lt h1 (by decide))] at hzero
      exact hzero.symm
    rw [← hc, hv]
  · exfalso
    split at h
    · simp only [List.mem_cons, List.not_mem_nil, or_false] at h
      rcases h with h | h
      · exact hmarked _ 192 (by decide) (by omega) h.symm
      · exact hmarked _ 128 (by decide) (by omega) h.symm
    · split at h
      · simp only [List.mem_cons, List.not_mem_nil, or_false] at h
        rcases h with h | h | h
        · exact hmarked _ 224 (by decide) (by omega) h.symm
        · exact hmarked _ 128 (by decide) (by omega) h.symm
        · exact hmarked _ 128 (by decide) (by omega) h.symm
      · simp only [List.mem_cons, List.not_mem_nil, or_false] at h
        rcases h with h | h | h | h
        · exact hmarked _ 240 (by decide) (by omega) h.symm
        · exact hmarked _ 128 (by decide) (by omega) h.symm
        · exact hmarked _ 128 (by decide) (by omega) h.symm
        · exact hmarked _ 128 (by decide) (by omega) h.symm

/-- A text without the character zero has no zero byte. -/
theorem zero_not_mem_toUTF8 {text : String} (h : '\x00' ∉ text.toList) :
    0 ∉ text.toUTF8.toList := by
  rw [toList_toUTF8, List.mem_flatMap]
  rintro ⟨c, hc, hzero⟩
  rw [eq_zero_of_mem_utf8EncodeChar hzero] at hc
  exact h hc

/-! ## First bytes -/

/-- A text begins with a byte of its own kind only if it begins with that character. -/
theorem eq_of_head_utf8EncodeChar {c : Char} {b : UInt8}
    (h : (String.utf8EncodeChar c).head? = some b) (hb : b.toNat < 0x80) :
    c = Char.ofNat b.toNat := by
  have hc : Char.ofNat c.val.toNat = c := c.ofNat_toNat
  simp only [String.utf8EncodeChar] at h
  generalize c.val.toNat = v at hc h
  split at h
  · rename_i h1
    obtain rfl := Option.some.inj h
    have hv : (UInt8.ofNat v).toNat = v :=
      UInt8.toNat_ofNat_of_lt' (Nat.lt_of_le_of_lt h1 (by decide))
    rw [← hc]
    exact congrArg Char.ofNat hv.symm
  · exfalso
    split at h
    · obtain rfl := Option.some.inj h
      have ha := toNat_marked (v / 64 % 32) 192 (by omega)
      omega
    · split at h
      · obtain rfl := Option.some.inj h
        have ha := toNat_marked (v / 4096 % 16) 224 (by omega)
        omega
      · obtain rfl := Option.some.inj h
        have ha := toNat_marked (v / 262144 % 8) 240 (by omega)
        omega

theorem head_toUTF8 {text : String} {b : UInt8} (h : text.toUTF8.toList.head? = some b)
    (hb : b.toNat < 0x80) : text.toList.head? = some (Char.ofNat b.toNat) := by
  rw [toList_toUTF8] at h
  cases htext : text.toList with
  | nil =>
      rw [htext] at h
      cases h
  | cons c cs =>
      rw [htext, List.flatMap_cons] at h
      have hfirst : (String.utf8EncodeChar c).head? = some b := by
        cases hbytes : String.utf8EncodeChar c with
        | nil => exact absurd hbytes String.utf8EncodeChar_ne_nil
        | cons a tail =>
            rw [hbytes] at h
            exact h
      rw [List.head?_cons, eq_of_head_utf8EncodeChar hfirst hb]

end Utf8

namespace Json

theorem toNat_hexDigit : ∀ n, n < 16 → 0x20 ≤ (Text.hexDigit n).toNat := by decide

/-- No escape has a control character in it. -/
theorem le_toNat_of_mem_escapeChar {c d : Char} (h : d ∈ escapeChar c) : 0x20 ≤ d.toNat := by
  have hpair : ∀ b : Char, 0x20 ≤ b.toNat → d ∈ ['\\', b] → 0x20 ≤ d.toNat := by
    intro b hb hd
    simp only [List.mem_cons, List.not_mem_nil, or_false] at hd
    rcases hd with rfl | rfl
    · decide
    · exact hb
  unfold escapeChar at h
  iterate 7
    split at h
    · exact hpair _ (by decide) h
  split at h
  · rename_i hcontrol
    simp only [List.mem_cons, List.not_mem_nil, or_false] at h
    rcases h with rfl | rfl | rfl | rfl | rfl | rfl
    · decide
    · decide
    · decide
    · decide
    · exact toNat_hexDigit _ (by omega)
    · exact toNat_hexDigit _ (by omega)
  · rename_i hcontrol
    obtain rfl := List.mem_singleton.1 h
    omega

theorem le_toNat_of_mem_printString {cs : List Char} {d : Char} (h : d ∈ printString cs) :
    0x20 ≤ d.toNat := by
  simp only [printString, List.cons_append, List.mem_cons, List.mem_append, List.mem_flatMap,
    List.not_mem_nil, or_false] at h
  rcases h with rfl | ⟨c, _, hd⟩ | rfl
  · decide
  · exact le_toNat_of_mem_escapeChar hd
  · decide

theorem le_toNat_of_mem_printTail {entries : List (List Char)} {d : Char}
    (h : d ∈ printTail entries) : 0x20 ≤ d.toNat := by
  induction entries with
  | nil => cases h
  | cons s rest ih =>
      simp only [printTail, List.cons_append, List.mem_cons, List.mem_append] at h
      rcases h with rfl | hd | hd
      · decide
      · exact le_toNat_of_mem_printString hd
      · exact ih hd

/-- What the printer writes has no control character in it. -/
theorem le_toNat_of_mem_print {entries : List String} {d : Char}
    (h : d ∈ (print entries).toList) : 0x20 ≤ d.toNat := by
  rw [print, String.toList_ofList] at h
  cases hentries : entries.map String.toList with
  | nil =>
      rw [hentries] at h
      simp only [printArray, List.mem_cons, List.not_mem_nil, or_false] at h
      rcases h with rfl | rfl
      · decide
      · decide
  | cons s rest =>
      rw [hentries] at h
      simp only [printArray, List.cons_append, List.mem_cons, List.mem_append, List.not_mem_nil,
        or_false] at h
      rcases h with rfl | (hd | hd) | rfl
      · decide
      · exact le_toNat_of_mem_printString hd
      · exact le_toNat_of_mem_printTail hd
      · decide

end Json

theorem Memory.readText_of_bad {m : Memory} {a : Address} {length : Nat} {access : BadAccess}
    (h : m.read a length = .error access) :
    m.readText a length = .error (.outOfBounds access) := by
  rw [readText, h]
  rfl

/-- What can be read is decoded. -/
theorem Memory.readText_of_read {m : Memory} {a : Address} {length : Nat} {bytes : ByteArray}
    (h : m.read a length = .ok bytes) :
    m.readText a length = (Utf8.decode bytes).mapError .undecodableText := by
  have hread : (m.read a length).mapError GuestFault.outOfBounds = pure bytes := by
    rw [h]
    rfl
  rw [readText, hread, pure_bind]
  cases Utf8.decode bytes <;> rfl

/-- Text that memory holds is read back. -/
theorem Memory.readText_of_holds {m : Memory} {a : Address} {text : String}
    (h : m.Holds a.offset.toNat text.toUTF8.toList) :
    m.readText a text.toUTF8.size = .ok text := by
  rw [readText_of_read (read_of_holds h), Utf8.decode_toUTF8]
  rfl

/-- Text that memory holds needs no repair. -/
theorem Memory.readTextLossy_of_holds {m : Memory} {a : Address} {text : String}
    (h : m.Holds a.offset.toNat text.toUTF8.toList) :
    m.readTextLossy a text.toUTF8.size = .ok (text, false) := by
  rw [readTextLossy, read_of_holds h, Except.map, Utf8.decodeLossy_toUTF8]

/-- Whatever memory holds is read as some text. -/
theorem Memory.readTextLossy_of_fits {m : Memory} {a : Address} {length : Nat}
    (h : m.Fits a length) : ∃ text repaired, m.readTextLossy a length = .ok (text, repaired) := by
  rw [readTextLossy, read, if_pos h]
  exact ⟨_, _, rfl⟩

/-- The JSON text of flags has no zero byte. -/
theorem Options.zero_not_mem_json (o : Options) : 0 ∉ o.json.toUTF8.toList := by
  refine Utf8.zero_not_mem_toUTF8 ?_
  intro hzero
  exact absurd (Json.le_toNat_of_mem_print hzero) (by decide)

end CompilerHost
