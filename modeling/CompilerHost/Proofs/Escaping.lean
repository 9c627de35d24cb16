import CompilerHost.Proofs.Encoding
import CompilerHost.Sink.Basic

/-! # Escaped texts

An escaped text is a sequence of groups, each a percent sign and two digits of either case. That
grammar is written down here a second time, as a relation between bytes of text and the bytes that
they spell, and reading agrees with it.

* `Escape.decode_eq_ok_iff`: what can be read is what the grammar has, with the bytes it spells;
* `Escape.spells_flatMap` and `Escape.decode_encode`: what is written can be read back;
* `Escape.encode_eq_of_spells`: what was read is written again with the same digits in lower case;
* `Sink.unescape_exact`: the same of texts as sinks write and read them.
-/

namespace CompilerHost

namespace Escape

open Text

/-! ## The grammar -/

/-- A byte of text is a digit, of either case, of a value below sixteen. -/
inductive IsDigit (d : UInt8) : Nat → Prop where
  | decimal {n : Nat} (hn : n < 10) (hd : d.toNat = '0'.toNat + n) : IsDigit d n
  | lower {n : Nat} (hn : n < 6) (hd : d.toNat = 'a'.toNat + n) : IsDigit d (10 + n)
  | upper {n : Nat} (hn : n < 6) (hd : d.toNat = 'A'.toNat + n) : IsDigit d (10 + n)

/-- The percent sign. -/
def mark : UInt8 := 0x25

/-- A text spells some bytes: for each of them it has a percent sign, the digit of the byte's high
half and that of its low half, and nothing else. -/
inductive Spells : List UInt8 → List UInt8 → Prop where
  | nil : Spells [] []
  | cons {high low b : UInt8} {text bytes : List UInt8} (hhigh : IsDigit high (b.toNat / 16))
      (hlow : IsDigit low (b.toNat % 16)) (hrest : Spells text bytes) :
      Spells (mark :: high :: low :: text) (b :: bytes)

theorem Spells.length {text bytes : List UInt8} (h : Spells text bytes) :
    text.length = 3 * bytes.length := by
  induction h with
  | nil => rfl
  | cons _ _ _ ih =>
      simp only [List.length_cons, ih]
      omega

/-! ## Digits -/

theorem toNat_charOfByte (b : UInt8) : (charOfByte b).toNat = b.toNat := by
  have hb := b.toNat_lt
  have hvalid : b.toNat.isValidChar := Or.inl (by omega)
  rw [charOfByte, Char.ofNat, dif_pos hvalid]
  exact UInt32.toNat_ofNatLT

/-- Digits are the bytes that are read as such. -/
theorem hexValue?_charOfByte_iff {d : UInt8} {n : Nat} :
    hexValue? (charOfByte d) = some n ↔ IsDigit d n := by
  have hd : (charOfByte d).val.toNat = d.toNat := toNat_charOfByte d
  have hle : ∀ a b : Char, a ≤ b ↔ a.val.toNat ≤ b.val.toNat := fun a b => UInt32.le_iff_toNat_le
  have h0 : '0'.val.toNat = 48 := rfl
  have h9 : '9'.val.toNat = 57 := rfl
  have ha : 'a'.val.toNat = 97 := rfl
  have hf : 'f'.val.toNat = 102 := rfl
  have hA : 'A'.val.toNat = 65 := rfl
  have hF : 'F'.val.toNat = 70 := rfl
  simp only [hexValue?, hle, Char.toNat, hd, h0, h9, ha, hf, hA, hF]
  constructor
  · intro h
    split at h
    · have hn := Option.some.inj h
      exact .decimal (by omega) (show d.toNat = 48 + n by omega)
    · split at h
      · have hn := Option.some.inj h
        obtain rfl : n = 10 + (d.toNat - 97) := by omega
        exact .lower (by omega) (show d.toNat = 97 + _ by omega)
      · split at h
        · have hn := Option.some.inj h
          obtain rfl : n = 10 + (d.toNat - 65) := by omega
          exact .upper (by omega) (show d.toNat = 65 + _ by omega)
        · cases h
  · intro h
    cases h with
    | decimal hn hd =>
        change d.toNat = 48 + n at hd
        rw [if_pos (by omega)]
        exact congrArg some (by omega)
    | lower hn hd =>
        change d.toNat = 97 + _ at hd
        rw [if_neg (by omega), if_pos (by omega)]
        exact congrArg some (by omega)
    | upper hn hd =>
        change d.toNat = 65 + _ at hd
        rw [if_neg (by omega), if_neg (by omega), if_pos (by omega)]
        exact congrArg some (by omega)

theorem IsDigit.lt {d : UInt8} {n : Nat} (h : IsDigit d n) : n < 16 := by
  cases h with
  | decimal hn _ => omega
  | lower hn _ => omega
  | upper hn _ => omega

/-- The digit of a value as it stands in a file. -/
def digitByte (n : Nat) : UInt8 := UInt8.ofNat (hexDigit n).toNat

theorem utf8EncodeChar_hexDigit :
    ∀ n < 16, String.utf8EncodeChar (hexDigit n) = [digitByte n] := by decide

theorem isDigit_digitByte {n : Nat} (hn : n < 16) : IsDigit (digitByte n) n := by
  have hread : ∀ n < 16, hexValue? (charOfByte (digitByte n)) = some n := by decide
  exact hexValue?_charOfByte_iff.1 (hread n hn)

/-- A digit of either case stands for the character that it is, which in lower case is the one that
is written. -/
theorem IsDigit.charOfByte {d : UInt8} {n : Nat} (h : IsDigit d n) :
    String.utf8EncodeChar (charOfByte d) = [d] ∧ (charOfByte d).toLower = hexDigit n := by
  have hbyte : d = UInt8.ofNat d.toNat := (UInt8.ofNat_toNat).symm
  cases h with
  | decimal hn hd =>
      have hall : ∀ n < 10, String.utf8EncodeChar (Char.ofNat ('0'.toNat + n)) =
          [UInt8.ofNat ('0'.toNat + n)] ∧
          (Char.ofNat ('0'.toNat + n)).toLower = hexDigit n := by decide
      rw [hd] at hbyte
      rw [Escape.charOfByte, hd, hbyte]
      exact hall n hn
  | lower hn hd =>
      have hall : ∀ n < 6, String.utf8EncodeChar (Char.ofNat ('a'.toNat + n)) =
          [UInt8.ofNat ('a'.toNat + n)] ∧
          (Char.ofNat ('a'.toNat + n)).toLower = hexDigit (10 + n) := by decide
      rw [hd] at hbyte
      rw [Escape.charOfByte, hd, hbyte]
      exact hall _ hn
  | upper hn hd =>
      have hall : ∀ n < 6, String.utf8EncodeChar (Char.ofNat ('A'.toNat + n)) =
          [UInt8.ofNat ('A'.toNat + n)] ∧
          (Char.ofNat ('A'.toNat + n)).toLower = hexDigit (10 + n) := by decide
      rw [hd] at hbyte
      rw [Escape.charOfByte, hd, hbyte]
      exact hall _ hn

/-! ## Reading -/

theorem byteOfHex?_eq_some_iff {high low : Char} {b : UInt8} :
    byteOfHex? high low = some b ↔
      ∃ h l, hexValue? high = some h ∧ hexValue? low = some l ∧ UInt8.ofNat (h * 16 + l) = b := by
  simp [byteOfHex?, Option.bind_eq_some_iff]

/-- A group is read as the byte whose halves its digits are. -/
theorem ungroup?_eq_some_iff {a high low b : UInt8} :
    ungroup? a high low = some b ↔
      a = mark ∧ IsDigit high (b.toNat / 16) ∧ IsDigit low (b.toNat % 16) := by
  have hmark : charOfByte a = '%' ↔ a = mark := by
    constructor
    · intro h
      have ha := toNat_charOfByte a
      rw [h] at ha
      exact UInt8.toNat_inj.1 ha.symm
    · rintro rfl
      rfl
  have hb := b.toNat_lt
  unfold ungroup?
  constructor
  · intro h
    split at h
    · rename_i ha
      rcases byteOfHex?_eq_some_iff.1 h with ⟨m, n, hhigh, hlow, hvalue⟩
      have hm := (hexValue?_charOfByte_iff.1 hhigh).lt
      have hn := (hexValue?_charOfByte_iff.1 hlow).lt
      have hsmall : m * 16 + n < UInt8.size := by
        simp only [UInt8.size]
        omega
      have hbyte : b.toNat = m * 16 + n := by
        rw [← hvalue]
        exact UInt8.toNat_ofNat_of_lt' hsmall
      have hfirst : b.toNat / 16 = m := by omega
      have hsecond : b.toNat % 16 = n := by omega
      rw [hfirst, hsecond]
      exact ⟨hmark.1 ha, hexValue?_charOfByte_iff.1 hhigh, hexValue?_charOfByte_iff.1 hlow⟩
    · cases h
  · rintro ⟨ha, hhigh, hlow⟩
    rw [if_pos (hmark.2 ha)]
    refine byteOfHex?_eq_some_iff.2 ⟨_, _, hexValue?_charOfByte_iff.2 hhigh,
      hexValue?_charOfByte_iff.2 hlow, ?_⟩
    have hvalue : b.toNat / 16 * 16 + b.toNat % 16 = b.toNat := by omega
    rw [hvalue, UInt8.ofNat_toNat]

/-- What groups are read as is what they spell. The induction is on the groups that are left. -/
theorem spells_of_decodeFrom {position : Nat} {found text bytes : List UInt8}
    (h : decodeFrom position found text = .ok bytes) :
    ∃ rest, bytes = found.reverse ++ rest ∧ Spells text rest := by
  fun_induction decodeFrom position found text with
  | case1 position found =>
      obtain rfl := Except.ok.inj h
      exact ⟨[], (List.append_nil _).symm, .nil⟩
  | case2 position found a high low text b hgroup ih =>
      rcases ungroup?_eq_some_iff.1 hgroup with ⟨rfl, hhigh, hlow⟩
      rcases ih h with ⟨rest, hbytes, hrest⟩
      refine ⟨b :: rest, ?_, .cons hhigh hlow hrest⟩
      rw [hbytes, List.reverse_cons, List.append_assoc]
      rfl
  | case3 => cases h
  | case4 => cases h

theorem decodeFrom_of_spells {text bytes : List UInt8} (h : Spells text bytes) (position : Nat)
    (found : List UInt8) : decodeFrom position found text = .ok (found.reverse ++ bytes) := by
  induction h generalizing position found with
  | nil => simp [decodeFrom]
  | cons hhigh hlow _ ih =>
      have hgroup := ungroup?_eq_some_iff.2 ⟨rfl, hhigh, hlow⟩
      simp only [decodeFrom, hgroup, ih, List.reverse_cons, List.append_assoc, List.cons_append,
        List.nil_append]

/-- Reading accepts what spells bytes, and finds those bytes. -/
theorem decode_eq_ok_iff {text bytes : List UInt8} :
    decode text = .ok bytes ↔ Spells text bytes := by
  unfold decode
  constructor
  · intro h
    split at h
    · rcases spells_of_decodeFrom h with ⟨rest, hbytes, hrest⟩
      rw [hbytes]
      exact hrest
    · cases h
  · intro h
    -- the length is looked at before any group is
    have hlength : text.length % 3 = 0 := by
      rw [h.length]
      exact Nat.mul_mod_right 3 _
    rw [if_pos hlength]
    exact decodeFrom_of_spells h 0 []

/-! ## Writing -/

/-- The group of a byte as it stands in a file. -/
def groupBytes (b : UInt8) : List UInt8 :=
  [mark, digitByte (b.toNat / 16), digitByte (b.toNat % 16)]

theorem flatMap_group (b : UInt8) : (group b).flatMap String.utf8EncodeChar = groupBytes b := by
  have hb := b.toNat_lt
  have hhigh := utf8EncodeChar_hexDigit (b.toNat / 16) (by omega)
  have hlow := utf8EncodeChar_hexDigit (b.toNat % 16) (by omega)
  have hmark : String.utf8EncodeChar '%' = [mark] := by decide
  simp only [group, hexPair, List.flatMap_cons, List.flatMap_nil, hmark, hhigh, hlow]
  rfl

/-- Escaped text as it stands in a file. -/
theorem toList_toUTF8_encode (bytes : List UInt8) :
    (String.ofList (encode bytes)).toUTF8.toList = bytes.flatMap groupBytes := by
  rw [Utf8.toList_toUTF8, String.toList_ofList, encode, List.flatMap_assoc]
  congr 1
  funext b
  exact flatMap_group b

/-- What is written spells what it was written for. -/
theorem spells_flatMap (bytes : List UInt8) : Spells (bytes.flatMap groupBytes) bytes := by
  induction bytes with
  | nil => exact .nil
  | cons b bytes ih =>
      have hb := b.toNat_lt
      have hhigh : IsDigit (digitByte (b.toNat / 16)) (b.toNat / 16) :=
        isDigit_digitByte (by omega)
      have hlow : IsDigit (digitByte (b.toNat % 16)) (b.toNat % 16) :=
        isDigit_digitByte (by omega)
      exact .cons hhigh hlow ih

theorem decode_encode (bytes : List UInt8) :
    decode (String.ofList (encode bytes)).toUTF8.toList = .ok bytes := by
  rw [toList_toUTF8_encode]
  exact decode_eq_ok_iff.2 (spells_flatMap bytes)

/-- The characters of escaped text. -/
theorem mem_encode {bytes : List UInt8} {c : Char} (h : c ∈ encode bytes) :
    c = '%' ∨ ∃ n < 16, c = hexDigit n := by
  rcases List.mem_flatMap.1 h with ⟨b, _, hc⟩
  have hb := b.toNat_lt
  simp only [group, hexPair, List.mem_cons, List.not_mem_nil, or_false] at hc
  rcases hc with rfl | rfl | rfl
  · exact .inl rfl
  · exact .inr ⟨_, by omega, rfl⟩
  · exact .inr ⟨_, by omega, rfl⟩

/-- Escaped text has no blank at its end to lose. -/
theorem trimmedEnd_encode (bytes : List UInt8) :
    trimmedEnd (String.ofList (encode bytes)) = String.ofList (encode bytes) := by
  have hblank : ∀ n < 16, isBlank (hexDigit n) = false := by decide
  have hend : trimStart (encode bytes).reverse = (encode bytes).reverse := by
    refine trimStart_eq_self ?_
    intro c hc
    rcases mem_encode (List.mem_reverse.1 (List.mem_of_head? hc)) with rfl | ⟨n, hn, rfl⟩
    · rfl
    · exact hblank n hn
  rw [trimmedEnd, String.toList_ofList, trimEnd_eq, hend, List.reverse_reverse]

/-- Blanks that were put behind a text are lost again. -/
theorem trimmedEnd_append_blanks (text : String) {blanks : String} (h : isBlankText blanks) :
    trimmedEnd (text ++ blanks) = trimmedEnd text := by
  have hblank : ∀ c ∈ blanks.toList.reverse, isBlank c = true := by
    intro c hc
    exact List.all_eq_true.1 h c (List.mem_reverse.1 hc)
  rw [trimmedEnd, trimmedEnd, String.toList_append, trimEnd, trimEnd, List.reverse_append,
    List.dropWhile_append_of_pos hblank]

/-! ## Reading and writing again -/

/-- A text that spells something is ASCII. -/
theorem flatMap_charOfByte {text bytes : List UInt8} (h : Spells text bytes) :
    (text.map charOfByte).flatMap String.utf8EncodeChar = text := by
  induction h with
  | nil => rfl
  | cons hhigh hlow _ ih =>
      have hmark : String.utf8EncodeChar (charOfByte mark) = [mark] := by decide
      simp only [List.map_cons, List.flatMap_cons, hmark, hhigh.charOfByte.1, hlow.charOfByte.1, ih]
      rfl

/-- What was read is written again with its digits in lower case. -/
theorem encode_eq_of_spells {text bytes : List UInt8} (h : Spells text bytes) :
    encode bytes = (text.map charOfByte).map Char.toLower := by
  induction h with
  | nil => rfl
  | cons hhigh hlow _ ih =>
      have hmark : (charOfByte mark).toLower = '%' := by decide
      rw [encode] at ih
      simp only [encode, List.flatMap_cons, ih, List.map_cons, hmark, hhigh.charOfByte.2,
        hlow.charOfByte.2]
      rfl

end Escape

namespace Sink

/-! ## Escaped texts of sinks -/

/-- The escaped text of an artifact. -/
def escapedText (bytes : ByteArray) : String := String.ofList (Escape.encode bytes.toList)

theorem unescape_eq_ok_iff {text : String} {bytes : ByteArray} :
    unescape text = .ok bytes ↔ Escape.Spells text.toUTF8.toList bytes.toList := by
  rw [← Escape.decode_eq_ok_iff, toList_byteArray bytes]
  unfold unescape
  cases Escape.decode text.toUTF8.toList with
  | error position => simp
  | ok found =>
      simp only [Except.ok.injEq]
      constructor
      · rintro rfl
        rfl
      · rintro rfl
        rfl

/-- An artifact is read back from its escaped text. -/
theorem unescape_escapedText (bytes : ByteArray) : unescape (escapedText bytes) = .ok bytes := by
  rw [unescape, escapedText, Escape.decode_encode, toList_byteArray]

/-- Escaped text stands for bytes exactly as its grammar says, and any other text is malformed.
What is written is read back and has no other characters than the percent sign and digits in lower
case, and what was read is written again but for the case of its digits. -/
theorem unescape_exact (text : String) (bytes : ByteArray) :
    (unescape text = .ok bytes ↔ Escape.Spells text.toUTF8.toList bytes.toList) ∧
      ((∃ position, unescape text = .error (.malformedEscape position)) ↔
        ¬∃ found : ByteArray, Escape.Spells text.toUTF8.toList found.toList) ∧
      unescape (escapedText bytes) = .ok bytes ∧
      (∀ other, escapedText other = escapedText bytes ↔ other = bytes) ∧
      (∀ c ∈ (escapedText bytes).toList,
        c = '%' ∨ ('0' ≤ c ∧ c ≤ '9') ∨ ('a' ≤ c ∧ c ≤ 'f')) ∧
      (unescape text = .ok bytes → escapedText bytes = text.toLower) := by
  refine ⟨unescape_eq_ok_iff, ?_, unescape_escapedText bytes, ?_, ?_, ?_⟩
  · constructor
    · rintro ⟨position, herror⟩ ⟨found, hfound⟩
      rw [unescape_eq_ok_iff.2 hfound] at herror
      cases herror
    · intro hnone
      cases hread : unescape text with
      | ok found => exact absurd ⟨found, unescape_eq_ok_iff.1 hread⟩ hnone
      | error fault =>
          unfold unescape at hread
          split at hread
          · cases hread
          · obtain rfl := Except.error.inj hread
            exact ⟨_, rfl⟩
  · intro other
    constructor
    · intro hsame
      have hother := unescape_escapedText other
      rw [hsame, unescape_escapedText bytes] at hother
      exact (Except.ok.inj hother).symm
    · rintro rfl
      rfl
  · have hdigit : ∀ n < 16, ('0' ≤ Text.hexDigit n ∧ Text.hexDigit n ≤ '9') ∨
        ('a' ≤ Text.hexDigit n ∧ Text.hexDigit n ≤ 'f') := by decide
    rw [escapedText, String.toList_ofList]
    intro c hc
    rcases Escape.mem_encode hc with rfl | ⟨n, hn, rfl⟩
    · exact .inl rfl
    · exact .inr (hdigit n hn)
  · intro hread
    have hspells := unescape_eq_ok_iff.1 hread
    -- the text is ASCII, so its characters are its bytes
    have htext : text = String.ofList (text.toUTF8.toList.map Escape.charOfByte) := by
      refine Utf8.eq_of_toUTF8 ?_
      rw [Utf8.toList_toUTF8 (String.ofList _), String.toList_ofList,
        Escape.flatMap_charOfByte hspells]
    have hchars : text.toList = text.toUTF8.toList.map Escape.charOfByte := by
      conv => lhs; rw [htext, String.toList_ofList]
    refine String.toList_injective ?_
    have hlower : text.toLower = text.map Char.toLower := rfl
    rw [escapedText, String.toList_ofList, Escape.encode_eq_of_spells hspells, hlower,
      String.toList_map, hchars]

end Sink

end CompilerHost
