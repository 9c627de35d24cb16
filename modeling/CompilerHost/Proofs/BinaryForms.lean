import CompilerHost.Proofs.Encoding
import CompilerHost.Binary.Manifest
import CompilerHost.Binary.Writer
import Mathlib.Data.Bool.AllAny

/-! # The forms of binaries

What a binary may look like, written down as relations between things and the bytes that they are
written in, with all the ways to write the same thing. A reader reads a form if it takes whatever
has it off the front, and just that (`Binary.Reads`).

* `Binary.reads_unsigned` and `Binary.reads_signed`: numbers in any number of bytes, padding
  included;
* `Binary.reads_importEntry` and `Binary.reads_exportEntry`: the entries that inspection looks at;
* `Binary.isWellFormed_of_otherForm`: sections of all other kinds;
* `Binary.unsigned_writeUnsigned` and so on: what is written has the form of what it is.
-/

namespace CompilerHost.Binary

/-- A reader takes whatever has a form off the front, and gives back all that follows. -/
def Reads {α : Type} (r : Reader α) (form : α → List UInt8 → Prop) : Prop :=
  ∀ a w rest, form a w → r (w ++ rest) = some (a, rest)

/-- What is read may be turned into something else. -/
theorem Reads.map {α β : Type} {r : Reader α} {form : α → List UInt8 → Prop} (hr : Reads r form)
    (f : α → β) {a : α} {w : List UInt8} (h : form a w) (rest : List UInt8) :
    (r (w ++ rest)).map (fun read => (f read.1, read.2)) = some (f a, rest) := by
  rw [hr a w rest h]
  rfl

/-! ## Numbers -/

/-- The ways to write a number of at most so many bits. A byte has seven of them, the lowest first,
and its high bit says that another byte follows. Zeros may be written out where there is room. -/
inductive Unsigned : Nat → Nat → List UInt8 → Prop where
  | last {bits : Nat} {b : UInt8} (hlast : b.toNat < 128) (hfits : b.toNat < 2 ^ bits) :
      Unsigned bits b.toNat [b]
  | more {bits n : Nat} {b : UInt8} {w : List UInt8} (hmore : 128 ≤ b.toNat) (hroom : 7 < bits)
      (hrest : Unsigned (bits - 7) n w) : Unsigned bits (b.toNat - 128 + 128 * n) (b :: w)

/-- The ways to write a number of at most so many bits in two's complement. -/
inductive Signed : Nat → Int → List UInt8 → Prop where
  | positive {bits : Nat} {b : UInt8} (hlast : b.toNat < 64) (hfits : b.toNat < 2 ^ (bits - 1)) :
      Signed bits b.toNat [b]
  | negative {bits : Nat} {b : UInt8} (hlow : 64 ≤ b.toNat) (hlast : b.toNat < 128)
      (hfits : 128 - b.toNat ≤ 2 ^ (bits - 1)) : Signed bits ((b.toNat : Int) - 128) [b]
  | more {bits : Nat} {n : Int} {b : UInt8} {w : List UInt8} (hmore : 128 ≤ b.toNat)
      (hroom : 7 < bits) (hrest : Signed (bits - 7) n w) :
      Signed bits ((b.toNat : Int) - 128 + 128 * n) (b :: w)

theorem reads_unsigned (bits : Nat) : Reads (unsigned bits) (Unsigned bits) := by
  intro n w rest h
  induction h with
  | last hlast hfits =>
      rw [List.singleton_append, unsigned, if_pos hlast, if_pos (by rwa [Nat.one_shiftLeft])]
  | more hmore hroom _ ih =>
      rw [List.cons_append, unsigned, if_neg (by omega), if_pos hroom, ih]
      rfl

theorem reads_u32 : Reads u32 (Unsigned 32) := reads_unsigned 32

/-- Three may be written in three bytes. -/
example : Unsigned 32 3 [0x83, 0x80, 0x00] := by
  have hlast : Unsigned (32 - 7 - 7) 0 [0x00] := .last (b := 0x00) (by decide) (by decide)
  have hzero : Unsigned (32 - 7) 0 [0x80, 0x00] :=
    .more (b := 0x80) (by decide) (by decide) hlast
  exact .more (b := 0x83) (by decide) (by decide) hzero

/-- Among the ways to write a number is the shortest. -/
theorem unsigned_writeUnsigned {bits n : Nat} (h : n < 2 ^ bits) :
    Unsigned bits n (writeUnsigned n) := by
  fun_induction writeUnsigned n generalizing bits with
  | case1 n hn =>
      have hb : (UInt8.ofNat n).toNat = n :=
        UInt8.toNat_ofNat_of_lt' (Nat.lt_trans hn (by decide))
      have hlast : Unsigned bits (UInt8.ofNat n).toNat [UInt8.ofNat n] :=
        .last (by omega) (by omega)
      rwa [hb] at hlast
  | case2 n hn ih =>
      -- seven bits are not enough for what is left, so there is room for another byte
      have hroom : 7 < bits := by
        rw [← Nat.pow_lt_pow_iff_right (a := 2) (by decide)]
        omega
      have hsplit : 2 ^ bits = 128 * 2 ^ (bits - 7) := by
        rw [show 128 = 2 ^ 7 from rfl, ← Nat.pow_add, Nat.add_sub_cancel' (by omega)]
      have hbyte : n % 128 + 128 < 256 := by omega
      have hb : (UInt8.ofNat (n % 128 + 128)).toNat = n % 128 + 128 :=
        UInt8.toNat_ofNat_of_lt' hbyte
      have hrest : Unsigned (bits - 7) (n / 128) (writeUnsigned (n / 128)) := ih (by omega)
      have hmore := Unsigned.more (b := UInt8.ofNat (n % 128 + 128)) (by omega) hroom hrest
      have hn : n % 128 + 128 - 128 + 128 * (n / 128) = n := by omega
      rwa [hb, hn] at hmore

theorem reads_signed (bits : Nat) : Reads (signedNumber bits) (Signed bits) := by
  intro n w rest h
  -- the last byte has the sign, and its two cases are told apart by one bit
  induction h with
  | positive hlast hfits =>
      rw [List.singleton_append, signedNumber, if_pos (by omega), if_pos hlast]
      refine if_neg ?_
      rintro ⟨_, hout⟩
      rw [Nat.one_shiftLeft] at hout
      omega
  | negative hlow hlast hfits =>
      rw [List.singleton_append, signedNumber, if_pos hlast, if_neg (Nat.not_lt.2 hlow)]
      refine if_neg ?_
      rintro ⟨_, hout⟩
      rw [Nat.one_shiftLeft] at hout
      omega
  | more hmore hroom _ ih =>
      rw [List.cons_append, signedNumber, if_neg (by omega), if_pos hroom, ih]
      rfl

/-- A number that is not negative does not begin with a byte that stands for a negative one. -/
theorem Signed.head {bits : Nat} {n : Int} {w : List UInt8} (h : Signed bits n w) (hn : 0 ≤ n) :
    ∃ b tail, w = b :: tail ∧ (b.toNat < 64 ∨ 128 ≤ b.toNat) := by
  cases h with
  | positive hlast _ => exact ⟨_, _, rfl, .inl hlast⟩
  | negative _ hlast _ => omega
  | more hmore _ _ => exact ⟨_, _, rfl, .inr hmore⟩

/-! ## Names -/

/-- A name: its bytes in UTF-8 behind their number. -/
inductive NameForm : String → List UInt8 → Prop where
  | counted {name : String} {w : List UInt8} (hsize : name.toUTF8.size ≤ maxStringBytes)
      (hcount : Unsigned 32 name.toUTF8.size w) : NameForm name (w ++ name.toUTF8.toList)

theorem take_append (w rest : List UInt8) : take w.length (w ++ rest) = some (w, rest) := by
  simp [take_eq]

theorem reads_string : Reads string NameForm := by
  intro name w rest h
  rcases h with ⟨hsize, hcount⟩
  have hread := reads_u32 _ _ (name.toUTF8.toList ++ rest) hcount
  have htake : take name.toUTF8.size (name.toUTF8.toList ++ rest) =
      some (name.toUTF8.toList, rest) := by
    rw [← length_toList_byteArray]
    exact take_append _ rest
  have hdecode : Utf8.decodeList name.toUTF8.toList = .ok name := Utf8.decode_toUTF8 name
  rw [List.append_assoc]
  simp only [string, stringBytes, hread, Option.bind_eq_bind, Option.bind_some, if_pos hsize, htake,
    hdecode]

/-- A number of bytes that names may have is one that can be written. -/
theorem lt_of_le_maxStringBytes {n : Nat} (h : n ≤ maxStringBytes) : n < 2 ^ 32 :=
  Nat.lt_of_le_of_lt h (by decide)

theorem nameForm_writeString {name : String} (h : name.toUTF8.size ≤ maxStringBytes) :
    NameForm name (writeString name) := by
  rw [writeString, writeBytes, length_toList_byteArray]
  exact .counted h (unsigned_writeUnsigned (lt_of_le_maxStringBytes h))

/-! ## Types -/

/-- The types of references that have a byte of their own, which may be shared between threads.
Two of them are types of values that have a name. -/
inductive AbstractForm : Option ValueType → List UInt8 → Prop where
  | function : AbstractForm (some .funcRef) [0x70]
  | external : AbstractForm (some .externRef) [0x6F]
  | other {b : UInt8} (hlow : 0x68 ≤ b) (hhigh : b ≤ 0x75) (hfunction : b ≠ 0x70)
      (hexternal : b ≠ 0x6F) : AbstractForm none [b]
  | shared {b : UInt8} (hlow : 0x68 ≤ b) (hhigh : b ≤ 0x75) : AbstractForm none [0x65, b]

/-- What references may refer to: an abstract type, or one of the module's own types. -/
inductive ReferentForm : Option ValueType → List UInt8 → Prop where
  | abstract {t : Option ValueType} {w : List UInt8} (h : AbstractForm t w) : ReferentForm t w
  | index {i : Nat} {w : List UInt8} (hi : i < 2 ^ 20) (h : Signed 33 i w) : ReferentForm none w

/-- The types of references, with null and without. -/
inductive ReferenceForm : Option ValueType → List UInt8 → Prop where
  | short {t : Option ValueType} {w : List UInt8} (h : AbstractForm t w) : ReferenceForm t w
  | nullable {t : Option ValueType} {w : List UInt8} (h : ReferentForm t w) :
      ReferenceForm t (0x63 :: w)
  | plain {t : Option ValueType} {w : List UInt8} (h : ReferentForm t w) :
      ReferenceForm none (0x64 :: w)

/-- The types of values: numbers, vectors and references. -/
inductive ValueForm : Option ValueType → List UInt8 → Prop where
  | i32 : ValueForm (some .i32) [0x7F]
  | i64 : ValueForm (some .i64) [0x7E]
  | f32 : ValueForm (some .f32) [0x7D]
  | f64 : ValueForm (some .f64) [0x7C]
  | v128 : ValueForm (some .v128) [0x7B]
  | reference {t : Option ValueType} {w : List UInt8} (h : ReferenceForm t w) : ValueForm t w

/-- Limits, in as many bits as their flags say, and with a greatest size if their flags say so. -/
inductive LimitsForm (flags : UInt8) : Nat × Option Nat → List UInt8 → Prop where
  | least {n : Nat} {w : List UInt8} (hflag : flags &&& 1 = 0)
      (hleast : Unsigned (if flags &&& 4 = 0 then 32 else 64) n w) : LimitsForm flags (n, none) w
  | both {m n : Nat} {v w : List UInt8} (hflag : flags &&& 1 ≠ 0)
      (hleast : Unsigned (if flags &&& 4 = 0 then 32 else 64) m v)
      (hmost : Unsigned (if flags &&& 4 = 0 then 32 else 64) n w) :
      LimitsForm flags (m, some n) (v ++ w)

/-- The types of tables. -/
inductive TableForm : TableType → List UInt8 → Prop where
  | table {t : Option ValueType} {flags : UInt8} {l : Nat × Option Nat} {v w : List UInt8}
      (helement : ReferenceForm t v) (hflags : flags ≤ 7) (hlimits : LimitsForm flags l w) :
      TableForm ⟨t, flags, l.1, l.2⟩ (v ++ flags :: w)

/-- The types of memories, which may have pages of a size of their own. -/
inductive MemoryForm : MemoryType → List UInt8 → Prop where
  | usual {flags : UInt8} {l : Nat × Option Nat} {w : List UInt8} (hflags : flags ≤ 15)
      (husual : flags &&& 8 = 0) (hlimits : LimitsForm flags l w) :
      MemoryForm ⟨flags, l.1, l.2⟩ (flags :: w)
  | paged {flags : UInt8} {l : Nat × Option Nat} {n : Nat} {v w : List UInt8} (hflags : flags ≤ 15)
      (hpaged : flags &&& 8 ≠ 0) (hlimits : LimitsForm flags l v) (hpage : Unsigned 32 n w) :
      MemoryForm ⟨flags, l.1, l.2⟩ (flags :: (v ++ w))

/-- The types of globals, which may be mutable and shared. -/
inductive GlobalForm : GlobalType → List UInt8 → Prop where
  | global {t : Option ValueType} {flags : UInt8} {w : List UInt8} (hcontent : ValueForm t w)
      (hflags : flags ≤ 3) : GlobalForm ⟨t, flags⟩ (w ++ [flags])

/-- The bytes that name abstract types are those of a range. -/
theorem mem_abstractReferences {b : UInt8} :
    b ∈ abstractReferences ↔ 0x68 ≤ b ∧ b ≤ 0x75 := by
  constructor
  · have hall : ∀ b ∈ abstractReferences, 0x68 ≤ b ∧ b ≤ 0x75 :=
      List.all_iff_forall_prop.1 (by decide)
    exact hall b
  · -- counted from the first of them, it is one of so many
    rintro ⟨hlow, hhigh⟩
    rw [UInt8.le_iff_toNat_le] at hlow hhigh
    have hrange : b.toNat - 0x68 < 14 := by
      change b.toNat ≤ 0x75 at hhigh
      omega
    have hb : b = UInt8.ofNat (0x68 + (b.toNat - 0x68)) := by
      change 0x68 ≤ b.toNat at hlow
      rw [Nat.add_sub_cancel' hlow, UInt8.ofNat_toNat]
    rw [hb]
    exact (by decide : ∀ i < 14, UInt8.ofNat (0x68 + i) ∈ abstractReferences) _ hrange

theorem contains_abstractReferences {b : UInt8} :
    abstractReferences.contains b = true ↔ 0x68 ≤ b ∧ b ≤ 0x75 := by
  rw [List.contains_iff_mem, mem_abstractReferences]

/-- Of those, two name a type of values. -/
theorem valueType?_of_abstract {b : UInt8} (hlow : 0x68 ≤ b) (hhigh : b ≤ 0x75)
    (hfunction : b ≠ 0x70) (hexternal : b ≠ 0x6F) : valueType? b = none := by
  have hall : ∀ b ∈ abstractReferences, b ≠ 0x70 → b ≠ 0x6F → valueType? b = none :=
    List.all_iff_forall_prop.1 (by decide)
  exact hall b (mem_abstractReferences.2 ⟨hlow, hhigh⟩) hfunction hexternal

theorem reads_abstractReference : Reads abstractReference AbstractForm := by
  intro t w rest h
  cases h with
  | function => rfl
  | external => rfl
  | other hlow hhigh hfunction hexternal =>
      have hlisted := contains_abstractReferences.2 ⟨hlow, hhigh⟩
      simp only [List.singleton_append, abstractReference, byte, Option.bind_eq_bind,
        Option.bind_some, if_pos hlisted, valueType?_of_abstract hlow hhigh hfunction hexternal]
  | @shared b hlow hhigh =>
      have hlisted := contains_abstractReferences.2 ⟨hlow, hhigh⟩
      have hmark : ¬abstractReferences.contains 0x65 = true := by decide
      simp only [List.cons_append, List.nil_append, abstractReference, byte, Option.bind_eq_bind,
        Option.bind_some, if_neg hmark, if_true, if_pos hlisted]

/-- Indices are told from abstract types by their first byte. -/
theorem abstractReference_of_index {i : Nat} {w : List UInt8} (h : Signed 33 i w)
    (rest : List UInt8) : abstractReference (w ++ rest) = none := by
  obtain ⟨b, tail, rfl, hb⟩ := h.head (Int.natCast_nonneg i)
  have hlisted : ¬abstractReferences.contains b = true := by
    rw [contains_abstractReferences, UInt8.le_iff_toNat_le, UInt8.le_iff_toNat_le]
    rintro ⟨hlow, hhigh⟩
    change 104 ≤ b.toNat at hlow
    change b.toNat ≤ 117 at hhigh
    omega
  have hmark : b ≠ 0x65 := by
    rintro rfl
    exact absurd hb (by decide)
  simp only [List.cons_append, abstractReference, byte, Option.bind_eq_bind, Option.bind_some,
    if_neg hlisted, if_neg hmark]

theorem reads_referent : Reads referent ReferentForm := by
  intro t w rest h
  cases h with
  | abstract habstract => rw [referent, reads_abstractReference _ _ rest habstract]
  | @index i _ hi hsigned =>
      -- an index is read because no abstract type was found
      have hread := reads_signed 33 _ _ rest hsigned
      have hrange : 0 ≤ (i : Int) ∧ (i : Int) ≤ (maxTypeIndex : Int) := by
        have hmax : maxTypeIndex = 1048575 := rfl
        omega
      rw [referent, abstractReference_of_index hsigned rest]
      simp only [hread, Option.bind_eq_bind, Option.bind_some, if_pos hrange]

theorem byte_cons (b : UInt8) (rest : List UInt8) : byte (b :: rest) = some (b, rest) := rfl

/-- A type that has a byte of its own does not begin like the longer types of references. -/
theorem AbstractForm.head {t : Option ValueType} {w : List UInt8} (h : AbstractForm t w) :
    ∃ b tail, w = b :: tail ∧ b ≠ nullableReference ∧ b ≠ plainReference ∧
      openingReferences.contains b = true := by
  have hopening : ∀ b ∈ abstractReferences, b ≠ nullableReference ∧ b ≠ plainReference ∧
      openingReferences.contains b = true := List.all_iff_forall_prop.1 (by decide)
  cases h with
  | function => exact ⟨_, _, rfl, by decide⟩
  | external => exact ⟨_, _, rfl, by decide⟩
  | other hlow hhigh _ _ => exact ⟨_, _, rfl, hopening _ (mem_abstractReferences.2 ⟨hlow, hhigh⟩)⟩
  | shared _ _ => exact ⟨_, _, rfl, by decide⟩

theorem reads_referenceType : Reads referenceType ReferenceForm := by
  intro t w rest h
  cases h with
  | short habstract =>
      obtain ⟨b, tail, rfl, hnullable, hplain, _⟩ := habstract.head
      have hread := reads_referent _ _ rest (.abstract habstract)
      rw [List.cons_append] at hread ⊢
      simp only [referenceType, byte_cons, Option.bind_eq_bind, Option.bind_some, if_neg hnullable,
        if_neg hplain, hread]
  | nullable hreferent =>
      have hread := reads_referent _ _ rest hreferent
      rw [List.cons_append, referenceType, byte_cons]
      exact hread
  | plain hreferent => exact reads_referent.map (fun _ => none) hreferent rest

/-- Whatever opens a type of references is told from the other types of values. -/
theorem ReferenceForm.head {t : Option ValueType} {w : List UInt8} (h : ReferenceForm t w) :
    ∃ b tail, w = b :: tail ∧ openingReferences.contains b = true := by
  cases h with
  | short habstract =>
      obtain ⟨b, tail, hw, _, _, hopening⟩ := habstract.head
      exact ⟨b, tail, hw, hopening⟩
  | nullable _ => exact ⟨_, _, rfl, by decide⟩
  | plain _ => exact ⟨_, _, rfl, by decide⟩

theorem reads_valueType : Reads valueType ValueForm := by
  intro t w rest h
  cases h with
  | i32 => rfl
  | i64 => rfl
  | f32 => rfl
  | f64 => rfl
  | v128 => rfl
  | reference hreference =>
      obtain ⟨b, tail, rfl, hopening⟩ := hreference.head
      have hread := reads_referenceType _ _ rest hreference
      rw [List.cons_append] at hread ⊢
      simp only [valueType, byte_cons, Option.bind_eq_bind, Option.bind_some, if_pos hopening,
        hread]

theorem reads_limits (flags : UInt8) : Reads (limits flags) (LimitsForm flags) := by
  -- how wide both numbers are is settled before either is read
  have hnumber : Reads (if flags &&& 4 = 0 then u32 else u64)
      (Unsigned (if flags &&& 4 = 0 then 32 else 64)) := by
    split
    · exact reads_unsigned 32
    · exact reads_unsigned 64
  intro l w rest h
  cases h with
  | least hflag hleast =>
      simp only [limits, hnumber _ _ rest hleast, Option.bind_eq_bind, Option.bind_some,
        if_pos hflag]
  | both hflag hleast hmost =>
      rw [List.append_assoc]
      simp only [limits, hnumber _ _ _ hleast, hnumber _ _ rest hmost, Option.bind_eq_bind,
        Option.bind_some, if_neg hflag]

theorem reads_tableType : Reads tableType TableForm := by
  intro t w rest h
  rcases h with ⟨helement, hflags, hlimits⟩
  rw [List.append_assoc, List.cons_append]
  simp only [tableType, reads_referenceType _ _ _ helement, byte_cons, Option.bind_eq_bind,
    Option.bind_some, if_pos hflags, reads_limits _ _ _ rest hlimits]

theorem reads_memoryType : Reads memoryType MemoryForm := by
  intro t w rest h
  cases h with
  | usual hflags husual hlimits =>
      rw [List.cons_append]
      simp only [memoryType, byte_cons, Option.bind_eq_bind, Option.bind_some, if_pos hflags,
        reads_limits _ _ _ rest hlimits, if_pos husual]
  | paged hflags hpaged hlimits hpage =>
      rw [List.cons_append, List.append_assoc]
      simp only [memoryType, byte_cons, Option.bind_eq_bind, Option.bind_some, if_pos hflags,
        reads_limits _ _ _ _ hlimits, if_neg hpaged, reads_u32 _ _ rest hpage]

theorem reads_globalType : Reads globalType GlobalForm := by
  intro t w rest h
  rcases h with ⟨hcontent, hflags⟩
  rw [List.append_assoc, List.singleton_append]
  simp only [globalType, reads_valueType _ _ _ hcontent, byte_cons, Option.bind_eq_bind,
    Option.bind_some, if_pos hflags]

/-! ## Entries -/

/-- What is imported: a function, a table, a memory, a global or a tag. -/
inductive KindForm : ImportKind → List UInt8 → Prop where
  | function {i : Nat} {w : List UInt8} (h : Unsigned 32 i w) : KindForm (.function i) (0 :: w)
  | table {t : TableType} {w : List UInt8} (h : TableForm t w) : KindForm (.table t) (1 :: w)
  | memory {t : MemoryType} {w : List UInt8} (h : MemoryForm t w) : KindForm (.memory t) (2 :: w)
  | global {t : GlobalType} {w : List UInt8} (h : GlobalForm t w) : KindForm (.global t) (3 :: w)
  | tag {i : Nat} {w : List UInt8} (h : Unsigned 32 i w) : KindForm .tag (4 :: 0 :: w)

/-- An import: the names of its module and of itself, and what it is. -/
inductive ImportForm : ImportEntry → List UInt8 → Prop where
  | entry {e : ImportEntry} {u v w : List UInt8} (hmodule : NameForm e.module u)
      (hname : NameForm e.name v) (hkind : KindForm e.kind w) : ImportForm e (u ++ (v ++ w))

/-- An export: its name, and the kind and the index of what it stands for. -/
inductive ExportForm : ExportEntry → List UInt8 → Prop where
  | entry {e : ExportEntry} {v w : List UInt8} (hname : NameForm e.name v) (hkind : e.kind ≤ 4)
      (hindex : Unsigned 32 e.index w) : ExportForm e (v ++ e.kind :: w)

theorem reads_importKind : Reads importKind KindForm := by
  intro kind w rest h
  -- the first byte says which of the readers goes on
  cases h with
  | function hindex => exact reads_u32.map ImportKind.function hindex rest
  | table htype => exact reads_tableType.map ImportKind.table htype rest
  | memory htype => exact reads_memoryType.map ImportKind.memory htype rest
  | global htype => exact reads_globalType.map ImportKind.global htype rest
  | tag hindex => exact reads_u32.map (fun _ => ImportKind.tag) hindex rest

theorem reads_importEntry : Reads importEntry ImportForm := by
  intro e w rest h
  rcases h with ⟨hmodule, hname, hkind⟩
  rw [List.append_assoc, List.append_assoc]
  simp only [importEntry, reads_string _ _ _ hmodule, reads_string _ _ _ hname,
    reads_importKind _ _ rest hkind, Option.bind_eq_bind, Option.bind_some]

/-- Imports of functions are written like that. -/
theorem importForm_writeFunctionImport {module name : String} {type : Nat}
    (hmodule : module.toUTF8.size ≤ maxStringBytes) (hname : name.toUTF8.size ≤ maxStringBytes)
    (htype : type < 2 ^ 32) :
    ImportForm ⟨module, name, .function type⟩ (writeFunctionImport module name type) := by
  rw [writeFunctionImport, List.append_assoc]
  exact .entry (nameForm_writeString hmodule) (nameForm_writeString hname)
    (.function (unsigned_writeUnsigned htype))

theorem reads_exportEntry : Reads exportEntry ExportForm := by
  intro e w rest h
  rcases h with ⟨hname, hkind, hindex⟩
  rw [List.append_assoc, List.cons_append]
  simp only [exportEntry, reads_string _ _ _ hname, byte_cons, reads_u32 _ _ rest hindex,
    Option.bind_eq_bind, Option.bind_some, if_pos hkind]

theorem exportForm_writeExport {e : ExportEntry} (hname : e.name.toUTF8.size ≤ maxStringBytes)
    (hkind : e.kind ≤ 4) (hindex : e.index < 2 ^ 32) : ExportForm e (writeExport e) :=
  .entry (nameForm_writeString hname) hkind (unsigned_writeUnsigned hindex)

/-! ## Vectors -/

/-- Things that are written one behind the other. -/
inductive ItemsForm {α : Type} (form : α → List UInt8 → Prop) : List α → List UInt8 → Prop where
  | nil : ItemsForm form [] []
  | cons {a : α} {as : List α} {v w : List UInt8} (hfirst : form a v)
      (hrest : ItemsForm form as w) : ItemsForm form (a :: as) (v ++ w)

/-- Things that are written behind their number. -/
inductive CountedForm {α : Type} (form : α → List UInt8 → Prop) : List α → List UInt8 → Prop where
  | counted {as : List α} {v w : List UInt8} (hcount : Unsigned 32 as.length v)
      (hitems : ItemsForm form as w) : CountedForm form as (v ++ w)

theorem reads_items {α : Type} {r : Reader α} {form : α → List UInt8 → Prop} (hr : Reads r form)
    {as : List α} {w : List UInt8} (h : ItemsForm form as w) (rest : List UInt8) :
    items r as.length (w ++ rest) = some (as, rest) := by
  induction h with
  | nil => rfl
  | cons hfirst _ ih =>
      rw [List.append_assoc]
      simp only [List.length_cons, items, hr _ _ _ hfirst, ih, Option.bind_eq_bind,
        Option.bind_some]

theorem reads_counted {α : Type} {r : Reader α} {form : α → List UInt8 → Prop}
    (hr : Reads r form) : Reads (counted r) (CountedForm form) := by
  intro as w rest h
  rcases h with ⟨hcount, hitems⟩
  rw [List.append_assoc]
  simp only [counted, reads_u32 _ _ _ hcount, reads_items hr hitems, Option.bind_eq_bind,
    Option.bind_some]

theorem itemsForm_flatMap {α β : Type} {form : β → List UInt8 → Prop} {item : α → β}
    {write : α → List UInt8} {as : List α} (h : ∀ a ∈ as, form (item a) (write a)) :
    ItemsForm form (as.map item) (as.flatMap write) := by
  induction as with
  | nil => exact .nil
  | cons a as ih =>
      rw [List.map_cons, List.flatMap_cons]
      exact .cons (h a List.mem_cons_self) (ih fun b hb => h b (List.mem_cons_of_mem a hb))

theorem countedForm_writeCounted {α β : Type} {form : β → List UInt8 → Prop} {item : α → β}
    {write : α → List UInt8} {as : List α} (h : ∀ a ∈ as, form (item a) (write a))
    (hcount : as.length < 2 ^ 32) : CountedForm form (as.map item) (writeCounted write as) := by
  refine .counted ?_ (itemsForm_flatMap h)
  rw [List.length_map]
  exact unsigned_writeUnsigned hcount

/-- Where each item takes a byte, there are no more of them than bytes. -/
theorem length_le_writeCounted {α : Type} {write : α → List UInt8}
    (hwrite : ∀ a, 0 < (write a).length) (as : List α) :
    as.length ≤ (writeCounted write as).length := by
  have hitems : as.length ≤ (as.flatMap write).length := by
    induction as with
    | nil => exact Nat.le_refl _
    | cons a as ih =>
        have hfirst := hwrite a
        rw [List.flatMap_cons, List.length_append, List.length_cons]
        omega
  rw [writeCounted, List.length_append]
  omega

/-! ## Sections -/

/-- A function's body: so many bytes. -/
inductive BodyForm : List UInt8 → List UInt8 → Prop where
  | counted {code w : List UInt8} (hcount : Unsigned 32 code.length w) : BodyForm code (w ++ code)

theorem reads_body : Reads body BodyForm := by
  intro code w rest h
  rcases h with ⟨hcount⟩
  rw [List.append_assoc]
  simp only [body, reads_u32 _ _ _ hcount, take_append, Option.bind_eq_bind, Option.bind_some]

/-- The sections of items with their number in front, but for imports and exports. -/
def itemSections : List UInt8 := [1, 3, 4, 5, 6, 9, 11, 13]

/-- The sections that are a number. -/
def numberSections : List UInt8 := [8, 12]

/-- Sections that hold neither imports nor exports: a custom section with its name and whatever
data, a section of items with their number in front, one that is a number, code, and a section of
an unknown kind. -/
inductive OtherForm : Section → Prop where
  | custom {name : String} {w : List UInt8} (data : List UInt8) (hname : NameForm name w) :
      OtherForm ⟨0, w ++ data⟩
  | items {id : UInt8} {n : Nat} {w : List UInt8} (entries : List UInt8)
      (hid : id ∈ itemSections) (hcount : Unsigned 32 n w) :
      OtherForm ⟨id, w ++ entries⟩
  | number {id : UInt8} {n : Nat} {w : List UInt8} (hid : id ∈ numberSections)
      (h : Unsigned 32 n w) : OtherForm ⟨id, w⟩
  | code {bodies : List (List UInt8)} {w : List UInt8} (h : CountedForm BodyForm bodies w) :
      OtherForm ⟨10, w⟩
  | unknown {id : UInt8} (content : List UInt8) (hlow : 14 ≤ id) (hhigh : id < 0x80) :
      OtherForm ⟨id, content⟩

theorem takesAll_of_form {α : Type} {r : Reader α} {form : α → List UInt8 → Prop}
    (hr : Reads r form) {a : α} {w : List UInt8} (h : form a w) : takesAll r w = true := by
  have hread := hr a w [] h
  rw [List.append_nil] at hread
  rw [takesAll, hread]

/-- Sections of other kinds are neither of imports nor of exports, and look as they should. -/
theorem isWellFormed_of_otherForm {s : Section} (h : OtherForm s) :
    s.id < 0x80 ∧ s.id ≠ 2 ∧ s.id ≠ 7 ∧ isWellFormed s = true := by
  -- the id alone decides which reader takes the content
  cases h with
  | custom data hname =>
      have hread := reads_string _ _ data hname
      refine ⟨(by decide : (0 : UInt8) < 0x80), (by decide : (0 : UInt8) ≠ 2),
        (by decide : (0 : UInt8) ≠ 7), ?_⟩
      rw [isWellFormed, if_pos rfl, hread]
      rfl
  | @items id n w entries hid hcount =>
      have hread := reads_u32 _ _ entries hcount
      have hother : ∀ id ∈ itemSections,
          id < 0x80 ∧ id ≠ 2 ∧ id ≠ 7 ∧ id ≠ 0 ∧ ¬(id = 8 ∨ id = 12) ∧ id ≠ 10 :=
        List.all_iff_forall_prop.1 (by decide)
      obtain ⟨hframed, himports, hexports, hcustom, hnumber, hcode⟩ := hother id hid
      refine ⟨hframed, himports, hexports, ?_⟩
      rw [isWellFormed, if_neg hcustom, if_neg hnumber, if_neg hcode]
      refine (if_pos hid).trans ?_
      rw [hread]
      rfl
  | @number id n w hid hnumber =>
      have hother : ∀ id ∈ numberSections,
          id < 0x80 ∧ id ≠ 2 ∧ id ≠ 7 ∧ id ≠ 0 ∧ (id = 8 ∨ id = 12) :=
        List.all_iff_forall_prop.1 (by decide)
      obtain ⟨hframed, himports, hexports, hcustom, hone⟩ := hother id hid
      refine ⟨hframed, himports, hexports, ?_⟩
      rw [isWellFormed, if_neg hcustom, if_pos hone]
      exact takesAll_of_form reads_u32 hnumber
  | code hbodies =>
      refine ⟨(by decide : (10 : UInt8) < 0x80), (by decide : (10 : UInt8) ≠ 2),
        (by decide : (10 : UInt8) ≠ 7), ?_⟩
      exact takesAll_of_form (reads_counted reads_body) hbodies
  | @unknown id content hlow hhigh =>
      -- all the ids that mean something are below fourteen
      have hknown : ∀ known ∈ ([0, 2, 7, 8, 10, 12] ++ itemSections), id ≠ known := by
        have hall : ∀ known ∈ ([0, 2, 7, 8, 10, 12] ++ itemSections), ¬14 ≤ known :=
          List.all_iff_forall_prop.1 (by decide)
        rintro _ hmem rfl
        exact hall id hmem hlow
      have hnumber : ¬(id = 8 ∨ id = 12) := by
        rintro (height | htwelve)
        · exact hknown 8 (by decide) height
        · exact hknown 12 (by decide) htwelve
      have hitems : id ∉ itemSections := fun hmem =>
        hknown id (List.mem_append_right _ hmem) rfl
      refine ⟨hhigh, hknown 2 (by decide), hknown 7 (by decide), ?_⟩
      rw [isWellFormed, if_neg (hknown 0 (by decide)), if_neg hnumber,
        if_neg (hknown 10 (by decide))]
      exact if_neg hitems

end CompilerHost.Binary
