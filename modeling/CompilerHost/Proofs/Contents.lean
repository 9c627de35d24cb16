import CompilerHost.Proofs.Result
import Mathlib.Algebra.Group.Nat.Defs

/-! # What memory holds

A memory is known by its size and by the byte at each place. What is put into it is found at its
place again, and nothing else changes.

* `Memory.byte_overwrite`: the bytes behind a write, those that were written and all others;
* `Memory.Holds` says that a stretch has a content, and `Memory.read_eq_ok_iff` that reading it
  tells;
* `Memory.SameOutside` and `Memory.Extends` are the two ways in which a memory may change under what
  it holds: elsewhere, and at its end.
-/

namespace CompilerHost

/-! ## Lists of bytes -/

theorem toList_loop_byteArray (b : ByteArray) (i : Nat) (before : List UInt8) :
    ByteArray.toList.loop b i before = before.reverse ++ b.data.toList.drop i := by
  fun_induction ByteArray.toList.loop b i before with
  | case1 i before hi ih =>
      have hlength : i < b.data.toList.length := hi
      have hget : b.get! i = b.data.toList[i] := by
        rw [Array.getElem_toList]
        exact getElem!_pos b.data i hi
      rw [ih, hget, List.drop_eq_getElem_cons hlength, List.reverse_cons, List.append_assoc]
      rfl
  | case2 i before hi =>
      have hlength : b.data.toList.length ≤ i := Nat.le_of_not_lt hi
      rw [List.drop_eq_nil_of_le hlength, List.append_nil]

/-- The bytes in order, however they are taken out. -/
theorem toList_byteArray (b : ByteArray) : b.toList = b.data.toList :=
  toList_loop_byteArray b 0 []

@[simp] theorem length_toList_byteArray (b : ByteArray) : b.toList.length = b.size := by
  rw [toList_byteArray, Array.length_toList, ByteArray.size_data]

theorem toList_push_byteArray (b : ByteArray) (x : UInt8) :
    (b.push x).toList = b.toList ++ [x] := by
  rw [toList_byteArray, toList_byteArray]
  exact Array.toList_push

/-! ## Regions -/

/-- The places of a region. -/
def Region.Contains (r : Region) (i : Nat) : Prop :=
  r.start.offset.toNat ≤ i ∧ i < r.start.offset.toNat + r.length.toNat

/-- Two regions have no place in common. -/
def Region.Disjoint (r r' : Region) : Prop := ∀ i, r.Contains i → ¬r'.Contains i

namespace Memory

/-! ## Pages -/

/-- A page as it is read, with zeros past its end. -/
def pageByte (page : ByteArray) (k : Nat) : UInt8 := page[k]?.getD 0

theorem pageByte_push (page : ByteArray) (b : UInt8) (k : Nat) :
    pageByte (page.push b) k = if k = page.size then b else pageByte page k := by
  unfold pageByte
  by_cases hk : k < page.size
  · have hpush : k < (page.push b).size := by rw [ByteArray.size_push]; omega
    rw [if_neg (by omega), getElem?_pos page k hk, getElem?_pos (page.push b) k hpush]
    exact Array.getElem_push_lt hk
  · by_cases heq : k = page.size
    · have hpush : k < (page.push b).size := by rw [ByteArray.size_push]; omega
      rw [if_pos heq, getElem?_pos (page.push b) k hpush]
      subst heq
      exact Array.getElem_push_eq
    · have hpush : ¬k < (page.push b).size := by rw [ByteArray.size_push]; omega
      rw [if_neg heq, getElem?_neg page k hk, getElem?_neg (page.push b) k hpush]

theorem pageByte_pad (page : ByteArray) (n k : Nat) :
    pageByte (pad page n) k = pageByte page k := by
  induction n generalizing page with
  | zero => rfl
  | succ n ih =>
      rw [pad, ih, pageByte_push]
      split
      · rename_i heq
        rw [pageByte, getElem?_neg page k (by omega)]
        rfl
      · rfl

theorem size_pad (page : ByteArray) (n : Nat) : (pad page n).size = page.size + n := by
  induction n generalizing page with
  | zero => rfl
  | succ n ih =>
      rw [pad, ih, ByteArray.size_push]
      omega

theorem pageByte_setInPage (page : ByteArray) (k : Nat) (b : UInt8) (j : Nat) :
    pageByte (setInPage page k b) j = if j = k then b else pageByte page j := by
  unfold setInPage
  split
  · rename_i hk
    have hsize : (page.set k b hk).size = page.size := Array.size_set hk
    unfold pageByte
    by_cases hj : j < page.size
    · rw [getElem?_pos (page.set k b hk) j (hsize ▸ hj), getElem?_pos page j hj]
      by_cases heq : j = k
      · subst heq
        rw [if_pos rfl]
        exact Array.getElem_set_self _
      · rw [if_neg heq]
        exact Array.getElem_set_ne _ hj (Ne.symm heq)
    · rw [if_neg (by omega), getElem?_neg (page.set k b hk) j (hsize ▸ hj),
        getElem?_neg page j hj]
  · rw [pageByte_push, size_pad, pageByte_pad]
    congr 1
    simp only [eq_iff_iff]
    omega

/-! ## Writing -/

theorem byte_eq (m : Memory) (i : Nat) :
    m.byte i = (m.pages[i / pageSize]?.map (pageByte · (i % pageSize))).getD 0 := by
  unfold byte
  cases m.pages[i / pageSize]? <;> rfl

@[simp] theorem size_setByte (m : Memory) (i : Nat) (b : UInt8) :
    (m.setByte i b).size = m.size := by
  simp [size, setByte]

theorem byte_setByte (m : Memory) (i : Nat) (b : UInt8) (j : Nat) :
    (m.setByte i b).byte j = if j = i ∧ i < m.size then b else m.byte j := by
  rw [byte_eq, byte_eq, setByte, Array.getElem?_modify]
  -- a byte in another page is not the one that is set
  by_cases hpage : i / pageSize = j / pageSize
  · rw [if_pos hpage, ← hpage, Option.map_map]
    cases hget : m.pages[i / pageSize]? with
    | none =>
        have hend : m.pages.size ≤ i / pageSize := Array.getElem?_eq_none_iff.1 hget
        have hsize : m.size ≤ i := (Nat.le_div_iff_mul_le (by decide)).1 hend
        rw [if_neg (by omega)]
        rfl
    | some page =>
        have hlt : i / pageSize < m.pages.size := (Array.getElem?_eq_some_iff.1 hget).1
        have hsize : i < m.size := (Nat.div_lt_iff_lt_mul (by decide)).1 hlt
        have hsame : j % pageSize = i % pageSize ↔ j = i := by
          constructor
          · intro hmod
            rw [← Nat.div_add_mod j pageSize, ← Nat.div_add_mod i pageSize, hpage, hmod]
          · rintro rfl
            rfl
        simp only [Option.map_some, Function.comp_apply, Option.getD_some, pageByte_setInPage,
          hsame, hsize, and_true]
  · have hne : j ≠ i := fun h => hpage (by rw [h])
    rw [if_neg hpage, if_neg (fun h => hne h.1)]

@[simp] theorem size_overwrite (m : Memory) (start : Nat) (bytes : List UInt8) :
    (m.overwrite start bytes).size = m.size := by
  induction bytes generalizing m start with
  | nil => rfl
  | cons b rest ih => rw [overwrite, ih, size_setByte]

@[simp] theorem limit_overwrite (m : Memory) (start : Nat) (bytes : List UInt8) :
    (m.overwrite start bytes).limit = m.limit := by
  induction bytes generalizing m start with
  | nil => rfl
  | cons b rest ih => rw [overwrite, ih]; rfl

/-- The bytes behind a write that fits: what was written, at its place, and all others as before. -/
theorem byte_overwrite (m : Memory) {start : Nat} {bytes : List UInt8}
    (hfits : start + bytes.length ≤ m.size) (j : Nat) :
    (m.overwrite start bytes).byte j =
      if h : start ≤ j ∧ j - start < bytes.length then bytes[j - start] else m.byte j := by
  induction bytes generalizing m start with
  | nil => simp [overwrite]
  | cons b rest ih =>
      have hlength : start + 1 + rest.length ≤ (m.setByte start b).size := by
        rw [size_setByte]
        rw [List.length_cons] at hfits
        omega
      rw [overwrite, ih _ hlength, byte_setByte]
      rw [List.length_cons] at hfits
      by_cases hfirst : j = start
      · subst hfirst
        rw [dif_neg (by omega), if_pos ⟨rfl, by omega⟩, dif_pos (by simp)]
        simp
      · by_cases hin : start + 1 ≤ j ∧ j - (start + 1) < rest.length
        · have hindex : j - start = j - (start + 1) + 1 := by omega
          rw [dif_pos hin, dif_pos ⟨by omega, by rw [List.length_cons]; omega⟩]
          simp only [hindex, List.getElem_cons_succ]
        · rw [dif_neg hin, if_neg (fun h => hfirst h.1), dif_neg]
          rw [List.length_cons]
          omega

/-! ## Contents -/

/-- From a place on, memory has these bytes. -/
structure Holds (m : Memory) (start : Nat) (bytes : List UInt8) : Prop where
  fits : start + bytes.length ≤ m.size
  content : ∀ i (h : i < bytes.length), m.byte (start + i) = bytes[i]

/-- Two memories are of one size, and differ in a stretch at most. -/
structure SameOutside (m m' : Memory) (start length : Nat) : Prop where
  size : m'.size = m.size
  byte : ∀ i, i < start ∨ start + length ≤ i → m'.byte i = m.byte i

/-- A memory has grown, and is as before up to where it ended then. -/
structure Extends (m' m : Memory) : Prop where
  size : m.size ≤ m'.size
  byte : ∀ i, i < m.size → m'.byte i = m.byte i

theorem Extends.refl (m : Memory) : m.Extends m := ⟨Nat.le_refl _, fun _ _ => rfl⟩

theorem Extends.trans {m'' m' m : Memory} (h' : m''.Extends m') (h : m'.Extends m) :
    m''.Extends m where
  size := Nat.le_trans h.size h'.size
  byte := by
    intro i hi
    rw [h'.byte i (Nat.lt_of_lt_of_le hi h.size), h.byte i hi]

theorem sameOutside_overwrite (m : Memory) {start : Nat} {bytes : List UInt8}
    (hfits : start + bytes.length ≤ m.size) :
    m.SameOutside (m.overwrite start bytes) start bytes.length where
  size := size_overwrite m start bytes
  byte := by
    intro i hi
    rw [byte_overwrite m hfits, dif_neg (by omega)]

theorem holds_overwrite (m : Memory) {start : Nat} {bytes : List UInt8}
    (hfits : start + bytes.length ≤ m.size) : (m.overwrite start bytes).Holds start bytes where
  fits := by rwa [size_overwrite]
  content := by
    intro i hi
    rw [byte_overwrite m hfits, dif_pos (by omega)]
    simp only [Nat.add_sub_cancel_left]

/-- What is held survives a change elsewhere. -/
theorem Holds.of_sameOutside {m m' : Memory} {start : Nat} {bytes : List UInt8} {place length : Nat}
    (h : m.Holds start bytes) (hsame : m.SameOutside m' place length)
    (hapart : ∀ i, start ≤ i → i < start + bytes.length → i < place ∨ place + length ≤ i) :
    m'.Holds start bytes where
  fits := by rw [hsame.size]; exact h.fits
  content := by
    intro i hi
    rw [hsame.byte (start + i) (hapart (start + i) (by omega) (by omega)), h.content i hi]

/-- What is held survives a write elsewhere. -/
theorem Holds.of_overwrite {m : Memory} {start place : Nat} {bytes written : List UInt8}
    (h : m.Holds start bytes) (hfits : place + written.length ≤ m.size)
    (hapart : start + bytes.length ≤ place ∨ place + written.length ≤ start) :
    (m.overwrite place written).Holds start bytes := by
  refine h.of_sameOutside (sameOutside_overwrite m hfits) ?_
  intro i hlow hhigh
  omega

/-- What is held survives growth. -/
theorem Holds.of_extends {m m' : Memory} {start : Nat} {bytes : List UInt8}
    (h : m.Holds start bytes) (hext : m'.Extends m) : m'.Holds start bytes where
  fits := Nat.le_trans h.fits hext.size
  content := by
    intro i hi
    have hfits := h.fits
    rw [hext.byte (start + i) (by omega), h.content i hi]

/-- The front of what is held is held. -/
theorem Holds.front {m : Memory} {start : Nat} {a b : List UInt8} (h : m.Holds start (a ++ b)) :
    m.Holds start a where
  fits := by
    have hfits := h.fits
    rw [List.length_append] at hfits
    omega
  content := by
    intro i hi
    rw [h.content i (by rw [List.length_append]; omega), List.getElem_append_left hi]

/-- The end of what is held is held. -/
theorem Holds.back {m : Memory} {start : Nat} {a b : List UInt8} (h : m.Holds start (a ++ b)) :
    m.Holds (start + a.length) b where
  fits := by
    have hfits := h.fits
    rw [List.length_append] at hfits
    omega
  content := by
    intro i hi
    rw [Nat.add_assoc, h.content (a.length + i) (by rw [List.length_append]; omega),
      List.getElem_append_right (Nat.le_add_right _ _)]
    simp only [Nat.add_sub_cancel_left]

/-- What is held behind each other is held together. -/
theorem Holds.append {m : Memory} {start : Nat} {a b : List UInt8} (ha : m.Holds start a)
    (hb : m.Holds (start + a.length) b) : m.Holds start (a ++ b) where
  fits := by
    have hfits := hb.fits
    rw [List.length_append]
    omega
  content := by
    intro i hi
    rw [List.length_append] at hi
    by_cases hfirst : i < a.length
    · rw [ha.content i hfirst, List.getElem_append_left hfirst]
    · have hrest : i - a.length < b.length := by omega
      have hplace : start + i = start + a.length + (i - a.length) := by omega
      rw [hplace, hb.content _ hrest, List.getElem_append_right (by omega)]

/-- What is taken out of memory is what it holds there. -/
theorem Holds.slice {m : Memory} {start : Nat} {bytes : List UInt8} (h : m.Holds start bytes) :
    (m.slice start bytes.length).toList = bytes := by
  rw [toList_byteArray, toList_slice]
  refine List.ext_getElem (by simp) ?_
  intro i _ hi
  simp only [List.getElem_map, List.getElem_range, h.content i hi]

/-- At a place there is one content of a length. -/
theorem Holds.unique {m : Memory} {start : Nat} {bytes bytes' : List UInt8}
    (h : m.Holds start bytes) (h' : m.Holds start bytes')
    (hlength : bytes.length = bytes'.length) : bytes = bytes' := by
  rw [← h.slice, hlength, h'.slice]

/-! ## Growth -/

/-- A memory has so many pages at most, and keeps to that. -/
structure Within (m : Memory) (most : Nat) : Prop where
  pages : m.pages.size ≤ most
  limit : m.limit ≤ most

theorem Within.size_le {m : Memory} {most : Nat} (h : m.Within most) : m.size ≤ most * pageSize :=
  Nat.mul_le_mul_right _ h.pages

theorem Within.overwrite {m : Memory} {most : Nat} (h : m.Within most) (start : Nat)
    (bytes : List UInt8) : (m.overwrite start bytes).Within most where
  pages := by
    have hsize : (m.overwrite start bytes).pages.size = m.pages.size :=
      Nat.eq_of_mul_eq_mul_right (show 0 < pageSize by decide) (size_overwrite m start bytes)
    rw [hsize]
    exact h.pages
  limit := by
    rw [limit_overwrite]
    exact h.limit

/-- A memory has grown, as far as it may. -/
inductive Grown (m : Memory) : Memory → Prop
  | refl : Grown m m
  | step {m' m'' : Memory} {pages : Nat} (h : Grown m m') (hgrow : m'.grow? pages = some m'') :
      Grown m m''

theorem grow?_eq_some_iff {m m' : Memory} {pages : Nat} :
    m.grow? pages = some m' ↔
      m.pages.size + pages ≤ min m.limit maxPages ∧
        m' = { m with pages := m.pages ++ Array.replicate pages .empty } := by
  unfold grow?
  split
  · rename_i h
    constructor
    · intro heq
      exact ⟨h, (Option.some.inj heq).symm⟩
    · rintro ⟨_, rfl⟩
      rfl
  · rename_i h
    constructor
    · intro heq
      cases heq
    · rintro ⟨hle, _⟩
      exact absurd hle h

/-- New pages are behind the old ones. -/
theorem extends_of_grow? {m m' : Memory} {pages : Nat} (h : m.grow? pages = some m') :
    m'.Extends m := by
  obtain ⟨_, rfl⟩ := grow?_eq_some_iff.1 h
  refine ⟨?_, ?_⟩
  · show m.pages.size * pageSize ≤
      (m.pages ++ Array.replicate pages ByteArray.empty).size * pageSize
    rw [Array.size_append]
    exact Nat.mul_le_mul_right _ (Nat.le_add_right _ _)
  · intro i hi
    have hpage : i / pageSize < m.pages.size := (Nat.div_lt_iff_lt_mul (by decide)).2 hi
    rw [byte_eq, byte_eq, Array.getElem?_append_left hpage]

namespace Grown

variable {m m' : Memory}

theorem toExtends (h : Grown m m') : m'.Extends m := by
  induction h with
  | refl => exact .refl m
  | step h hgrow ih => exact (extends_of_grow? hgrow).trans ih

theorem trans {m'' : Memory} (h : Grown m m') (h' : Grown m' m'') : Grown m m'' := by
  induction h' with
  | refl => exact h
  | step _ hgrow ih => exact .step ih hgrow

theorem within {most : Nat} (h : Grown m m') (hm : m.Within most) : m'.Within most := by
  induction h with
  | refl => exact hm
  | step _ hgrow ih =>
      obtain ⟨hle, rfl⟩ := grow?_eq_some_iff.1 hgrow
      refine ⟨?_, ih.limit⟩
      show (_ ++ _ : Array ByteArray).size ≤ most
      rw [Array.size_append, Array.size_replicate]
      exact Nat.le_trans hle (Nat.le_trans (Nat.min_le_left _ _) ih.limit)

theorem limit (h : Grown m m') : m'.limit = m.limit := by
  induction h with
  | refl => rfl
  | step _ hgrow ih =>
      obtain ⟨_, rfl⟩ := grow?_eq_some_iff.1 hgrow
      exact ih

end Grown

/-- How many pages a memory may add. -/
def growth (m : Memory) : Nat := min m.limit maxPages - m.pages.size

theorem growth_le {m : Memory} {most : Nat} (h : m.Within most) : m.growth ≤ most := by
  have hlimit := h.limit
  unfold growth
  omega

/-- A memory has bytes up to a place, or may grow to have them, and words count all that it may
have. -/
structure HasRoom (m : Memory) (finish : Nat) : Prop where
  pages : m.pages.size ≤ m.limit
  limit : m.limit < maxPages
  fits : finish ≤ m.limit * pageSize

theorem HasRoom.lt_word {m : Memory} {finish : Nat} (h : m.HasRoom finish) : finish < 2 ^ 32 := by
  have hlimit : m.limit < 65536 := h.limit
  have hfits : finish ≤ m.limit * 65536 := h.fits
  omega

theorem HasRoom.grown {m m' : Memory} {finish : Nat} (h : m.HasRoom finish) (hgrown : m.Grown m') :
    m'.HasRoom finish := by
  have hmost : m.Within m.limit := ⟨h.pages, Nat.le_refl _⟩
  have hwithin := hgrown.within hmost
  have hlimit := hgrown.limit
  refine ⟨?_, ?_, ?_⟩
  · rw [hlimit]
    exact hwithin.pages
  · rw [hlimit]
    exact h.limit
  · rw [hlimit]
    exact h.fits

/-- A memory that has no page more has all bytes for which there is room. -/
theorem HasRoom.le_of_grow?_eq_none {m : Memory} {finish : Nat} (h : m.HasRoom finish)
    (hfull : m.grow? 1 = none) : finish ≤ m.pages.size * pageSize := by
  have hmost : ¬m.pages.size + 1 ≤ min m.limit maxPages := by
    intro hle
    rw [grow?, if_pos hle] at hfull
    cases hfull
  have hlimit := h.limit
  have hpages := h.pages
  have hall : m.limit ≤ m.pages.size := by omega
  exact Nat.le_trans h.fits (Nat.mul_le_mul_right _ hall)

/-! ## Reading -/

/-- Reading tells what is held, no more and no less. -/
theorem read_eq_ok_iff {m : Memory} {a : Address} {length : Nat} {bytes : ByteArray} :
    m.read a length = .ok bytes ↔
      bytes.size = length ∧ m.Holds a.offset.toNat bytes.toList := by
  unfold read
  constructor
  · intro h
    split at h
    · rename_i hfits
      obtain rfl := Except.ok.inj h
      have hsize := m.size_slice a.offset.toNat length
      refine ⟨hsize, ⟨?_, ?_⟩⟩
      · rw [length_toList_byteArray, hsize]
        exact hfits
      · intro i hi
        simp only [toList_byteArray, toList_slice, List.getElem_map, List.getElem_range]
    · cases h
  · rintro ⟨rfl, hfits, hcontent⟩
    rw [length_toList_byteArray] at hfits
    rw [if_pos (c := m.Fits a bytes.size) hfits]
    congr 1
    refine ByteArray.ext (Array.toList_inj.1 ?_)
    rw [toList_slice]
    refine List.ext_getElem (by simp) ?_
    intro i _ hi
    rw [← toList_byteArray] at hi
    simp only [List.getElem_map, List.getElem_range, hcontent i hi, toList_byteArray]

theorem read_of_holds {m : Memory} {a : Address} {bytes : ByteArray}
    (h : m.Holds a.offset.toNat bytes.toList) : m.read a bytes.size = .ok bytes :=
  read_eq_ok_iff.2 ⟨rfl, h⟩

theorem readRegion_eq_ok_iff {m : Memory} {r : Region} {bytes : ByteArray} :
    m.readRegion r = .ok bytes ↔
      bytes.size = r.length.toNat ∧ m.Holds r.start.offset.toNat bytes.toList := read_eq_ok_iff

/-- A word is read from its bytes. -/
theorem Holds.wordAt {m : Memory} {start : Nat} {w : UInt32} (h : m.Holds start (wordBytes w)) :
    m.wordAt start = w := by
  have hlength : (wordBytes w).length = 4 := rfl
  have h0 : m.byte start = _ := h.content 0 (by omega)
  have h1 : m.byte (start + 1) = _ := h.content 1 (by omega)
  have h2 : m.byte (start + 2) = _ := h.content 2 (by omega)
  have h3 : m.byte (start + 3) = _ := h.content 3 (by omega)
  have hw := w.toNat_lt
  simp only [wordBytes, List.getElem_cons_zero, List.getElem_cons_succ] at h0 h1 h2 h3
  rw [Memory.wordAt, h0, h1, h2, h3, ← UInt32.toNat_inj]
  simp only [UInt8.toNat_ofNat', UInt32.toNat_ofNat', Nat.shiftRight_eq_div_pow, Nat.shiftLeft_eq]
  omega

/-- What is read from a region is read from it still when memory has grown. -/
theorem readRegion_of_extends {m m' : Memory} {r : Region} {bytes : ByteArray}
    (hread : m.readRegion r = .ok bytes) (hext : m'.Extends m) : m'.readRegion r = .ok bytes := by
  obtain ⟨hsize, hholds⟩ := readRegion_eq_ok_iff.1 hread
  exact readRegion_eq_ok_iff.2 ⟨hsize, hholds.of_extends hext⟩

theorem write_of_fits {m : Memory} {a : Address} {data : ByteArray} (h : m.Fits a data.size) :
    m.write a data = .ok (m.overwrite a.offset.toNat data.toList) := if_pos h

theorem write_of_not_fits {m : Memory} {a : Address} {data : ByteArray}
    (h : ¬m.Fits a data.size) : m.write a data = .error (m.badAccess a data.size) := if_neg h

/-- A length and so many bytes behind it are an output, if the length counts something. -/
theorem outcomeAt_of_holds {m : Memory} {a : Address} {bytes : ByteArray}
    (h : m.Holds a.offset.toNat (wordBytes (UInt32.ofNat bytes.size) ++ bytes.toList))
    (hsome : 0 < bytes.size) (hsize : bytes.size < 2 ^ 31)
    (hroom : a.offset.toNat + lengthBytes.toNat < 2 ^ 32) :
    m.outcomeAt a = .ok (.payload bytes) := by
  have hfits := h.fits
  rw [List.length_append, length_toList_byteArray] at hfits
  have hlength : (UInt32.ofNat bytes.size).toNat = bytes.size :=
    UInt32.toNat_ofNat_of_lt' (Nat.lt_trans hsize (by decide))
  have hword : m.readWord a = .ok (UInt32.ofNat bytes.size) := by
    have hfour : m.Fits a 4 := Nat.le_trans (Nat.add_le_add_left (Nat.le_add_right 4 _) _) hfits
    rw [readWord, if_pos hfour, h.front.wordAt]
  have hsigned : ¬signed (UInt32.ofNat bytes.size) ≤ 0 := by
    have hcounts : signed (UInt32.ofNat bytes.size) = bytes.size := by
      rw [signed, hlength]
      exact if_pos hsize
    omega
  have hstart : a.add? lengthBytes = some ⟨a.offset + lengthBytes⟩ := if_pos hroom
  have hbytes : m.readRegion ⟨⟨a.offset + lengthBytes⟩, UInt32.ofNat bytes.size⟩ = .ok bytes := by
    refine readRegion_eq_ok_iff.2 ⟨hlength.symm, ?_⟩
    show m.Holds (a.offset + lengthBytes).toNat bytes.toList
    rw [UInt32.toNat_add, Nat.mod_eq_of_lt hroom]
    exact h.back
  rw [outcomeAt, hword]
  show (if _ then _ else _) = _
  rw [if_neg hsigned, hstart]
  show Outcome.payload <$> m.readRegion _ = _
  rw [hbytes]
  rfl

end Memory

end CompilerHost
