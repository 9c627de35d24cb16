import CompilerHost.Proofs.Contents

/-! # The format of results

What a result is can be said of the bytes in memory alone, with numbers that have no bound: four
bytes that count, the lowest first and in two's complement, and behind them as many bytes of output
as they say.

* `Memory.ResultAt` is that reading, with one rule for each way in which it may turn out;
* `Memory.resultAt_outcomeAt`: the host reads results so, and `Memory.ResultAt.unique` that there
  is no other way to read them;
* `Memory.outcomeAt_exact`: the host's reading is the one of the format, up to the last byte that
  an address can reach.
-/

namespace CompilerHost

/-! ## Numbers from bytes -/

/-- The number that bytes stand for, the lowest first. -/
def littleEndian : List UInt8 → Nat
  | [] => 0
  | b :: rest => b.toNat + 256 * littleEndian rest

/-- What a number counts in two's complement: the number that it is congruent to in the range
around zero. -/
def balanced (n : Nat) : Int := Int.bmod n (2 ^ 32)

theorem balanced_of_lt {n : Nat} (h : n < 2 ^ 31) : balanced n = n := by
  unfold balanced
  rw [Int.bmod_def]
  omega

theorem signed_eq_balanced (w : UInt32) : signed w = balanced w.toNat := by
  have hw := w.toNat_lt
  have h31 : 1 <<< 31 = 2 ^ 31 := rfl
  have h32 : 1 <<< 32 = 2 ^ 32 := rfl
  unfold balanced
  rw [Int.bmod_def, signed, h31, h32]
  split
  · omega
  · omega

/-- There is no address from 2^32 on. -/
theorem Address.le_of_add?_eq_none {a : Address} {delta : UInt32} (h : a.add? delta = none) :
    2 ^ 32 ≤ a.offset.toNat + delta.toNat := by
  unfold Address.add? at h
  split at h
  · cases h
  · rename_i hlast
    exact Nat.not_lt.1 hlast

namespace Memory

/-- So many bytes from a place on. -/
def bytesAt (m : Memory) (start n : Nat) : List UInt8 :=
  (List.range n).map fun i => m.byte (start + i)

/-- The number that the four bytes at a place declare. -/
def declaredAt (m : Memory) (start : Nat) : Int :=
  balanced (littleEndian (m.bytesAt start 4))

/-- What is held at a place are the bytes there. -/
theorem Holds.bytesAt_eq {m : Memory} {start : Nat} {bytes : List UInt8}
    (h : m.Holds start bytes) : m.bytesAt start bytes.length = bytes := by
  refine List.ext_getElem (by simp [bytesAt]) ?_
  intro i _ hi
  simp only [bytesAt, List.getElem_map, List.getElem_range, h.content i hi]

theorem toNat_wordAt (m : Memory) (start : Nat) :
    (m.wordAt start).toNat = littleEndian (m.bytesAt start 4) := by
  have hlist : m.bytesAt start 4 =
      [m.byte start, m.byte (start + 1), m.byte (start + 2), m.byte (start + 3)] := by
    simp [bytesAt, List.range_succ]
  have h0 := (m.byte start).toNat_lt
  have h1 := (m.byte (start + 1)).toNat_lt
  have h2 := (m.byte (start + 2)).toNat_lt
  have h3 := (m.byte (start + 3)).toNat_lt
  rw [wordAt, hlist]
  simp only [UInt32.toNat_ofNat', Nat.shiftLeft_eq, littleEndian]
  omega

theorem signed_wordAt (m : Memory) (start : Nat) :
    signed (m.wordAt start) = m.declaredAt start := by
  rw [signed_eq_balanced, toNat_wordAt, declaredAt]

/-- Four bytes that count less than half of the range declare what they count. -/
theorem Holds.declaredAt {m : Memory} {start : Nat} {front : List UInt8}
    (h : m.Holds start front) (hlength : front.length = 4) (hsmall : littleEndian front < 2 ^ 31) :
    m.declaredAt start = littleEndian front := by
  have hbytes := h.bytesAt_eq
  rw [hlength] at hbytes
  rw [Memory.declaredAt, hbytes, balanced_of_lt hsmall]

/-! ## Results -/

/-- How a result at an address reads: without its length, with a length that counts nothing, with
its output, or with an output that memory has not in full. -/
inductive ResultAt (m : Memory) (a : Address) : Except BadAccess Outcome → Prop
  | unreadable (hend : m.size < a.offset.toNat + 4) :
      ResultAt m a (.error ⟨a.offset.toNat, 4, m.size⟩)
  | nothing (hfront : a.offset.toNat + 4 ≤ m.size)
      (hdeclared : m.declaredAt a.offset.toNat ≤ 0) :
      ResultAt m a (.ok (.noPayload (m.declaredAt a.offset.toNat)))
  | output {bytes : ByteArray} (hsome : 0 < bytes.size)
      (hdeclared : m.declaredAt a.offset.toNat = bytes.size)
      (hbytes : m.Holds (a.offset.toNat + 4) bytes.toList) :
      ResultAt m a (.ok (.payload bytes))
  | pastEnd {n : Nat} (hsome : 0 < n) (hfront : a.offset.toNat + 4 ≤ m.size)
      (hdeclared : m.declaredAt a.offset.toNat = n) (hend : m.size < a.offset.toNat + 4 + n) :
      ResultAt m a (.error ⟨a.offset.toNat + 4, n, m.size⟩)

/-- An output lies in memory, behind its length. -/
theorem Holds.le_size {m : Memory} {start : Nat} {bytes : ByteArray}
    (h : m.Holds start bytes.toList) : start + bytes.size ≤ m.size := by
  rw [← length_toList_byteArray]
  exact h.fits

/-- A result reads in one way only. -/
theorem ResultAt.unique {m : Memory} {a : Address} {r r' : Except BadAccess Outcome}
    (h : m.ResultAt a r) (h' : m.ResultAt a r') : r = r' := by
  cases h with
  | unreadable hend =>
      cases h' with
      | unreadable => rfl
      | nothing hfront => omega
      | output _ _ hbytes => have hfits := hbytes.le_size; omega
      | pastEnd _ hfront => omega
  | nothing hfront hdeclared =>
      cases h' with
      | unreadable hend => omega
      | nothing => rfl
      | output hsome hcounts => omega
      | pastEnd hsome _ hcounts => omega
  | @output bytes hsome hdeclared hbytes =>
      have hfits := hbytes.le_size
      cases h' with
      | unreadable hend => omega
      | nothing _ hnone => omega
      | @output bytes' _ hdeclared' hbytes' =>
          have hlength : bytes.toList.length = bytes'.toList.length := by
            rw [length_toList_byteArray, length_toList_byteArray]
            omega
          have hsame := hbytes.unique hbytes' hlength
          rw [toList_byteArray, toList_byteArray] at hsame
          rw [ByteArray.ext (Array.toList_inj.1 hsame)]
      | pastEnd _ _ hcounts hend => omega
  | pastEnd hsome hfront hdeclared hend =>
      cases h' with
      | unreadable => omega
      | nothing _ hnone => omega
      | output _ hcounts hbytes => have hfits := hbytes.le_size; omega
      | @pastEnd n' _ _ hdeclared' =>
          obtain rfl := Int.ofNat.inj (hdeclared.symm.trans hdeclared')
          rfl

theorem readWord_of_fits {m : Memory} {a : Address} (h : m.Fits a 4) :
    m.readWord a = .ok (m.wordAt a.offset.toNat) := if_pos h

theorem readRegion_of_not_fits {m : Memory} {r : Region} (h : ¬m.Fits r.start r.length.toNat) :
    m.readRegion r = .error (m.badAccess r.start r.length.toNat) := if_neg h

/-- An output is read behind its length if memory has it in full, and is refused if not. -/
theorem resultAt_readRegion {m : Memory} {a start : Address} {w : UInt32}
    (hfront : a.offset.toNat + 4 ≤ m.size) (hstart : a.add? lengthBytes = some start)
    (hsome : 0 < w.toNat) (hdeclared : m.declaredAt a.offset.toNat = w.toNat) :
    m.ResultAt a (.payload <$> m.readRegion ⟨start, w⟩) := by
  have hoffset : start.offset.toNat = a.offset.toNat + 4 := Address.offset_add? hstart
  by_cases hfits : m.Fits start w.toNat
  · obtain ⟨bytes, hread⟩ : ∃ bytes, m.readRegion ⟨start, w⟩ = .ok bytes := ⟨_, if_pos hfits⟩
    obtain ⟨hlength, hbytes⟩ := readRegion_eq_ok_iff.1 hread
    simp only at hlength hbytes
    rw [hoffset] at hbytes
    rw [← hlength] at hsome hdeclared
    rw [hread]
    exact .output hsome hdeclared hbytes
  · have hend : m.size < a.offset.toNat + 4 + w.toNat := by
      rw [← hoffset]
      exact Nat.not_le.1 hfits
    rw [readRegion_of_not_fits hfits, badAccess, hoffset]
    exact .pastEnd hsome hfront hdeclared hend

/-- The host reads results by their format, in every memory that addresses reach. -/
theorem resultAt_outcomeAt {m : Memory} (hsize : m.size ≤ 2 ^ 32) (a : Address) :
    m.ResultAt a (m.outcomeAt a) := by
  by_cases hfront : m.Fits a 4
  · have hword := readWord_of_fits hfront
    have hsigned := m.signed_wordAt a.offset.toNat
    generalize m.wordAt a.offset.toNat = w at hword hsigned
    rw [outcomeAt, hword]
    change m.ResultAt a (if signed w ≤ 0 then _ else _)
    by_cases hnone : signed w ≤ 0
    · rw [if_pos hnone]
      rw [hsigned] at hnone ⊢
      exact .nothing hfront hnone
    · have hcounts := signed_of_pos (Int.not_le.1 hnone)
      have hsome : 0 < w.toNat := by omega
      rw [hsigned] at hcounts
      rw [if_neg hnone]
      cases hstart : a.add? lengthBytes with
      | some start => exact resultAt_readRegion hfront hstart hsome hcounts
      | none =>
          -- the length ends with the memory, as an address can be no greater
          have hlast : 2 ^ 32 ≤ a.offset.toNat + 4 := Address.le_of_add?_eq_none hstart
          exact .pastEnd hsome hfront hcounts (by omega)
  · have hword : m.readWord a = .error (m.badAccess a 4) := if_neg hfront
    rw [outcomeAt, hword]
    exact .unreadable (Nat.not_le.1 hfront)

/-- The host reads every result as the format has it, without a length that wraps around or an
output that is cut short; and an output that was left behind its length is what it reads. -/
theorem outcomeAt_exact {m : Memory} (hsize : m.size ≤ 2 ^ 32) (a : Address) :
    (∀ r, m.outcomeAt a = r ↔ m.ResultAt a r) ∧
    ∀ (front : List UInt8) (bytes : ByteArray), front.length = 4 →
      littleEndian front = bytes.size → 0 < bytes.size → bytes.size < 2 ^ 31 →
      m.Holds a.offset.toNat (front ++ bytes.toList) → m.outcomeAt a = .ok (.payload bytes) := by
  have hresult := resultAt_outcomeAt hsize a
  refine ⟨?_, ?_⟩
  · intro r
    constructor
    · rintro rfl
      exact hresult
    · exact hresult.unique
  · intro front bytes hlength hcounts hsome hsmall hholds
    refine hresult.unique (.output hsome ?_ ?_)
    · rw [← hcounts]
      exact hholds.front.declaredAt hlength (hcounts ▸ hsmall)
    · rw [← hlength]
      exact hholds.back

/-- A memory of the greatest size that ends in some bytes. -/
def endingIn (bytes : List UInt8) : Memory :=
  (zeros maxPages maxPages).overwrite (2 ^ 32 - bytes.length) bytes

theorem size_zeros (pages limit : Nat) : (zeros pages limit).size = pages * pageSize := by
  rw [size, zeros, Array.size_replicate]

theorem size_full : (zeros maxPages maxPages).size = 2 ^ 32 := by
  rw [size_zeros]
  simp only [maxPages, pageSize, Nat.reduceMul, Nat.reducePow]

theorem size_endingIn (bytes : List UInt8) : (endingIn bytes).size = 2 ^ 32 := by
  rw [endingIn, size_overwrite, size_full]

theorem holds_endingIn {bytes : List UInt8} (h : bytes.length ≤ 2 ^ 32) :
    (endingIn bytes).Holds (2 ^ 32 - bytes.length) bytes := by
  refine holds_overwrite _ ?_
  rw [size_full]
  omega

/-- An output may end with the last byte that there can be. If the length is where it would end,
there is none, for all that the length says. -/
theorem outcomeAt_exact_endingIn :
    (endingIn [1, 0, 0, 0, 7]).outcomeAt ⟨0xFFFFFFFB⟩ = .ok (.payload ⟨#[7]⟩) ∧
    (endingIn [1, 0, 0, 0]).outcomeAt ⟨0xFFFFFFFC⟩ = .error ⟨2 ^ 32, 1, 2 ^ 32⟩ := by
  constructor
  · have hbytes : (⟨#[7]⟩ : ByteArray).toList = [7] := toList_byteArray _
    have hholds : (endingIn [1, 0, 0, 0, 7]).Holds (2 ^ 32 - 5) [1, 0, 0, 0, 7] :=
      holds_endingIn (by decide)
    have hexact := outcomeAt_exact (Nat.le_of_eq (size_endingIn [1, 0, 0, 0, 7])) ⟨0xFFFFFFFB⟩
    refine hexact.2 [1, 0, 0, 0] ⟨#[7]⟩ rfl rfl (by decide) (by decide) ?_
    rw [hbytes]
    exact hholds
  · have hsize := size_endingIn [1, 0, 0, 0]
    have hholds : (endingIn [1, 0, 0, 0]).Holds (2 ^ 32 - 4) [1, 0, 0, 0] :=
      holds_endingIn (by decide)
    have hexact := outcomeAt_exact (Nat.le_of_eq hsize) ⟨0xFFFFFFFC⟩
    have hpast : (endingIn [1, 0, 0, 0]).ResultAt ⟨0xFFFFFFFC⟩ (.error ⟨2 ^ 32, 1, _⟩) :=
      .pastEnd Nat.one_pos (by rw [hsize]; decide) (hholds.declaredAt rfl (by decide))
        (by rw [hsize]; decide)
    rw [hsize] at hpast
    exact (hexact.1 _).2 hpast

end Memory

end CompilerHost
