import CompilerHost.Proofs.Contents
import Mathlib.Data.List.Induction

/-! # Memory over its history

A memory is read, written and made larger, by host and guest, in any order. What it answers is
settled by its first content and by what was done to it since.

* `Memory.byte_perform`: what one access does to the byte at a place;
* `Memory.byte_after`: behind any history stands at each place what was put there last, or else what
  stood there at first, or else zero;
* `Memory.obeys_after`: behind any history, an access succeeds exactly if it ends where memory ends
  now or before; it reads what was put last, writes its own stretch and nothing else, and changes
  nothing if it fails.
-/

namespace CompilerHost

namespace Memory

/-! ## Accesses -/

/-- Something that is done to a memory. -/
inductive Access where
  | read (a : Address) (length : UInt32)
  | readWord (a : Address)
  | readRegion (r : Region)
  | write (a : Address) (data : ByteArray)
  | writeRegion (r : Region) (data : ByteArray)
  | grow (pages : Nat)

/-- What a memory answers. -/
inductive Answer where
  | bytes (content : ByteArray)
  | word (w : UInt32)
  | written
  /-- There were so many pages before; if there are none to be had, no number is given. -/
  | grown (before : Option Nat)

/-- The answer to an access, and the memory behind it. -/
def perform (m : Memory) : Access → Except GuestFault Answer × Memory
  | .read a length => (((m.read a length.toNat).map .bytes).mapError .outOfBounds, m)
  | .readWord a => (((m.readWord a).map .word).mapError .outOfBounds, m)
  | .readRegion r => (((m.readRegion r).map .bytes).mapError .outOfBounds, m)
  | .write a data =>
    match m.write a data with
    | .ok written => (.ok .written, written)
    | .error access => (.error (.outOfBounds access), m)
  | .writeRegion r data =>
    match m.writeRegion r data with
    | .ok written => (.ok .written, written)
    | .error fault => (.error fault, m)
  | .grow pages =>
    match m.grow? pages with
    | some larger => (.ok (.grown (some m.pages.size)), larger)
    | none => (.ok (.grown none), m)

/-- The memory behind a history of accesses. -/
def after (m : Memory) (history : List Access) : Memory :=
  history.foldl (fun m a => (m.perform a).2) m

theorem after_concat (m : Memory) (history : List Access) (a : Access) :
    m.after (history ++ [a]) = ((m.after history).perform a).2 := by
  rw [after, List.foldl_append]
  rfl

/-! ## What was put last -/

/-- The byte that a stretch of data puts at a place, if the stretch fits a memory of that size. -/
def stretch? (size : Nat) (a : Address) (data : ByteArray) (i : Nat) : Option UInt8 :=
  if a.offset.toNat + data.size ≤ size ∧ a.offset.toNat ≤ i then data.toList[i - a.offset.toNat]?
  else none

/-- The byte that an access puts at a place of a memory of that size, if it does. -/
def Access.put? (size i : Nat) : Access → Option UInt8
  | .write a data => stretch? size a data i
  | .writeRegion r data =>
    if data.size ≤ r.length.toNat then stretch? size r.start data i else none
  | .read .. | .readWord _ | .readRegion _ | .grow _ => none

/-- A history with the size of memory at each access. -/
def sized (m : Memory) : List Access → List (Nat × Access)
  | [] => []
  | a :: history => (m.size, a) :: (m.perform a).2.sized history

/-- The byte that a history put at a place last. Where it put none stands what stood there at first;
places that came later stand at zero. -/
def latest (m : Memory) (history : List Access) (i : Nat) : UInt8 :=
  ((m.sized history).reverse.findSome? fun made => made.2.put? made.1 i).getD
    (if i < m.size then m.byte i else 0)

theorem sized_concat (m : Memory) (history : List Access) (a : Access) :
    m.sized (history ++ [a]) = m.sized history ++ [((m.after history).size, a)] := by
  induction history generalizing m with
  | nil => rfl
  | cons first history ih =>
      have hrest := ih (m.perform first).2
      rw [List.cons_append, sized, hrest]
      rfl

theorem latest_nil (m : Memory) (i : Nat) :
    m.latest [] i = if i < m.size then m.byte i else 0 := by
  rw [latest, sized, List.reverse_nil, List.findSome?_nil, Option.getD_none]

theorem latest_concat (m : Memory) (history : List Access) (a : Access) (i : Nat) :
    m.latest (history ++ [a]) i =
      (a.put? (m.after history).size i).getD (m.latest history i) := by
  rw [latest, sized_concat, List.reverse_append, List.reverse_singleton, List.singleton_append,
    List.findSome?_cons]
  cases hput : a.put? (m.after history).size i with
  | none => rw [Option.getD_none, latest]
  | some b => rw [Option.getD_some, Option.getD_some]

/-! ## One access -/

/-- Behind its end a memory has nothing but zeros. -/
theorem byte_of_size_le {m : Memory} {i : Nat} (h : m.size ≤ i) : m.byte i = 0 := by
  have hpage : m.pages.size ≤ i / pageSize := (Nat.le_div_iff_mul_le (by decide)).2 h
  rw [byte_eq, Array.getElem?_eq_none hpage]
  rfl

/-- A larger memory has zeros where the smaller one ended. -/
theorem byte_of_grow? {m m' : Memory} {pages : Nat} (h : m.grow? pages = some m') (i : Nat) :
    m'.byte i = m.byte i := by
  -- within the old size bytes are kept; past it there were none, which read as zero
  by_cases hin : i < m.size
  · exact (extends_of_grow? h).byte i hin
  · have hpast : m.pages.size ≤ i / pageSize :=
      (Nat.le_div_iff_mul_le (by decide)).2 (Nat.le_of_not_lt hin)
    obtain ⟨_, rfl⟩ := grow?_eq_some_iff.1 h
    rw [byte_of_size_le (Nat.le_of_not_lt hin), byte_eq, Array.getElem?_append_right hpast]
    -- the page is a new one or none, and reads as zero either way
    by_cases hnew : i / pageSize - m.pages.size < pages
    · rw [Array.getElem?_replicate, if_pos hnew]
      rfl
    · rw [Array.getElem?_replicate, if_neg hnew]
      rfl

theorem size_of_grow? {m m' : Memory} {pages : Nat} (h : m.grow? pages = some m') :
    m'.size = m.size + pages * pageSize := by
  obtain ⟨_, rfl⟩ := grow?_eq_some_iff.1 h
  show (m.pages ++ Array.replicate pages ByteArray.empty).size * pageSize = _
  rw [Array.size_append, Array.size_replicate, Nat.add_mul]
  rfl

/-- A stretch of data that fits replaces its bytes and leaves all others. -/
theorem byte_overwrite_stretch {m : Memory} {a : Address} {data : ByteArray}
    (h : m.Fits a data.size) (i : Nat) :
    (m.overwrite a.offset.toNat data.toList).byte i =
      (stretch? m.size a data i).getD (m.byte i) := by
  have hfits : a.offset.toNat + data.toList.length ≤ m.size := by
    rw [length_toList_byteArray]
    exact h
  rw [byte_overwrite m hfits, stretch?]
  by_cases hlow : a.offset.toNat ≤ i
  · rw [if_pos ⟨h, hlow⟩]
    by_cases hhigh : i - a.offset.toNat < data.toList.length
    · rw [dif_pos ⟨hlow, hhigh⟩, List.getElem?_eq_getElem hhigh]
      rfl
    · rw [dif_neg (fun hin => hhigh hin.2), List.getElem?_eq_none (Nat.le_of_not_lt hhigh)]
      rfl
  · rw [dif_neg (fun hin => hlow hin.1), if_neg (fun hin => hlow hin.2)]
    rfl

theorem stretch?_of_not_fits {m : Memory} {a : Address} {data : ByteArray}
    (h : ¬m.Fits a data.size) (i : Nat) : stretch? m.size a data i = none :=
  if_neg fun hin => h hin.1

theorem perform_write_of_fits {m : Memory} {a : Address} {data : ByteArray}
    (h : m.Fits a data.size) :
    m.perform (.write a data) = (.ok .written, m.overwrite a.offset.toNat data.toList) := by
  simp only [perform, write_of_fits h]

theorem perform_write_of_not_fits {m : Memory} {a : Address} {data : ByteArray}
    (h : ¬m.Fits a data.size) :
    m.perform (.write a data) = (.error (.outOfBounds (m.badAccess a data.size)), m) := by
  simp only [perform, write_of_not_fits h]

/-- A write that its region has room for is a write like any other. -/
theorem perform_writeRegion_of_room (m : Memory) {r : Region} {data : ByteArray}
    (h : data.size ≤ r.length.toNat) :
    m.perform (.writeRegion r data) = m.perform (.write r.start data) := by
  simp only [perform, writeRegion, if_pos h]
  cases m.write r.start data with
  | ok written => rfl
  | error access => rfl

theorem perform_writeRegion_of_no_room (m : Memory) {r : Region} {data : ByteArray}
    (h : ¬data.size ≤ r.length.toNat) :
    m.perform (.writeRegion r data) =
      (.error (.regionOverflow r.start r.length.toNat data.size), m) := by
  simp only [perform, writeRegion, if_neg h]

theorem byte_perform_write (m : Memory) (a : Address) (data : ByteArray) (i : Nat) :
    (m.perform (.write a data)).2.byte i = (stretch? m.size a data i).getD (m.byte i) := by
  by_cases hfits : m.Fits a data.size
  · rw [perform_write_of_fits hfits]
    exact byte_overwrite_stretch hfits i
  · rw [perform_write_of_not_fits hfits, stretch?_of_not_fits hfits]
    rfl

/-- An access replaces the byte at a place by the one that it puts there, if it puts one there. -/
theorem byte_perform (m : Memory) (a : Access) (i : Nat) :
    (m.perform a).2.byte i = (a.put? m.size i).getD (m.byte i) := by
  cases a with
  | read a length => rfl
  | readWord a => rfl
  | readRegion r => rfl
  | write a data => exact byte_perform_write m a data i
  | writeRegion r data =>
      -- without room in the region nothing is put, even where memory would have held it
      by_cases hroom : data.size ≤ r.length.toNat
      · rw [perform_writeRegion_of_room m hroom, Access.put?, if_pos hroom]
        exact byte_perform_write m r.start data i
      · rw [perform_writeRegion_of_no_room m hroom, Access.put?, if_neg hroom]
        rfl
  | grow pages =>
      simp only [perform, Access.put?]
      cases hgrow : m.grow? pages with
      | none => rfl
      | some larger => exact byte_of_grow? hgrow i

/-! ## All accesses -/

/-- The last that was put at a place is what stands there. The induction is on the history from its
end, so that one more access is the latest. -/
theorem byte_after (m : Memory) (history : List Access) (i : Nat) :
    (m.after history).byte i = m.latest history i := by
  induction history using List.reverseRecOn with
  | nil =>
      by_cases hin : i < m.size
      · rw [latest_nil, if_pos hin, after, List.foldl_nil]
      · rw [latest_nil, if_neg hin, after, List.foldl_nil,
          byte_of_size_le (Nat.le_of_not_lt hin)]
  | append_singleton history a ih => rw [after_concat, byte_perform, latest_concat, ih]

/-- What a reading of a stretch answers, where `content` is what stands at each place: the bytes in
order, if memory goes so far, and else how far it goes. -/
def ReadsStretch (now : Memory) (content : Nat → UInt8) (a : Address) (length : Nat)
    (answer : Except GuestFault Answer) : Prop :=
  if a.offset.toNat + length ≤ now.size then
    ∃ bytes, answer = .ok (.bytes bytes) ∧
      bytes.toList = (List.range length).map fun k => content (a.offset.toNat + k)
  else answer = .error (.outOfBounds ⟨a.offset.toNat, length, now.size⟩)

/-- What a writing of a stretch answers and leaves: its bytes in their place and all others as they
were, if memory goes so far, and else how far it goes and the same memory. -/
def WritesStretch (now next : Memory) (a : Address) (data : ByteArray)
    (answer : Except GuestFault Answer) : Prop :=
  if a.offset.toNat + data.size ≤ now.size then
    answer = .ok .written ∧ next.Holds a.offset.toNat data.toList ∧
      now.SameOutside next a.offset.toNat data.size
  else answer = .error (.outOfBounds ⟨a.offset.toNat, data.size, now.size⟩) ∧ next = now

/-- What a reading of a word answers, where `content` is what stands at each place. -/
def ReadsWord (now : Memory) (content : Nat → UInt8) (a : Address)
    (answer : Except GuestFault Answer) : Prop :=
  if a.offset.toNat + 4 ≤ now.size then
    ∃ w, answer = .ok (.word w) ∧
      wordBytes w = (List.range 4).map fun k => content (a.offset.toNat + k)
  else answer = .error (.outOfBounds ⟨a.offset.toNat, 4, now.size⟩)

/-- What each access answers and leaves, where `content` is what stands at each place. -/
def Access.Obeys (now next : Memory) (content : Nat → UInt8) (answer : Except GuestFault Answer) :
    Access → Prop
  | .read a length => now.ReadsStretch content a length.toNat answer ∧ next = now
  | .readRegion r => now.ReadsStretch content r.start r.length.toNat answer ∧ next = now
  | .readWord a => now.ReadsWord content a answer ∧ next = now
  | .write a data => now.WritesStretch next a data answer
  | .writeRegion r data =>
    -- the room in the region comes first, wherever the region lies
    if r.length.toNat < data.size then
      answer = .error (.regionOverflow r.start r.length.toNat data.size) ∧ next = now
    else now.WritesStretch next r.start data answer
  | .grow pages =>
    if now.pages.size + pages ≤ min now.limit maxPages then
      answer = .ok (.grown (some now.pages.size)) ∧ next.size = now.size + pages * pageSize ∧
        ∀ i, next.byte i = if i < now.size then now.byte i else 0
    else answer = .ok (.grown none) ∧ next = now

/-- A word has the bytes from which it was read. -/
theorem wordBytes_wordAt (m : Memory) (start : Nat) :
    wordBytes (m.wordAt start) = (List.range 4).map fun k => m.byte (start + k) := by
  have h0 := (m.byte start).toNat_lt
  have h1 := (m.byte (start + 1)).toNat_lt
  have h2 := (m.byte (start + 2)).toNat_lt
  have h3 := (m.byte (start + 3)).toNat_lt
  have hbytes : (List.range 4).map (fun k => m.byte (start + k)) =
      [m.byte start, m.byte (start + 1), m.byte (start + 2), m.byte (start + 3)] := rfl
  rw [hbytes]
  simp only [wordBytes, wordAt, List.cons.injEq, and_true, ← UInt8.toNat_inj,
    UInt8.toNat_ofNat', UInt32.toNat_ofNat', Nat.shiftRight_eq_div_pow, Nat.shiftLeft_eq]
  omega

/-- Reading a stretch tells what stands there. -/
theorem readsStretch_read (m : Memory) (a : Address) (length : Nat) :
    m.ReadsStretch m.byte a length (((m.read a length).map .bytes).mapError .outOfBounds) := by
  unfold ReadsStretch
  split
  · rename_i hfits
    have hread : m.read a length = .ok (m.slice a.offset.toNat length) := if_pos hfits
    refine ⟨m.slice a.offset.toNat length, by rw [hread]; rfl, ?_⟩
    rw [toList_byteArray]
    exact m.toList_slice a.offset.toNat length
  · rename_i hfits
    have hread : m.read a length = .error (m.badAccess a length) := if_neg hfits
    rw [hread]
    rfl

theorem writesStretch_write (m : Memory) (a : Address) (data : ByteArray) :
    m.WritesStretch (m.perform (.write a data)).2 a data (m.perform (.write a data)).1 := by
  unfold WritesStretch
  split
  · rename_i hfits
    have hlength : a.offset.toNat + data.toList.length ≤ m.size := by
      rw [length_toList_byteArray]
      exact hfits
    have hsame := sameOutside_overwrite m hlength
    rw [length_toList_byteArray] at hsame
    rw [perform_write_of_fits hfits]
    exact ⟨rfl, holds_overwrite m hlength, hsame⟩
  · rename_i hfits
    rw [perform_write_of_not_fits hfits]
    exact ⟨rfl, rfl⟩

theorem readsWord_readWord (m : Memory) (a : Address) :
    m.ReadsWord m.byte a (((m.readWord a).map .word).mapError .outOfBounds) := by
  unfold ReadsWord
  split
  · rename_i hfits
    have hread : m.readWord a = .ok (m.wordAt a.offset.toNat) := if_pos hfits
    refine ⟨m.wordAt a.offset.toNat, by rw [hread]; rfl, ?_⟩
    exact m.wordBytes_wordAt a.offset.toNat
  · rename_i hfits
    have hread : m.readWord a = .error (m.badAccess a 4) := if_neg hfits
    rw [hread]
    rfl

/-- One access obeys, whatever memory it meets. -/
theorem obeys_perform (m : Memory) (a : Access) :
    a.Obeys m (m.perform a).2 m.byte (m.perform a).1 := by
  cases a with
  | read a length => exact ⟨m.readsStretch_read a length.toNat, rfl⟩
  | readRegion r => exact ⟨m.readsStretch_read r.start r.length.toNat, rfl⟩
  | readWord a => exact ⟨m.readsWord_readWord a, rfl⟩
  | write a data => exact m.writesStretch_write a data
  | writeRegion r data =>
      by_cases hover : r.length.toNat < data.size
      · rw [Access.Obeys, if_pos hover, perform_writeRegion_of_no_room m (Nat.not_le.2 hover)]
        exact ⟨rfl, rfl⟩
      · rw [Access.Obeys, if_neg hover, perform_writeRegion_of_room m (Nat.le_of_not_lt hover)]
        exact m.writesStretch_write r.start data
  | grow pages =>
      by_cases hlimit : m.pages.size + pages ≤ min m.limit maxPages
      · have hgrow : m.grow? pages = some { m with
            pages := m.pages ++ Array.replicate pages .empty } := if_pos hlimit
        have hsize := size_of_grow? hgrow
        have hbyte := byte_of_grow? hgrow
        rw [Access.Obeys, if_pos hlimit, perform, hgrow]
        refine ⟨rfl, hsize, ?_⟩
        intro i
        by_cases hin : i < m.size
        · rw [if_pos hin]
          exact hbyte i
        · rw [if_neg hin]
          exact (hbyte i).trans (byte_of_size_le (Nat.le_of_not_lt hin))
      · have hgrow : m.grow? pages = none := if_neg hlimit
        rw [Access.Obeys, if_neg hlimit, perform, hgrow]
        exact ⟨rfl, rfl⟩

/-- Behind any history, and whatever that was, an access of so many bytes succeeds exactly if it
ends where memory ends now or before. It reads what was put last at each place, it writes its own
stretch and nothing else, and if it fails it says where memory ends and changes nothing. -/
theorem obeys_after (m : Memory) (history : List Access) (a : Access) :
    a.Obeys (m.after history) (m.after (history ++ [a])) (m.latest history)
      ((m.after history).perform a).1 := by
  have hcontent : (m.after history).byte = m.latest history := funext (m.byte_after history)
  rw [after_concat, ← hcontent]
  exact obeys_perform (m.after history) a

end Memory

end CompilerHost
