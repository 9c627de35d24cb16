import CompilerHost.Fault

/-! # Linear memory

The guest's memory: a growing number of pages, all zero until written. A page keeps only the bytes
up to the last one written, so a memory of the largest size costs nothing until it is used.

* `byte` is the view: the content at each place, zero where nothing was written;
* `size` is where the memory ends now, and every access is checked against it.
-/

namespace CompilerHost

/-- The number of bytes in a page. -/
def pageSize : Nat := 65536

/-- The most pages that 32-bit addresses reach. -/
def maxPages : Nat := 65536

/-- Whether a memory may start with so many pages and grow to so many, where a most is given. -/
def isPageRange (least : Nat) (most : Option Nat) : Bool :=
  least ≤ maxPages && most.all fun most => least ≤ most && most ≤ maxPages

/-- Pages of memory, and the most that there may be. -/
structure Memory where
  pages : Array ByteArray
  limit : Nat

namespace Memory

/-- A memory of so many zero pages. -/
def zeros (pages limit : Nat) : Memory := ⟨Array.replicate pages .empty, limit⟩

/-- The number of bytes at present. -/
def size (m : Memory) : Nat := m.pages.size * pageSize

/-- The byte at a place; a place that was never written holds zero. -/
def byte (m : Memory) (i : Nat) : UInt8 :=
  match m.pages[i / pageSize]? with
  | none => 0
  | some page => page[i % pageSize]?.getD 0

/-- A page with zeros up to a length. -/
def pad (page : ByteArray) : Nat → ByteArray
  | 0 => page
  | n + 1 => pad (page.push 0) n

/-- A page with one byte replaced. -/
def setInPage (page : ByteArray) (k : Nat) (b : UInt8) : ByteArray :=
  if h : k < page.size then page.set k b h
  -- up to now the page ends before this place, so what lies between becomes written zeros
  else (pad page (k - page.size)).push b

/-- The memory with the byte at a place replaced. -/
def setByte (m : Memory) (i : Nat) (b : UInt8) : Memory :=
  { m with pages := m.pages.modify (i / pageSize) fun page => setInPage page (i % pageSize) b }

/-- The memory with bytes put from a place on. -/
def overwrite (m : Memory) (start : Nat) : List UInt8 → Memory
  | [] => m
  | b :: rest => overwrite (m.setByte start b) (start + 1) rest

/-- So many bytes from a place on, behind those already collected. -/
def collect (m : Memory) (start : Nat) : Nat → ByteArray → ByteArray
  | 0, acc => acc
  | n + 1, acc => collect m (start + 1) n (acc.push (m.byte start))

/-- So many bytes from a place on. -/
def slice (m : Memory) (start length : Nat) : ByteArray := m.collect start length .empty

/-- Whether an access fits the memory. -/
def Fits (m : Memory) (a : Address) (length : Nat) : Prop := a.offset.toNat + length ≤ m.size

instance (m : Memory) (a : Address) (length : Nat) : Decidable (m.Fits a length) :=
  inferInstanceAs (Decidable (_ ≤ _))

/-- What is wrong with an access that does not fit. -/
def badAccess (m : Memory) (a : Address) (length : Nat) : BadAccess :=
  ⟨a.offset.toNat, length, m.size⟩

/-- Copies bytes out. -/
def read (m : Memory) (a : Address) (length : Nat) : Except BadAccess ByteArray :=
  if m.Fits a length then .ok (m.slice a.offset.toNat length) else .error (m.badAccess a length)

/-- Copies bytes in. -/
def write (m : Memory) (a : Address) (data : ByteArray) : Except BadAccess Memory :=
  if m.Fits a data.size then .ok (m.overwrite a.offset.toNat data.toList)
  else .error (m.badAccess a data.size)

/-- The word whose lowest byte stands at a place. -/
def wordAt (m : Memory) (i : Nat) : UInt32 :=
  UInt32.ofNat ((m.byte i).toNat + (m.byte (i + 1)).toNat <<< 8
    + (m.byte (i + 2)).toNat <<< 16 + (m.byte (i + 3)).toNat <<< 24)

/-- The four bytes of a word, the lowest first. -/
def wordBytes (w : UInt32) : List UInt8 :=
  [UInt8.ofNat w.toNat, UInt8.ofNat (w.toNat >>> 8), UInt8.ofNat (w.toNat >>> 16),
    UInt8.ofNat (w.toNat >>> 24)]

/-- Reads a little-endian word. -/
def readWord (m : Memory) (a : Address) : Except BadAccess UInt32 :=
  if m.Fits a 4 then .ok (m.wordAt a.offset.toNat) else .error (m.badAccess a 4)

/-- Reads the whole of a region. -/
def readRegion (m : Memory) (r : Region) : Except BadAccess ByteArray :=
  m.read r.start r.length.toNat

/-- Writes at the start of a region, which has to be long enough. -/
def writeRegion (m : Memory) (r : Region) (data : ByteArray) : Except GuestFault Memory :=
  if data.size ≤ r.length.toNat then (m.write r.start data).mapError .outOfBounds
  else .error (.regionOverflow r.start r.length.toNat data.size)

/-- Adds zero pages, unless that exceeds the limit. -/
def grow? (m : Memory) (pages : Nat) : Option Memory :=
  if m.pages.size + pages ≤ min m.limit maxPages then
    some { m with pages := m.pages ++ Array.replicate pages .empty }
  else none

/-- Reads bytes that have to be UTF-8. -/
def readText (m : Memory) (a : Address) (length : Nat) : Except GuestFault String := do
  let bytes ← (m.read a length).mapError .outOfBounds
  match Utf8.decode bytes with
  | .ok text => pure text
  | .error fault => throw (.undecodableText fault)

/-- Reads bytes as text, with a replacement character for whatever is not UTF-8; the flag tells
whether there was any. -/
def readTextLossy (m : Memory) (a : Address) (length : Nat) : Except BadAccess (String × Bool) :=
  (m.read a length).map Utf8.decodeLossy

/-- The number of bytes before the first zero byte, counted from a place on; none if the memory
ends first. -/
def stringLength? (m : Memory) (start : Nat) : Option Nat :=
  go start (m.size - start) 0
where
  /-- Looks at so many more bytes, with `n` seen. -/
  go (i : Nat) : Nat → Nat → Option Nat
    | 0, _ => none
    | left + 1, n => if m.byte i = 0 then some n else go (i + 1) left (n + 1)

end Memory

end CompilerHost
