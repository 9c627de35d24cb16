import CompilerHost.Text.Hex

/-! # Words, addresses and regions

The guest counts in 32-bit words, which it reads as signed or unsigned. An address is a word that
means a place in its memory, and a region is an address with the length that somebody vouched for.
-/

namespace CompilerHost

/-- The number that a word stands for in two's complement. -/
def signed (w : UInt32) : Int :=
  if w.toNat < 1 <<< 31 then w.toNat else (w.toNat : Int) - (1 <<< 32 : Nat)

/-- The word that stands for a number, modulo 2^32. -/
def wordOf (z : Int) : UInt32 := UInt32.ofNat (z % (1 <<< 32 : Nat)).toNat

/-- A place in guest memory. -/
structure Address where
  offset : UInt32
deriving DecidableEq, Repr

namespace Address

/-- The address that no allocation has. -/
def null : Address := ⟨0⟩

def isNull (a : Address) : Bool := a.offset == 0

/-- The place so many bytes further on, unless that is past the last address. -/
def add? (a : Address) (delta : UInt32) : Option Address :=
  if a.offset.toNat + delta.toNat < 1 <<< 32 then some ⟨a.offset + delta⟩ else none

/-- The address as the operator reads it. -/
def text (a : Address) : String := Text.hexNumber a.offset.toNat

end Address

/-- A stretch of guest memory, as long as it was granted. -/
structure Region where
  start : Address
  length : UInt32
deriving DecidableEq, Repr

/-- Whether a region has no bytes. -/
def Region.isEmpty (r : Region) : Bool := r.length == 0

end CompilerHost
