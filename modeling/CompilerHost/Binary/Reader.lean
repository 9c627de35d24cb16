import CompilerHost.Text.Utf8

/-! # Reading binaries

Readers take an item off the front of a byte string and give back what follows it, or fail. Numbers
are in LEB128, where padding is allowed as long as the bytes do not exceed the width.
-/

namespace CompilerHost.Binary

/-- Takes an item off the front. -/
abbrev Reader (α : Type) := List UInt8 → Option (α × List UInt8)

/-- The longest string, in bytes. -/
def maxStringBytes : Nat := 100000

/-- One byte. -/
def byte : Reader UInt8
  | [] => none
  | b :: rest => some (b, rest)

/-- So many more bytes, behind those that were taken, the latest of which is first. -/
def takeBehind (taken : List UInt8) : Nat → Reader (List UInt8)
  | 0, rest => some (taken.reverse, rest)
  | _ + 1, [] => none
  | n + 1, b :: rest => takeBehind (b :: taken) n rest

/-- So many bytes. They may be a great part of all, and are gone over just once. -/
def take (n : Nat) : Reader (List UInt8) := takeBehind [] n

/-- A number of at most so many bits. Seven bits stand in a byte, the lowest first, and the high bit
of a byte says that another follows. -/
def unsigned (bits : Nat) : Reader Nat
  | [] => none
  | b :: rest =>
    if b.toNat < 128 then if b.toNat < 1 <<< bits then some (b.toNat, rest) else none
    else if 7 < bits then
      (unsigned (bits - 7) rest).map fun (high, rest) => (b.toNat - 128 + 128 * high, rest)
    else none

/-- A number of 32 bits. -/
def u32 : Reader Nat := unsigned 32

/-- A number of 64 bits. -/
def u64 : Reader Nat := unsigned 64

/-- A number of at most so many bits in two's complement. -/
def signedNumber (bits : Nat) : Reader Int
  | [] => none
  | b :: rest =>
    if b.toNat < 128 then
      let value : Int := if b.toNat < 64 then b.toNat else (b.toNat : Int) - 128
      if bits < 7 ∧ ¬ (-(1 <<< (bits - 1) : Nat) ≤ value ∧ value < (1 <<< (bits - 1) : Nat)) then none
      else some (value, rest)
    else if 7 < bits then
      (signedNumber (bits - 7) rest).map fun (high, rest) =>
        ((b.toNat : Int) - 128 + 128 * high, rest)
    else none

/-- The bytes of a string, behind their number. -/
def stringBytes : Reader (List UInt8) := fun bytes => do
  let (n, rest) ← u32 bytes
  if n ≤ maxStringBytes then take n rest else none

/-- A string. -/
def string : Reader String := fun bytes => do
  let (content, rest) ← stringBytes bytes
  match Utf8.decodeList content with
  | .ok text => some (text, rest)
  | .error _ => none

/-- Whether a reader takes the bytes to the last. -/
def takesAll {α : Type} (r : Reader α) (bytes : List UInt8) : Bool :=
  match r bytes with
  | some (_, []) => true
  | _ => false

theorem length_byte {bytes rest : List UInt8} {b : UInt8} (h : byte bytes = some (b, rest)) :
    rest.length < bytes.length := by
  cases bytes with
  | nil => cases h
  | cons => cases h; simp

theorem takeBehind_eq (taken : List UInt8) (n : Nat) (bytes : List UInt8) :
    takeBehind taken n bytes =
      if n ≤ bytes.length then some (taken.reverse ++ bytes.take n, bytes.drop n) else none := by
  fun_induction takeBehind taken n bytes with
  | case1 => simp
  | case2 => simp
  | case3 taken n b rest ih => simp [ih]

/-- Bytes are taken off the front, if there are as many. -/
theorem take_eq (n : Nat) (bytes : List UInt8) :
    take n bytes = if n ≤ bytes.length then some (bytes.take n, bytes.drop n) else none := by
  simp [take, takeBehind_eq]

theorem length_take {n : Nat} {bytes rest content : List UInt8}
    (h : take n bytes = some (content, rest)) : rest.length ≤ bytes.length := by
  rw [take_eq] at h
  split at h
  · cases h; simp
  · cases h

/-- A number takes at least one byte. -/
theorem length_unsigned {bits n : Nat} {bytes rest : List UInt8}
    (h : unsigned bits bytes = some (n, rest)) : rest.length < bytes.length := by
  fun_induction unsigned bits bytes generalizing n rest with
  | case1 => cases h
  | case2 => cases h; simp
  | case3 => cases h
  | case4 bits b bytes _ _ ih =>
    simp only [Option.map_eq_some_iff, Prod.mk.injEq, Prod.exists] at h
    obtain ⟨_, _, hRec, _, rfl⟩ := h
    have := ih hRec
    simp only [List.length_cons]
    omega
  | case5 => cases h

end CompilerHost.Binary
