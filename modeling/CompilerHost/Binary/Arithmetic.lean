import CompilerHost.Fault

/-! # Arithmetic on bits

Values are handled by their bits, as natural numbers below a power of two. An integer of a width is
read with or without a sign, and what leaves its range comes back modulo that power. A number with a
fraction follows IEEE 754: it is rounded to the nearest there is, and of two to the even one.
-/

namespace CompilerHost.Binary

/-! ## Integers -/

/-- How the bits of an integer are read. -/
inductive Sign where
  | signed
  | unsigned
deriving DecidableEq, Repr

namespace Sign

/-- The number that so many bits stand for. -/
def number (s : Sign) (width bits : Nat) : Int :=
  match s with
  | .signed => (bits : Int).bmod (1 <<< width)
  | .unsigned => bits

/-- The least number of a width. -/
def least (s : Sign) (width : Nat) : Int :=
  match s with
  | .signed => -(1 <<< (width - 1) : Nat)
  | .unsigned => 0

/-- The greatest number of a width. -/
def greatest (s : Sign) (width : Nat) : Int :=
  match s with
  | .signed => (1 <<< (width - 1) : Nat) - 1
  | .unsigned => (1 <<< width : Nat) - 1

/-- Whether a number has bits of its own. -/
def holds (s : Sign) (width : Nat) (z : Int) : Bool := s.least width ≤ z && z ≤ s.greatest width

end Sign

/-- The bits of a number, modulo the power of two that the width is for. -/
def bitsOf (width : Nat) (z : Int) : Nat := (z % (1 <<< width : Nat)).toNat

/-- The bits of a number, or of the nearest that there is. -/
def clamped (s : Sign) (width : Nat) (z : Int) : Nat :=
  bitsOf width (max (s.least width) (min z (s.greatest width)))

/-- The same number in another width. -/
def resized (s : Sign) (origin target bits : Nat) : Nat := bitsOf target (s.number origin bits)

/-- How two numbers compare. -/
inductive Relation where
  | equal
  | notEqual
  | less
  | greater
  | atMost
  | atLeast
deriving DecidableEq, Repr

/-- Whether two integers compare like that. -/
def Relation.holds (r : Relation) (a b : Int) : Bool :=
  match r with
  | .equal => a = b
  | .notEqual => a ≠ b
  | .less => a < b
  | .greater => b < a
  | .atMost => a ≤ b
  | .atLeast => b ≤ a

/-- The number of zeros above the highest one. -/
def leadingZeros (width bits : Nat) : Nat := if bits = 0 then width else width - 1 - bits.log2

/-- The number of zeros below the lowest one. -/
def trailingZeros (width bits : Nat) : Nat :=
  if bits = 0 then width else (bits ^^^ (bits - 1)).log2

/-- The number of ones. -/
def ones (width bits : Nat) : Nat := (List.range width).countP bits.testBit

/-- Turns the bits of a width to the left, where those that leave come in again. -/
def rotateLeft (width a b : Nat) : Nat :=
  let count := b % width
  (a <<< count ||| a >>> (width - count)) % (1 <<< width)

/-- Turns the bits of a width to the right. -/
def rotateRight (width a b : Nat) : Nat := rotateLeft width a (width - b % width)

/-- Moves bits up by a count modulo the width. -/
def shiftLeft (width a b : Nat) : Nat := (a <<< (b % width)) % (1 <<< width)

/-- Moves bits down by a count modulo the width; the sign stays. -/
def shiftRight (s : Sign) (width a b : Nat) : Nat := bitsOf width (s.number width a >>> (b % width))

/-- The quotient, rounded towards zero. -/
def quotient (s : Sign) (width a b : Nat) : Except Trap Nat :=
  if b = 0 then .error .divisionByZero
  else
    let z := (s.number width a).tdiv (s.number width b)
    if s.holds width z then .ok (bitsOf width z) else .error .integerOverflow

/-- What the quotient leaves, with the sign of the dividend. -/
def remainder (s : Sign) (width a b : Nat) : Except Trap Nat :=
  if b = 0 then .error .divisionByZero
  else .ok (bitsOf width ((s.number width a).tmod (s.number width b)))

/-! ## Numbers with a fraction -/

/-- How exact a number with a fraction is. -/
inductive Precision where
  | single
  | double
deriving DecidableEq, Repr

namespace Precision

/-- The number of bits. -/
def width : Precision → Nat
  | .single => 32
  | .double => 64

/-- The bit of the sign. -/
def signBit (p : Precision) : Nat := 1 <<< (p.width - 1)

/-- The number that bits stand for; all of the lesser precision are among those of the greater. -/
def number (p : Precision) (bits : Nat) : Float :=
  match p with
  | .single => (Float32.ofBits (UInt32.ofNat bits)).toFloat
  | .double => Float.ofBits (UInt64.ofNat bits)

/-- The bits of a number. -/
def bitsOf (p : Precision) (x : Float) : Nat :=
  match p with
  | .single => x.toFloat32.toBits.toNat
  | .double => x.toBits.toNat

/-- The bits without their sign. -/
def magnitude (p : Precision) (bits : Nat) : Nat := bits % p.signBit

/-- The bits with the other sign. -/
def negated (p : Precision) (bits : Nat) : Nat := bits ^^^ p.signBit

/-- The first number with the sign of the second. -/
def withSign (p : Precision) (a b : Nat) : Nat :=
  p.magnitude a + (if p.signBit ≤ b then p.signBit else 0)

/-- An operation on one number. The greater precision has more than twice the digits of the lesser,
so rounding a second time gives what rounding once would give. -/
def unary (p : Precision) (f : Float → Float) (a : Nat) : Nat := p.bitsOf (f (p.number a))

/-- An operation on two numbers. -/
def binary (p : Precision) (f : Float → Float → Float) (a b : Nat) : Nat :=
  p.bitsOf (f (p.number a) (p.number b))

/-- Whether two numbers compare like that; what is no number differs from everything. -/
def compare (p : Precision) (r : Relation) (a b : Nat) : Bool :=
  let (x, y) := (p.number a, p.number b)
  match r with
  | .equal => x == y
  | .notEqual => !(x == y)
  | .less => x < y
  | .greater => y < x
  | .atMost => x ≤ y
  | .atLeast => y ≤ x

/-- The bits of what is no number. -/
def notANumber (p : Precision) : Nat := p.bitsOf (0.0 / 0.0)

def isNaN (p : Precision) (a : Nat) : Bool := (p.number a).isNaN

/-- The lesser of two numbers, where zero with a minus is less than without. -/
def lesser (p : Precision) (a b : Nat) : Nat :=
  if p.isNaN a || p.isNaN b then p.notANumber
  else if p.compare .less a b then a
  else if p.compare .less b a then b
  else a ||| b

/-- The greater of two numbers, where zero without a minus is greater than with one. -/
def greater (p : Precision) (a b : Nat) : Nat :=
  if p.isNaN a || p.isNaN b then p.notANumber
  else if p.compare .less a b then b
  else if p.compare .less b a then a
  else a &&& b

/-- Cuts the fraction off. -/
def truncated (p : Precision) (a : Nat) : Nat :=
  p.withSign (p.unary (fun x => if x < 0.0 then x.ceil else x.floor) a) a

/-- A number from which on there are no fractions. -/
def wholeFrom : Float := 4503599627370496.0

/-- The nearest number without a fraction, of two the even one. -/
def nearest (p : Precision) (a : Nat) : Nat :=
  let x := p.number (p.magnitude a)
  -- the sum has no room for a fraction, and is rounded as wanted
  if x < wholeFrom then p.withSign (p.bitsOf (x + wholeFrom - wholeFrom)) a else a

/-- The integer part, if the bits stand for a number; whatever is too great is past every width. -/
def whole? (p : Precision) (a : Nat) : Option Int :=
  let x := p.number a
  if x.isNaN then none
  else
    let bits := x.toBits.toNat
    let exponent := (bits >>> 52) % (1 <<< 11)
    let significand := bits % (1 <<< 52) + (1 <<< 52)
    let size :=
      if exponent < 1023 then 0
      else if 1075 ≤ exponent then significand <<< (exponent - 1075)
      else significand >>> (1075 - exponent)
    some (if bits < 1 <<< 63 then (size : Int) else -(size : Int))

/-- The integer part in so many bits. -/
def toInteger (p : Precision) (s : Sign) (width a : Nat) : Except Trap Nat :=
  match p.whole? a with
  | none => .error .noInteger
  | some z => if s.holds width z then .ok (Binary.bitsOf width z) else .error .integerOverflow

/-- The integer part in so many bits, or the nearest that there is. -/
def toNearestInteger (p : Precision) (s : Sign) (width a : Nat) : Nat :=
  match p.whole? a with
  | none => 0
  | some z => clamped s width z

/-- An integer of at most 64 bits as a number with a fraction. -/
def ofInteger (p : Precision) (z : Int) : Nat :=
  let size := UInt64.ofNat z.natAbs
  let bits :=
    match p with
    | .single => size.toFloat32.toBits.toNat
    | .double => size.toFloat.toBits.toNat
  if z < 0 then p.negated bits else bits

end Precision

end CompilerHost.Binary
