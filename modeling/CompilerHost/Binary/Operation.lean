import CompilerHost.Binary.Arithmetic
import CompilerHost.Guest

/-! # Operations

What instructions compute from values on the stack, without a look at anything else. An operation
is given by the types of its operands and of its result, and by how the one comes from the others;
the code of a numeric instruction is its place in a list of them.
-/

namespace CompilerHost.Binary

/-- Computes a value from others, given in the order in which they were put on the stack. -/
structure Operation where
  params : List ValueType
  result : ValueType
  apply : List Nat → Except Trap Nat
  /-- Whether the operation may be part of a constant. -/
  isConstant : Bool

namespace Operation

/-- An operation on one value that always has a result. -/
def unary (param result : ValueType) (f : Nat → Nat) : Operation where
  params := [param]
  result := result
  apply values := .ok (f (values.head?.getD 0))
  isConstant := false

/-- An operation on two values. -/
def partialBinary (param result : ValueType) (f : Nat → Nat → Except Trap Nat) : Operation where
  params := [param, param]
  result := result
  apply
    | [a, b] => f a b
    | _ => .ok 0
  isConstant := false

/-- An operation on two values that always has a result. -/
def binary (param result : ValueType) (f : Nat → Nat → Nat) : Operation :=
  partialBinary param result fun a b => .ok (f a b)

/-- The operation, where it may be part of a constant. -/
def constant (op : Operation) : Operation := { op with isConstant := true }

/-- The bit for yes or no. -/
def flag (b : Bool) : Nat := if b then 1 else 0

/-! ## Integers -/

/-- The relations between integers in the order of their codes, with how the integers are read. -/
def integerRelations : List (Relation × Sign) :=
  [(.equal, .unsigned), (.notEqual, .unsigned), (.less, .signed), (.less, .unsigned),
    (.greater, .signed), (.greater, .unsigned), (.atMost, .signed), (.atMost, .unsigned),
    (.atLeast, .signed), (.atLeast, .unsigned)]

/-- The tests of integers: against zero, and of two against each other. -/
def integerTests (t : ValueType) (width : Nat) : List Operation :=
  unary t .i32 (fun a => flag (a = 0)) ::
    integerRelations.map fun (r, s) =>
      binary t .i32 fun a b => flag (r.holds (s.number width a) (s.number width b))

/-- The arithmetic of integers. -/
def integerArithmetic (t : ValueType) (width : Nat) : List Operation :=
  let modular (f : Int → Int → Int) : Operation :=
    (binary t t fun a b => bitsOf width (f a b)).constant
  [unary t t (leadingZeros width), unary t t (trailingZeros width), unary t t (ones width),
    modular (· + ·), modular (· - ·), modular (· * ·),
    partialBinary t t (quotient .signed width), partialBinary t t (quotient .unsigned width),
    partialBinary t t (remainder .signed width), partialBinary t t (remainder .unsigned width),
    binary t t (· &&& ·), binary t t (· ||| ·), binary t t (· ^^^ ·),
    binary t t (shiftLeft width), binary t t (shiftRight .signed width),
    binary t t (shiftRight .unsigned width), binary t t (rotateLeft width),
    binary t t (rotateRight width)]

/-! ## Numbers with a fraction -/

/-- The tests of two numbers against each other. -/
def fractionTests (t : ValueType) (p : Precision) : List Operation :=
  [.equal, .notEqual, .less, .greater, .atMost, .atLeast].map fun r =>
    binary t .i32 fun a b => flag (p.compare r a b)

/-- The arithmetic of numbers with a fraction. -/
def fractionArithmetic (t : ValueType) (p : Precision) : List Operation :=
  [unary t t p.magnitude, unary t t p.negated, unary t t (p.unary Float.ceil),
    unary t t (p.unary Float.floor), unary t t p.truncated, unary t t p.nearest,
    unary t t (p.unary Float.sqrt), binary t t (p.binary (· + ·)), binary t t (p.binary (· - ·)),
    binary t t (p.binary (· * ·)), binary t t (p.binary (· / ·)), binary t t p.lesser,
    binary t t p.greater, binary t t p.withSign]

/-! ## Conversions -/

/-- The integer part, in so many bits. -/
def integerPart (origin : ValueType) (p : Precision) (target : ValueType) (width : Nat) :
    List Operation :=
  [Sign.signed, .unsigned].map fun s =>
    { unary origin target id with apply := fun values => p.toInteger s width (values.head?.getD 0) }

/-- The integer part in so many bits, or the nearest that there is. -/
def nearestInteger (origin : ValueType) (p : Precision) (target : ValueType) (width : Nat) :
    List Operation :=
  [Sign.signed, .unsigned].map fun s => unary origin target (p.toNearestInteger s width)

/-- An integer of so many bits as a number with a fraction. -/
def fromInteger (origin : ValueType) (width : Nat) (target : ValueType) (p : Precision) :
    List Operation :=
  [Sign.signed, .unsigned].map fun s => unary origin target fun a => p.ofInteger (s.number width a)

/-- The conversions between types. -/
def conversions : List Operation :=
  [unary .i64 .i32 (· % (1 <<< 32))]
    ++ integerPart .f32 .single .i32 32 ++ integerPart .f64 .double .i32 32
    ++ [unary .i32 .i64 (resized .signed 32 64), unary .i32 .i64 id]
    ++ integerPart .f32 .single .i64 64 ++ integerPart .f64 .double .i64 64
    ++ fromInteger .i32 32 .f32 .single ++ fromInteger .i64 64 .f32 .single
    ++ [unary .f64 .f32 fun a => Precision.single.bitsOf (Precision.double.number a)]
    ++ fromInteger .i32 32 .f64 .double ++ fromInteger .i64 64 .f64 .double
    ++ [unary .f32 .f64 fun a => Precision.double.bitsOf (Precision.single.number a),
      unary .f32 .i32 id, unary .f64 .i64 id, unary .i32 .f32 id, unary .i64 .f64 id]

/-- An integer read from its lower bits, with their sign. -/
def lowerBits (t : ValueType) (width bits : Nat) : Operation :=
  unary t t fun a => resized .signed bits width (a % (1 <<< bits))

/-! ## Codes -/

/-- The code of the first operation. -/
def firstCode : Nat := 0x45

/-- The operations with a code of one byte, in order. -/
def coded : Array Operation :=
  (integerTests .i32 32 ++ integerTests .i64 64
    ++ fractionTests .f32 .single ++ fractionTests .f64 .double
    ++ integerArithmetic .i32 32 ++ integerArithmetic .i64 64
    ++ fractionArithmetic .f32 .single ++ fractionArithmetic .f64 .double
    ++ conversions
    ++ [lowerBits .i32 32 8, lowerBits .i32 32 16, lowerBits .i64 64 8, lowerBits .i64 64 16,
      lowerBits .i64 64 32]).toArray

/-- The operation with a code of one byte. -/
def ofCode? (code : Nat) : Option Operation :=
  if firstCode ≤ code then coded[code - firstCode]? else none

/-- The operations at the start of the second page of codes, in order. -/
def saturating : List Operation :=
  nearestInteger .f32 .single .i32 32 ++ nearestInteger .f64 .double .i32 32
    ++ nearestInteger .f32 .single .i64 64 ++ nearestInteger .f64 .double .i64 64

end Operation

end CompilerHost.Binary
