import CompilerHost.Binary.Operation

/-! # Vectors

A vector is 128 bits, seen as lanes of one width, the lowest first. Most operations do to each lane
what an operation on values does, so they are listed here lane by lane, in the order of their codes.
-/

namespace CompilerHost.Binary.Vector

/-- The number of bits in a vector. -/
def bits : Nat := 128

/-- The lanes of a width. -/
def lanes (width v : Nat) : List Nat :=
  (List.range (bits / width)).map fun i => v >>> (i * width) % (1 <<< width)

/-- The vector of some lanes; those that are missing are zero. -/
def ofLanes (width : Nat) (values : List Nat) : Nat :=
  values.foldr (fun lane v => lane % (1 <<< width) + (v <<< width)) 0

/-- A lane with the highest bit set. -/
def isNegative (width lane : Nat) : Bool := 1 <<< (width - 1) ≤ lane

/-- A lane of ones or of zeros. -/
def mask (width : Nat) (b : Bool) : Nat := if b then (1 <<< width) - 1 else 0

open Operation (flag integerRelations)

/-! ## Shapes of operations -/

/-- Lane by lane, from one vector. -/
def each (width : Nat) (f : Nat → Nat) : Operation :=
  .unary .v128 .v128 fun a => ofLanes width ((lanes width a).map f)

/-- Lane by lane, from two vectors. -/
def both (width : Nat) (f : Nat → Nat → Nat) : Operation :=
  .binary .v128 .v128 fun a b => ofLanes width (List.zipWith f (lanes width a) (lanes width b))

/-- From three vectors. -/
def ternary (f : Nat → Nat → Nat → Nat) : Operation where
  params := [.v128, .v128, .v128]
  result := .v128
  apply
    | [a, b, c] => .ok (f a b c)
    | _ => .ok 0
  isConstant := false

/-- Lane by lane, from a vector and one count for all lanes. -/
def shift (width : Nat) (f : Nat → Nat → Nat) : Operation where
  params := [.v128, .i32]
  result := .v128
  apply
    | [a, n] => .ok (ofLanes width ((lanes width a).map (f · n)))
    | _ => .ok 0
  isConstant := false

/-- The same value in all lanes. -/
def splat (t : ValueType) (width : Nat) : Operation :=
  .unary t .v128 fun a => ofLanes width (List.replicate (bits / width) a)

/-- A word from one vector. -/
def toWord (f : Nat → Nat) : Operation := .unary .v128 .i32 f

/-- Lanes of ones where two lanes compare like that. -/
def compare (width : Nat) (r : Relation) (s : Sign) : Operation :=
  both width fun a b => mask width (r.holds (s.number width a) (s.number width b))

def compareFractions (p : Precision) : List Operation :=
  [.equal, .notEqual, .less, .greater, .atMost, .atLeast].map fun r =>
    both p.width fun a b => mask p.width (p.compare r a b)

/-! ## Lanes of integers -/

/-- Lane by lane, from the numbers that two lanes stand for, modulo the width. -/
def modular (width : Nat) (f : Int → Int → Int) : Operation :=
  both width fun a b => bitsOf width (f a b)

/-- Lane by lane, from the numbers that two lanes stand for; the nearest that there is. -/
def bounded (width : Nat) (f : Int → Int → Int) (s : Sign) : Operation :=
  both width fun a b => clamped s width (f (s.number width a) (s.number width b))

/-- The least and the greatest of two lanes, with a sign and without. -/
def extremes (width : Nat) : List Operation :=
  [bounded width min .signed, bounded width min .unsigned, bounded width max .signed,
    bounded width max .unsigned]

/-- A sum or difference modulo the width, and bounded with a sign and without. -/
def additive (width : Nat) (f : Int → Int → Int) : List Operation :=
  [modular width f, bounded width f .signed, bounded width f .unsigned]

def absolute (width : Nat) : Operation :=
  each width fun a => bitsOf width (Sign.signed.number width a).natAbs

def negated (width : Nat) : Operation := each width fun a => bitsOf width (-a)

/-- Whether no lane is zero. -/
def allTrue (width : Nat) : Operation := toWord fun a => flag ((lanes width a).all (· ≠ 0))

/-- The highest bits of the lanes. -/
def bitmask (width : Nat) : Operation :=
  toWord fun a => ofLanes 1 ((lanes width a).map fun lane => flag (isNegative width lane))

def shifts (width : Nat) : List Operation :=
  [shift width (shiftLeft width), shift width (shiftRight .signed width),
    shift width (shiftRight .unsigned width)]

/-- The mean of two lanes, rounded up. -/
def mean (width : Nat) : Operation := both width fun a b => (a + b + 1) / 2

/-- Half as wide lanes from two vectors, the nearest that there are. -/
def narrow (width : Nat) (s : Sign) : Operation :=
  .binary .v128 .v128 fun a b =>
    ofLanes (width / 2) ((lanes width a ++ lanes width b).map fun lane =>
      clamped s (width / 2) (Sign.signed.number width lane))

/-- The lower or the upper half of the lanes. -/
def half (width : Nat) (upper : Bool) (v : Nat) : List Nat :=
  let count := bits / width / 2
  if upper then (lanes width v).drop count else (lanes width v).take count

/-- The halves with a sign, then those without, the lower first. -/
def halves : List (Sign × Bool) :=
  [(.signed, false), (.signed, true), (.unsigned, false), (.unsigned, true)]

/-- Twice as wide lanes from half of a vector. -/
def extend (width : Nat) : List Operation :=
  halves.map fun (s, upper) => .unary .v128 .v128 fun a =>
    ofLanes (2 * width) ((half width upper a).map (resized s width (2 * width)))

/-- Products in twice as wide lanes, from halves of two vectors. -/
def extendedProducts (width : Nat) : List Operation :=
  halves.map fun (s, upper) => .binary .v128 .v128 fun a b =>
    ofLanes (2 * width) (List.zipWith
      (fun x y => bitsOf (2 * width) (s.number width x * s.number width y))
      (half width upper a) (half width upper b))

/-- Sums of neighbours. -/
def sumPairs : List Int → List Int
  | a :: b :: rest => (a + b) :: sumPairs rest
  | _ => []

/-- Sums of neighbours in twice as wide lanes, with a sign and without. -/
def pairwise (width : Nat) : List Operation :=
  [Sign.signed, .unsigned].map fun s => .unary .v128 .v128 fun a =>
    ofLanes (2 * width) ((sumPairs ((lanes width a).map (s.number width))).map
      (bitsOf (2 * width)))

/-- The products of two vectors' lanes. -/
def products (width a b : Nat) : List Int :=
  List.zipWith (fun x y => Sign.signed.number width x * Sign.signed.number width y)
    (lanes width a) (lanes width b)

/-- Sums of neighbouring products in twice as wide lanes. -/
def dot (width : Nat) (f : Sign → Nat → Int → Nat) : Operation :=
  .binary .v128 .v128 fun a b =>
    ofLanes (2 * width) ((sumPairs (products width a b)).map (f .signed (2 * width)))

/-- Products of fractions in sixteen bits, of which fifteen are behind the point. -/
def fractionProducts : Operation := bounded 16 (fun a b => (a * b + 0x4000) >>> (15 : Nat)) .signed

/-- The lanes of one vector at the places that another gives; there is zero at no place. -/
def swizzle : Operation :=
  .binary .v128 .v128 fun a b =>
    let found := (lanes 8 a).toArray
    ofLanes 8 ((lanes 8 b).map fun i => found[i]?.getD 0)

/-- The lanes of two vectors, the second behind the first, at given places. -/
def shuffle (places : List Nat) : Operation :=
  .binary .v128 .v128 fun a b =>
    let found := (lanes 8 a ++ lanes 8 b).toArray
    ofLanes 8 (places.map fun i => found[i]?.getD 0)

/-- The bits of one vector where a third has ones, of another elsewhere. -/
def select (a b chosen : Nat) : Nat := a &&& chosen ||| b &&& (chosen ^^^ mask bits true)

/-! ## Lanes with a fraction -/

def eachFraction (p : Precision) (f : Nat → Nat) : Operation := each p.width f

/-- The sum, difference, product and quotient, the least and the greatest. The last two are those
of the second lane, where it is less or greater, and else of the first. -/
def fractionArithmetic (p : Precision) : List Operation :=
  [eachFraction p (p.unary Float.sqrt)] ++
    [p.binary (· + ·), p.binary (· - ·), p.binary (· * ·), p.binary (· / ·), p.lesser, p.greater,
      fun a b => if p.compare .less b a then b else a,
      fun a b => if p.compare .less a b then b else a].map (both p.width)

/-- A product and a third lane added to it, or subtracted from the third. -/
def multiplyAdd (p : Precision) : List Operation :=
  let combined (f : Float → Float → Float → Float) : Operation :=
    ternary fun a b c => ofLanes p.width
      (List.zipWith (fun g z => g z)
        (List.zipWith (fun x y z => p.bitsOf (f (p.number x) (p.number y) (p.number z)))
          (lanes p.width a) (lanes p.width b))
        (lanes p.width c))
  [combined fun x y z => x * y + z, combined fun x y z => z - x * y]

/-- The integer parts in 32 bits, with a sign and without. -/
def integerParts (p : Precision) : List Operation :=
  [Sign.signed, .unsigned].map fun s => .unary .v128 .v128 fun a =>
    ofLanes 32 ((lanes p.width a).map (p.toNearestInteger s 32))

/-- Integers of 32 bits as numbers with a fraction, as many as there is room for. -/
def fromIntegers (p : Precision) : List Operation :=
  [Sign.signed, .unsigned].map fun s => .unary .v128 .v128 fun a =>
    ofLanes p.width (((lanes 32 a).take (bits / p.width)).map
      fun lane => p.ofInteger (s.number 32 lane))

/-- The lanes in another precision, as many as there is room for. -/
def inPrecision (p q : Precision) : Operation :=
  .unary .v128 .v128 fun a =>
    ofLanes q.width (((lanes p.width a).take (bits / q.width)).map
      fun lane => q.bitsOf (p.number lane))

/-! ## Codes -/

open Precision in
/-- The operations without anything behind their codes, in order, from each of some codes on. -/
def pages : List (Nat × List Operation) :=
  [(14, [swizzle, splat .i32 8, splat .i32 16, splat .i32 32, splat .i64 64, splat .f32 32,
      splat .f64 64]),
    (35, [8, 16, 32].flatMap fun width => integerRelations.map fun (r, s) => compare width r s),
    (65, compareFractions single ++ compareFractions double),
    (77, [.unary .v128 .v128 (· ^^^ mask bits true), .binary .v128 .v128 (· &&& ·),
      .binary .v128 .v128 (fun a b => a &&& (b ^^^ mask bits true)), .binary .v128 .v128 (· ||| ·),
      .binary .v128 .v128 (· ^^^ ·), ternary select, toWord fun a => flag (a ≠ 0)]),
    (94, [inPrecision double single, inPrecision single double]),
    (96, [absolute 8, negated 8, each 8 (ones 8), allTrue 8, bitmask 8, narrow 16 .signed,
        narrow 16 .unsigned, eachFraction single (single.unary Float.ceil),
        eachFraction single (single.unary Float.floor), eachFraction single single.truncated,
        eachFraction single single.nearest]
      ++ shifts 8 ++ additive 8 (· + ·) ++ additive 8 (· - ·)
      ++ [eachFraction double (double.unary Float.ceil),
        eachFraction double (double.unary Float.floor)]
      ++ extremes 8 ++ [eachFraction double double.truncated, mean 8]
      ++ pairwise 8 ++ pairwise 16
      ++ [absolute 16, negated 16, fractionProducts, allTrue 16, bitmask 16, narrow 32 .signed,
        narrow 32 .unsigned]
      ++ extend 8 ++ shifts 16 ++ additive 16 (· + ·) ++ additive 16 (· - ·)
      ++ [eachFraction double double.nearest, modular 16 (· * ·)] ++ extremes 16),
    (155, mean 16 :: extendedProducts 8 ++ [absolute 32, negated 32]),
    (163, [allTrue 32, bitmask 32]),
    (167, extend 16 ++ shifts 32 ++ [modular 32 (· + ·)]),
    (177, [modular 32 (· - ·)]),
    (181, modular 32 (· * ·) :: extremes 32 ++ [dot 16 fun _ => bitsOf]),
    (188, extendedProducts 16 ++ [absolute 64, negated 64]),
    (195, [allTrue 64, bitmask 64]),
    (199, extend 32 ++ shifts 64 ++ [modular 64 (· + ·)]),
    (209, [modular 64 (· - ·)]),
    (213, modular 64 (· * ·)
      :: [.equal, .notEqual, .less, .greater, .atMost, .atLeast].map (compare 64 · .signed)
      ++ extendedProducts 32
      ++ [eachFraction single single.magnitude, eachFraction single single.negated]),
    (227, fractionArithmetic single
      ++ [eachFraction double double.magnitude, eachFraction double double.negated]),
    (239, fractionArithmetic double ++ integerParts single ++ fromIntegers single
      ++ integerParts double ++ fromIntegers double),
    (256, swizzle :: integerParts single ++ integerParts double
      ++ multiplyAdd single ++ multiplyAdd double ++ List.replicate 4 (ternary select)
      ++ [both 32 single.lesser, both 32 single.greater, both 64 double.lesser,
        both 64 double.greater, fractionProducts, dot 8 clamped,
        ternary fun a b c => ofLanes 32 (List.zipWith (fun x (y : Nat) => bitsOf 32 (x + y))
          (sumPairs (sumPairs (products 8 a b))) (lanes 32 c))])]

/-- The operation with a code. -/
def ofCode? (code : Nat) : Option Operation :=
  pages.findSome? fun (first, operations) =>
    if first ≤ code then operations[code - first]? else none

/-- The value in a lane. -/
def extract (t : ValueType) (width : Nat) (s : Sign) (target lane : Nat) : Operation :=
  .unary .v128 t fun a => resized s width target ((lanes width a)[lane]?.getD 0)

/-- The vector with another value in a lane. -/
def replace (t : ValueType) (width lane : Nat) : Operation where
  params := [.v128, t]
  result := .v128
  apply
    | [a, x] => .ok (ofLanes width ((lanes width a).set lane x))
    | _ => .ok 0
  isConstant := false

/-- The code of the first operation on one lane. -/
def firstLaneCode : Nat := 21

/-- The operations with the number of a lane behind their code, in order, with the width of
lanes. -/
def laneOperations : List (Nat × (Nat → Operation)) :=
  [(8, extract .i32 8 .signed 32), (8, extract .i32 8 .unsigned 32), (8, replace .i32 8),
    (16, extract .i32 16 .signed 32), (16, extract .i32 16 .unsigned 32), (16, replace .i32 16),
    (32, extract .i32 32 .unsigned 32), (32, replace .i32 32),
    (64, extract .i64 64 .unsigned 64), (64, replace .i64 64),
    (32, extract .f32 32 .unsigned 32), (32, replace .f32 32),
    (64, extract .f64 64 .unsigned 64), (64, replace .f64 64)]

/-- The operation with a code on a lane. -/
def ofLaneCode? (code lane : Nat) : Option Operation :=
  if firstLaneCode ≤ code then
    match laneOperations[code - firstLaneCode]? with
    | some (width, make) => if lane * width < bits then some (make lane) else none
    | none => none
  else none

end CompilerHost.Binary.Vector
