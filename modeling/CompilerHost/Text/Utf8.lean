/-! # UTF-8

Bytes fall apart, in one way only, into pieces: encoded characters, and maximal invalid prefixes
where no character starts. The strict reading refuses the first invalid piece and the lossy one
writes U+FFFD for each, so both are read off the same list of pieces.
-/

namespace CompilerHost.Utf8

/-- What the bytes at one place turn out to be. -/
inductive Piece where
  /-- The encoding of a character. -/
  | char (c : Char)
  /-- So many bytes that begin no character, whatever follows them. -/
  | invalid (length : Nat)
  /-- The input ends inside a character that it begins correctly. -/
  | truncated (length : Nat)
deriving Repr, DecidableEq

/-- The number of bytes that a piece takes up. -/
def Piece.size : Piece → Nat
  | .char c => c.utf8Size
  | .invalid n => n
  | .truncated n => n

/-- A byte that continues a character. -/
def isContinuation (b : UInt8) : Bool := 0x80 ≤ b && b ≤ 0xBF

/-- The second bytes that may follow a first byte of a three-byte character: the range leaves out
what would fit in two bytes, and the surrogates. -/
def secondOfThree (first second : UInt8) : Bool :=
  if first == 0xE0 then 0xA0 ≤ second && second ≤ 0xBF
  else if first == 0xED then 0x80 ≤ second && second ≤ 0x9F
  else isContinuation second

/-- The second bytes that may follow a first byte of a four-byte character: the range leaves out
what would fit in three bytes, and what lies above U+10FFFF. -/
def secondOfFour (first second : UInt8) : Bool :=
  if first == 0xF0 then 0x90 ≤ second && second ≤ 0xBF
  else if first == 0xF4 then 0x80 ≤ second && second ≤ 0x8F
  else isContinuation second

/-- The low six bits of a continuation byte, with those read before it above them. -/
def extend (bits : Nat) (b : UInt8) : Nat := bits * 64 + (b.toNat - 0x80)

/-- The piece that begins with byte `a`, and what is left after it. -/
def step (a : UInt8) (rest : List UInt8) : Piece × List UInt8 :=
  if a < 0x80 then (.char (Char.ofNat a.toNat), rest)
  else if 0xC2 ≤ a && a ≤ 0xDF then
    match rest with
    | [] => (.truncated 1, [])
    | b :: rest =>
      if isContinuation b then (.char (Char.ofNat (extend (a.toNat - 0xC0) b)), rest)
      else (.invalid 1, b :: rest)
  else if 0xE0 ≤ a && a ≤ 0xEF then
    match rest with
    | [] => (.truncated 1, [])
    | b :: rest =>
      if secondOfThree a b then
        match rest with
        | [] => (.truncated 2, [])
        | c :: rest =>
          if isContinuation c then
            (.char (Char.ofNat (extend (extend (a.toNat - 0xE0) b) c)), rest)
          else (.invalid 2, c :: rest)
      else (.invalid 1, b :: rest)
  else if 0xF0 ≤ a && a ≤ 0xF4 then
    match rest with
    | [] => (.truncated 1, [])
    | b :: rest =>
      if secondOfFour a b then
        match rest with
        | [] => (.truncated 2, [])
        | c :: rest =>
          if isContinuation c then
            match rest with
            | [] => (.truncated 3, [])
            | d :: rest =>
              if isContinuation d then
                (.char (Char.ofNat (extend (extend (extend (a.toNat - 0xF0) b) c) d)), rest)
              else (.invalid 3, d :: rest)
          else (.invalid 2, c :: rest)
      else (.invalid 1, b :: rest)
  else (.invalid 1, rest)

/-- A step never gives back more than what follows the first byte. -/
theorem length_step_le (a : UInt8) (rest : List UInt8) :
    (step a rest).2.length ≤ rest.length := by
  unfold step
  repeat' split
  all_goals
    simp only [List.length_cons, List.length_nil]
    omega

/-- The pieces of a byte string, in order. -/
def pieces : List UInt8 → List Piece
  | [] => []
  | a :: rest => (step a rest).1 :: pieces (step a rest).2
termination_by bytes => bytes.length
decreasing_by
  have := length_step_le a rest
  simp only [List.length_cons]
  omega

/-- The pieces behind those already found, the latest of which comes first in `found`. -/
def piecesFrom (found : List Piece) : List UInt8 → List Piece
  | [] => found.reverse
  | a :: rest => piecesFrom ((step a rest).1 :: found) (step a rest).2
termination_by bytes => bytes.length
decreasing_by
  have := length_step_le a rest
  simp only [List.length_cons]
  omega

theorem piecesFrom_eq (found : List Piece) (bytes : List UInt8) :
    piecesFrom found bytes = found.reverse ++ pieces bytes := by
  fun_induction piecesFrom found bytes with
  | case1 found => simp [pieces]
  | case2 found a rest ih => rw [ih, pieces]; simp

/-- Where a loop collects the pieces, they are the pieces. -/
theorem piecesFrom_nil (bytes : List UInt8) : piecesFrom [] bytes = pieces bytes := by
  simp [piecesFrom_eq]

/-- Where and why bytes are no text. -/
structure Fault where
  /-- The number of bytes before the first invalid piece. -/
  validUpTo : Nat
  /-- The length of that piece, or none where the input ends inside a character. -/
  length : Option Nat
deriving Repr, DecidableEq

/-- What a reader of the log is told about undecodable bytes. -/
def Fault.message (f : Fault) : String :=
  match f.length with
  | some n => s!"invalid utf-8 sequence of {n} bytes from index {f.validUpTo}"
  | none => s!"incomplete utf-8 byte sequence from index {f.validUpTo}"

/-- The first piece that is no character; `offset` bytes came before. -/
def firstFault? (offset : Nat) : List Piece → Option Fault
  | [] => none
  | .char c :: rest => firstFault? (offset + c.utf8Size) rest
  | .invalid n :: _ => some ⟨offset, some n⟩
  | .truncated _ :: _ => some ⟨offset, none⟩

/-- The character that stands for a piece in a lossy reading. -/
def Piece.lossyChar : Piece → Char
  | .char c => c
  | _ => '\uFFFD'

/-- The text of pieces in a lossy reading. -/
def lossyText (ps : List Piece) : String := String.ofList (ps.map Piece.lossyChar)

/-- Reads a list of bytes as text and refuses anything that is not UTF-8. -/
def decodeList (bytes : List UInt8) : Except Fault String :=
  let ps := piecesFrom [] bytes
  match firstFault? 0 ps with
  | none => .ok (lossyText ps)
  | some fault => .error fault

/-- Reads bytes as text and refuses anything that is not UTF-8. -/
def decode (bytes : ByteArray) : Except Fault String := decodeList bytes.toList

/-- Reads bytes as text, with U+FFFD for each maximal invalid prefix; the flag tells whether there
was any. -/
def decodeLossy (bytes : ByteArray) : String × Bool :=
  let ps := piecesFrom [] bytes.toList
  (lossyText ps, (firstFault? 0 ps).isSome)

end CompilerHost.Utf8
