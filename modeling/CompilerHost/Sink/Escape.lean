import CompilerHost.Text.Hex

/-! # Escaped bytes

Bytes as plain text: a percent sign and two hexadecimal digits for each. Reading accepts digits of
either case and nothing else.
-/

namespace CompilerHost.Escape

open Text

/-- The group of characters for a byte. -/
def group (b : UInt8) : List Char := '%' :: hexPair b

/-- The text for bytes. -/
def encode (bytes : List UInt8) : List Char := bytes.flatMap group

/-- A byte of text as a character, which is right for ASCII. -/
def charOfByte (b : UInt8) : Char := Char.ofNat b.toNat

/-- The byte that a group of three stands for. -/
def ungroup? (a b c : UInt8) : Option UInt8 :=
  if charOfByte a = '%' then byteOfHex? (charOfByte b) (charOfByte c) else none

/-- Reads groups, the first of them at `position`, behind the bytes `found` with the latest first.
A group that is none is blamed at its start. -/
def decodeFrom (position : Nat) (found : List UInt8) : List UInt8 → Except Nat (List UInt8)
  | [] => .ok found.reverse
  | a :: b :: c :: rest =>
    match ungroup? a b c with
    | some v => decodeFrom (position + 3) (v :: found) rest
    | none => .error position
  | _ => .error position

/-- Reads the bytes of a text back, or says where it is malformed. A text whose length is no
multiple of three is blamed at the incomplete group, wherever else it is wrong. -/
def decode (text : List UInt8) : Except Nat (List UInt8) :=
  if text.length % 3 = 0 then decodeFrom 0 [] text
  else .error (text.length - text.length % 3)

end CompilerHost.Escape
