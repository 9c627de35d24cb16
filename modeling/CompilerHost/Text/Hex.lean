/-! # Hexadecimal

Digits in base sixteen: lower case where they are written, either case where they are read.
-/

namespace CompilerHost.Text

/-- The lower case digit of a value below sixteen. -/
def hexDigit (n : Nat) : Char :=
  if n < 10 then Char.ofNat ('0'.toNat + n) else Char.ofNat ('a'.toNat + (n - 10))

/-- The value of a digit of either case. -/
def hexValue? (c : Char) : Option Nat :=
  if '0' ≤ c ∧ c ≤ '9' then some (c.toNat - '0'.toNat)
  else if 'a' ≤ c ∧ c ≤ 'f' then some (c.toNat - 'a'.toNat + 10)
  else if 'A' ≤ c ∧ c ≤ 'F' then some (c.toNat - 'A'.toNat + 10)
  else none

/-- The two digits of a byte. -/
def hexPair (b : UInt8) : List Char := [hexDigit (b.toNat / 16), hexDigit (b.toNat % 16)]

/-- The byte of two digits. -/
def byteOfHex? (high low : Char) : Option UInt8 := do
  let h ← hexValue? high
  let l ← hexValue? low
  pure (UInt8.ofNat (h * 16 + l))

/-- A number with the mark `0x` and no leading zeros. -/
def hexNumber (n : Nat) : String := "0x" ++ String.ofList (Nat.toDigits 16 n)

/-- The digit of a value reads back as that value. -/
theorem hexValue?_hexDigit : ∀ n < 16, hexValue? (hexDigit n) = some n := by decide

end CompilerHost.Text
