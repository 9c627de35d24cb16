import CompilerHost.Binary.Section

/-! # Writing binaries

The binary form of numbers, strings, imports, exports and sections: what the readers read back.
-/

namespace CompilerHost.Binary

/-- A number in as few bytes as it takes. -/
def writeUnsigned (n : Nat) : List UInt8 :=
  if n < 128 then [UInt8.ofNat n]
  else UInt8.ofNat (n % 128 + 128) :: writeUnsigned (n / 128)
termination_by n
decreasing_by omega

/-- Bytes behind their number. -/
def writeBytes (bytes : List UInt8) : List UInt8 := writeUnsigned bytes.length ++ bytes

/-- A string. -/
def writeString (s : String) : List UInt8 := writeBytes s.toUTF8.toList

/-- A module's header. -/
def writeHeader : List UInt8 := magic ++ [1, 0, 0, 0]

/-- A section. -/
def writeSection (id : UInt8) (content : List UInt8) : List UInt8 := id :: writeBytes content

/-- Items behind their number. -/
def writeCounted {α : Type} (item : α → List UInt8) (as : List α) : List UInt8 :=
  writeUnsigned as.length ++ as.flatMap item

/-- An import of a function whose type has an index. -/
def writeFunctionImport (module name : String) (type : Nat) : List UInt8 :=
  writeString module ++ writeString name ++ 0 :: writeUnsigned type

/-- An export of the item of a kind at an index. -/
def writeExport (e : ExportEntry) : List UInt8 :=
  writeString e.name ++ e.kind :: writeUnsigned e.index

end CompilerHost.Binary
