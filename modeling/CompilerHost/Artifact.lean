/-! # Kinds of compiled artifact

What the first bytes of a compiled program say it is.
-/

namespace CompilerHost

/-- Contents are compared in the way of the core, also beside a library that has another. -/
instance (priority := high) decEqBytes : DecidableEq ByteArray := ByteArray.instDecidableEq

/-- The width of an ELF file, where its fifth byte tells. -/
inductive ElfClass where
  | elf32
  | elf64
  | unspecified
deriving DecidableEq, Repr

/-- What an artifact's header says it is. -/
inductive ArtifactKind where
  | elf (width : ElfClass)
  | unknown
deriving DecidableEq, Repr

namespace ArtifactKind

/-- The four bytes that open an ELF file. -/
def elfMagic : List UInt8 := [0x7F, 0x45, 0x4C, 0x46]

/-- Reads the kind off the first five bytes. -/
def ofPrefix : List UInt8 → ArtifactKind
  | a :: b :: c :: d :: rest =>
    if [a, b, c, d] = elfMagic then
      match rest.head? with
      | some 1 => .elf .elf32
      | some 2 => .elf .elf64
      | _ => .elf .unspecified
    else .unknown
  | _ => .unknown

/-- The kind of an artifact. -/
def detect (bytes : ByteArray) : ArtifactKind := ofPrefix (bytes.extract 0 5).toList

def isElf : ArtifactKind → Bool
  | .elf _ => true
  | .unknown => false

/-- The name under which the operator reads of a kind. -/
def name : ArtifactKind → String
  | .elf .elf32 => "ELF32"
  | .elf .elf64 => "ELF64"
  | .elf .unspecified => "ELF"
  | .unknown => "unknown"

end ArtifactKind

end CompilerHost
