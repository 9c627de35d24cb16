import CompilerHost.Binary.Reader
import CompilerHost.Guest

/-! # Sections

A binary is a header and sections, each an id, a length and so many bytes of content. What a
section's content has to look like depends on its id.
-/

namespace CompilerHost.Binary

/-- The four bytes in front of every binary. -/
def magic : List UInt8 := [0x00, 0x61, 0x73, 0x6D]

/-- What kind of binary the header announces. -/
inductive Encoding where
  | module (version : Nat)
  | component
deriving DecidableEq, Repr

/-- The kind of binary, from the eight bytes of the header. -/
def encoding? : List UInt8 → Option Encoding
  | [a, b, c, d, v0, v1, layer0, layer1] =>
    if [a, b, c, d] = magic then
      match layer0.toNat + 256 * layer1.toNat with
      | 0 => some (.module (v0.toNat + 256 * v1.toNat))
      | 1 => some .component
      | _ => none
    else none
  | _ => none

/-- The number of bytes in a header. -/
def headerBytes : Nat := 8

/-- One section. -/
structure Section where
  id : UInt8
  content : List UInt8
deriving DecidableEq, Repr

/-- The section at the front. -/
def section? : Reader Section := fun bytes => do
  let (id, rest) ← byte bytes
  if id < 0x80 then
    let (n, rest) ← u32 rest
    let (content, rest) ← take n rest
    some (⟨id, content⟩, rest)
  else none

/-- A section takes at least two bytes. -/
theorem length_section? {bytes rest : List UInt8} {s : Section}
    (h : section? bytes = some (s, rest)) : rest.length < bytes.length := by
  simp only [section?, Option.bind_eq_bind, Option.bind_eq_some_iff, Prod.exists] at h
  obtain ⟨id, afterId, hId, h⟩ := h
  split at h
  · simp only [Option.bind_eq_some_iff, Prod.exists, Option.some.injEq, Prod.mk.injEq] at h
    obtain ⟨n, afterLength, hLength, content, last, hContent, _, rfl⟩ := h
    have h1 := length_byte hId
    have h2 := length_unsigned hLength
    have h3 := length_take hContent
    omega
  · cases h

/-- All sections, up to the end. -/
def sections? (bytes : List UInt8) : Option (List Section) :=
  match bytes with
  | [] => some []
  | b :: others =>
    match h : section? (b :: others) with
    | none => none
    | some (s, rest) =>
      have := length_section? h
      (sections? rest).map (s :: ·)
termination_by bytes.length
decreasing_by assumption

/-! ## Imports -/

/-- The limits of a table or memory: a least size and, where the flags say so, a greatest one. -/
def limits (flags : UInt8) : Reader (Nat × Option Nat) := fun bytes => do
  let number := if flags &&& 4 = 0 then u32 else u64
  let (least, rest) ← number bytes
  if flags &&& 1 = 0 then some ((least, none), rest)
  else
    let (most, rest) ← number rest
    some ((least, some most), rest)

/-- The type that a byte names. -/
def valueType? (b : UInt8) : Option ValueType :=
  if b = 0x7F then some .i32
  else if b = 0x7E then some .i64
  else if b = 0x7D then some .f32
  else if b = 0x7C then some .f64
  else if b = 0x7B then some .v128
  else if b = 0x70 then some .funcRef
  else if b = 0x6F then some .externRef
  else none

/-- The bytes that name abstract types of references. -/
def abstractReferences : List UInt8 :=
  [0x68, 0x69, 0x6A, 0x6B, 0x6C, 0x6D, 0x6E, 0x6F, 0x70, 0x71, 0x72, 0x73, 0x74, 0x75]

/-- The greatest index of a type. -/
def maxTypeIndex : Nat := (1 <<< 20) - 1

/-- An abstract type of references, marked as shared or not. A shared one has no name of its own. -/
def abstractReference : Reader (Option ValueType) := fun bytes => do
  let (b, rest) ← byte bytes
  if abstractReferences.contains b then some (valueType? b, rest)
  else if b = 0x65 then
    let (b, rest) ← byte rest
    if abstractReferences.contains b then some (none, rest) else none
  else none

/-- What a reference refers to: an abstract type, or one of the module's types. -/
def referent : Reader (Option ValueType) := fun bytes =>
  match abstractReference bytes with
  | some found => some found
  | none => do
    let (index, rest) ← signedNumber 33 bytes
    if 0 ≤ index ∧ index ≤ maxTypeIndex then some (none, rest) else none

/-- The byte that opens a type of references with null. -/
def nullableReference : UInt8 := 0x63

/-- The byte that opens a type of references without null. -/
def plainReference : UInt8 := 0x64

/-- A type of references, as far as it has a name of its own. Without a word on null, it has
null. -/
def referenceType : Reader (Option ValueType) := fun bytes => do
  let (b, rest) ← byte bytes
  if b = nullableReference then referent rest
  else if b = plainReference then (referent rest).map fun (_, rest) => (none, rest)
  else referent bytes

/-- The bytes that a type of references may open with among the types of values: an index by itself
is none. -/
def openingReferences : List UInt8 :=
  0x65 :: nullableReference :: plainReference :: abstractReferences

/-- A type of values, as far as it has a name of its own. -/
def valueType : Reader (Option ValueType) := fun bytes => do
  let (b, rest) ← byte bytes
  if openingReferences.contains b then referenceType bytes
  else (valueType? b).map fun t => (some t, rest)

/-- A type of tables. Its flags tell of a greatest size, of sharing, and of 64-bit limits. -/
structure TableType where
  element : Option ValueType
  flags : UInt8
  least : Nat
  most : Option Nat
deriving DecidableEq, Repr

def tableType : Reader TableType := fun bytes => do
  let (element, rest) ← referenceType bytes
  let (flags, rest) ← byte rest
  if flags ≤ 7 then
    let ((least, most), rest) ← limits flags rest
    some (⟨element, flags, least, most⟩, rest)
  else none

/-- A type of memories. Its flags tell also of pages of another size. -/
structure MemoryType where
  flags : UInt8
  least : Nat
  most : Option Nat
deriving DecidableEq, Repr

def memoryType : Reader MemoryType := fun bytes => do
  let (flags, rest) ← byte bytes
  if flags ≤ 15 then
    let ((least, most), rest) ← limits flags rest
    if flags &&& 8 = 0 then some (⟨flags, least, most⟩, rest)
    else
      let (_, rest) ← u32 rest
      some (⟨flags, least, most⟩, rest)
  else none

/-- A type of globals. Its flags tell of mutability and of sharing. -/
structure GlobalType where
  content : Option ValueType
  flags : UInt8
deriving DecidableEq, Repr

def globalType : Reader GlobalType := fun bytes => do
  let (content, rest) ← valueType bytes
  let (flags, rest) ← byte rest
  if flags ≤ 3 then some (⟨content, flags⟩, rest) else none

/-- What a module imports. -/
inductive ImportKind where
  /-- A function whose type has this index. -/
  | function (type : Nat)
  | table (type : TableType)
  | memory (type : MemoryType)
  | global (type : GlobalType)
  | tag
deriving DecidableEq, Repr

namespace ImportKind

def isTable : ImportKind → Bool
  | .table _ => true
  | _ => false

def isMemory : ImportKind → Bool
  | .memory _ => true
  | _ => false

def isGlobal : ImportKind → Bool
  | .global _ => true
  | _ => false

end ImportKind

/-- The kind of an import. -/
def importKind : Reader ImportKind := fun bytes => do
  let (kind, rest) ← byte bytes
  if kind = 0 then (u32 rest).map fun (i, rest) => (.function i, rest)
  else if kind = 1 then (tableType rest).map fun (t, rest) => (.table t, rest)
  else if kind = 2 then (memoryType rest).map fun (t, rest) => (.memory t, rest)
  else if kind = 3 then (globalType rest).map fun (t, rest) => (.global t, rest)
  else if kind = 4 then do
    let (reserved, rest) ← byte rest
    if reserved = 0 then (u32 rest).map fun (_, rest) => (.tag, rest) else none
  else none

/-- An entry of an import section. -/
structure ImportEntry where
  module : String
  name : String
  kind : ImportKind
deriving DecidableEq, Repr

/-- One import. -/
def importEntry : Reader ImportEntry := fun bytes => do
  let (module, rest) ← string bytes
  let (name, rest) ← string rest
  let (kind, rest) ← importKind rest
  some (⟨module, name, kind⟩, rest)

/-! ## Exports -/

/-- An entry of an export section: a name, and the kind and index of what it stands for. -/
structure ExportEntry where
  name : String
  kind : UInt8
  index : Nat
deriving DecidableEq, Repr

/-- One export. -/
def exportEntry : Reader ExportEntry := fun bytes => do
  let (name, rest) ← string bytes
  let (kind, rest) ← byte rest
  if kind ≤ 4 then
    let (index, rest) ← u32 rest
    some (⟨name, kind, index⟩, rest)
  else none

/-! ## Other sections -/

/-- So many items behind each other. -/
def items {α : Type} (item : Reader α) : Nat → Reader (List α)
  | 0 => fun bytes => some ([], bytes)
  | n + 1 => fun bytes => do
    let (first, rest) ← item bytes
    let (others, rest) ← items item n rest
    some (first :: others, rest)

/-- Items behind their number. -/
def counted {α : Type} (item : Reader α) : Reader (List α) := fun bytes => do
  let (n, rest) ← u32 bytes
  items item n rest

/-- A function's body, of which only the length matters. -/
def body : Reader (List UInt8) := fun bytes => do
  let (n, rest) ← u32 bytes
  take n rest

/-- Whether the content of a section that holds neither imports nor exports looks as its id asks
for: sections of items start with a number, two hold just a number, code fills its section with
bodies, and a custom section starts with its name. -/
def isWellFormed (s : Section) : Bool :=
  if s.id = 0 then (string s.content).isSome
  else if s.id = 8 ∨ s.id = 12 then takesAll u32 s.content
  else if s.id = 10 then takesAll (counted body) s.content
  else if s.id ∈ [1, 3, 4, 5, 6, 9, 11, 13] then (u32 s.content).isSome
  else true

end CompilerHost.Binary
