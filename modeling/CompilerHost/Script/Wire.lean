import CompilerHost.Binary.Writer
import CompilerHost.Script.Basic

/-! # Scripts as bytes

The form in which a script travels inside a binary: each alternative behind its number, each list
behind its length.
-/

namespace CompilerHost.Script

open Binary

/-! ## Writing -/

/-- A word. -/
def writeWord (w : UInt32) : List UInt8 := writeUnsigned w.toNat

/-- An item that may be missing, behind zero or one. -/
def writeOption {α : Type} (item : α → List UInt8) : Option α → List UInt8
  | none => [0]
  | some a => 1 :: item a

/-- A type of values. -/
def writeValueType : ValueType → UInt8
  | .i32 => 0x7F
  | .i64 => 0x7E
  | .f32 => 0x7D
  | .f64 => 0x7C
  | .v128 => 0x7B
  | .funcRef => 0x70
  | .externRef => 0x6F

def Expr.write : Expr → List UInt8
  | .word w => 0 :: writeWord w
  | .options => [1]
  | .source => [2]
  | .out => [3]
  | .heap => [4]
  | .pages => [5]
  | .stringLength e => 6 :: e.write
  | .load8 e => 7 :: e.write
  | .load32 e => 8 :: e.write
  | .add a b => 9 :: a.write ++ b.write
  | .eq a b => 10 :: a.write ++ b.write

mutual

def Step.wire : Step → List UInt8
  | .write start length => 0 :: start.write ++ length.write
  | .flush => [1]
  | .store8 place value => 2 :: place.write ++ value.write
  | .store32 place value => 3 :: place.write ++ value.write
  | .bytes place data => 4 :: place.write ++ writeBytes data
  | .copy target origin length => 5 :: target.write ++ origin.write ++ length.write
  | .alloc size => 6 :: size.write
  | .grow count => 7 :: count.write
  | .assign value => 8 :: value.write
  | .trap => [9]
  | .spin => [10]
  | .exit result => 11 :: result.write
  | .branch condition yes no =>
    12 :: condition.write ++ writeUnsigned yes.length ++ wireAll yes
      ++ writeUnsigned no.length ++ wireAll no

def wireAll : List Step → List UInt8
  | [] => []
  | step :: rest => step.wire ++ wireAll rest

end

/-- Steps behind their number. -/
def writeSteps (steps : List Step) : List UInt8 := writeUnsigned steps.length ++ wireAll steps

def Allocator.write : Allocator → List UInt8
  | .bump => [0]
  | .returns result => 1 :: writeWord result
  | .trap => [2]
  | .spin => [3]
  | .absent => [4]
  | .global => [5]
  | .wide => [6]
  | .silent => [7]

def Entry.write : Entry → List UInt8
  | .absent => [0]
  | .global => [1]
  | .function params result steps =>
    2 :: writeCounted (fun t => [writeValueType t]) params
      ++ writeOption (fun t => [writeValueType t]) result ++ writeSteps steps

def MemoryExport.write : MemoryExport → UInt8
  | .memory => 0
  | .renamed => 1
  | .absent => 2
  | .function => 3

/-- An import of a function with its parameters. -/
def writeImport (i : String × String × List ValueType) : List UInt8 :=
  writeString i.1 ++ writeString i.2.1 ++ writeCounted (fun t => [writeValueType t]) i.2.2

/-- A script. -/
def wire (s : Script) : List UInt8 :=
  writeCounted writeImport s.imports ++ writeUnsigned s.minPages
    ++ writeOption writeUnsigned s.maxPages ++ s.memoryAs.write
    :: writeCounted (fun (offset, bytes) => writeWord offset ++ writeBytes bytes) s.data
    ++ writeWord s.heap ++ s.allocator.write ++ s.imageAllocator.write ++ s.entry.write
    ++ writeOption writeSteps s.start

/-! ## Reading -/

/-- A word. -/
def readWord : Reader UInt32 := fun bytes => (u32 bytes).map fun (n, rest) => (UInt32.ofNat n, rest)

/-- Bytes behind their number. -/
def readBytes : Reader (List UInt8) := fun bytes => do
  let (n, rest) ← u32 bytes
  take n rest

/-- An item that may be missing. -/
def readOption {α : Type} (item : Reader α) : Reader (Option α) := fun bytes => do
  let (present, rest) ← byte bytes
  if present = 0 then some (none, rest)
  else (item rest).map fun (a, rest) => (some a, rest)

/-- A type of values. -/
def readValueType : Reader ValueType := fun bytes => do
  let (b, rest) ← byte bytes
  let t ← valueType? b
  some (t, rest)

/-- An expression that is nested at most so deep. -/
def readExpr : Nat → Reader Expr
  | 0 => fun _ => none
  | depth + 1 => fun bytes => do
    let (tag, rest) ← byte bytes
    let one (make : Expr → Expr) := (readExpr depth rest).map fun (e, rest) => (make e, rest)
    let two (make : Expr → Expr → Expr) := do
      let (a, rest) ← readExpr depth rest
      let (b, rest) ← readExpr depth rest
      some (make a b, rest)
    match tag.toNat with
    | 0 => (readWord rest).map fun (w, rest) => (.word w, rest)
    | 1 => some (.options, rest)
    | 2 => some (.source, rest)
    | 3 => some (.out, rest)
    | 4 => some (.heap, rest)
    | 5 => some (.pages, rest)
    | 6 => one .stringLength
    | 7 => one .load8
    | 8 => one .load32
    | 9 => two .add
    | 10 => two .eq
    | _ => none

/-- A step that is nested at most so deep. -/
def readStep : Nat → Reader Step
  | 0 => fun _ => none
  | depth + 1 => fun bytes => do
    let (tag, rest) ← byte bytes
    let expr := readExpr depth
    let one (make : Expr → Step) := (expr rest).map fun (e, rest) => (make e, rest)
    let two (make : Expr → Expr → Step) := do
      let (a, rest) ← expr rest
      let (b, rest) ← expr rest
      some (make a b, rest)
    match tag.toNat with
    | 0 => two .write
    | 1 => some (.flush, rest)
    | 2 => two .store8
    | 3 => two .store32
    | 4 => do
      let (place, rest) ← expr rest
      let (data, rest) ← readBytes rest
      some (.bytes place data, rest)
    | 5 => do
      let (target, rest) ← expr rest
      let (origin, rest) ← expr rest
      let (length, rest) ← expr rest
      some (.copy target origin length, rest)
    | 6 => one .alloc
    | 7 => one .grow
    | 8 => one .assign
    | 9 => some (.trap, rest)
    | 10 => some (.spin, rest)
    | 11 => one .exit
    | 12 => do
      let (condition, rest) ← expr rest
      let (yes, rest) ← counted (readStep depth) rest
      let (no, rest) ← counted (readStep depth) rest
      some (.branch condition yes no, rest)
    | _ => none

def readAllocator : Reader Allocator := fun bytes => do
  let (tag, rest) ← byte bytes
  match tag.toNat with
  | 0 => some (.bump, rest)
  | 1 => (readWord rest).map fun (w, rest) => (.returns w, rest)
  | 2 => some (.trap, rest)
  | 3 => some (.spin, rest)
  | 4 => some (.absent, rest)
  | 5 => some (.global, rest)
  | 6 => some (.wide, rest)
  | 7 => some (.silent, rest)
  | _ => none

/-- An entry point whose steps are nested at most so deep. -/
def readEntry (depth : Nat) : Reader Entry := fun bytes => do
  let (tag, rest) ← byte bytes
  match tag.toNat with
  | 0 => some (.absent, rest)
  | 1 => some (.global, rest)
  | 2 => do
    let (params, rest) ← counted readValueType rest
    let (result, rest) ← readOption readValueType rest
    let (steps, rest) ← counted (readStep depth) rest
    some (.function params result steps, rest)
  | _ => none

def readMemoryExport : Reader MemoryExport := fun bytes => do
  let (tag, rest) ← byte bytes
  match tag.toNat with
  | 0 => some (.memory, rest)
  | 1 => some (.renamed, rest)
  | 2 => some (.absent, rest)
  | 3 => some (.function, rest)
  | _ => none

/-- An import of a function with its parameters. -/
def readImport : Reader (String × String × List ValueType) := fun bytes => do
  let (module, rest) ← string bytes
  let (name, rest) ← string rest
  let (params, rest) ← counted readValueType rest
  some ((module, name, params), rest)

/-- A piece of data with its place. -/
def readData : Reader (UInt32 × List UInt8) := fun bytes => do
  let (offset, rest) ← readWord bytes
  let (data, rest) ← readBytes rest
  some ((offset, data), rest)

/-- Reads a script that takes the bytes to the last. -/
def ofWire? (bytes : List UInt8) : Option Script := do
  let depth := bytes.length
  let (imports, rest) ← counted readImport bytes
  let (minPages, rest) ← u32 rest
  let (maxPages, rest) ← readOption u32 rest
  let (memoryAs, rest) ← readMemoryExport rest
  let (data, rest) ← counted readData rest
  let (heap, rest) ← readWord rest
  let (allocator, rest) ← readAllocator rest
  let (imageAllocator, rest) ← readAllocator rest
  let (entry, rest) ← readEntry depth rest
  let (start, rest) ← readOption (counted (readStep depth)) rest
  if rest.isEmpty then
    some
      { imports, minPages, maxPages, memoryAs, data, heap, allocator, imageAllocator, entry, start }
  else none

/-! ## Binaries -/

/-- The id of the section that holds a script. The format of binaries has none like it, so that no
other binary that an engine takes looks like this. -/
def sectionId : UInt8 := 0x7F

/-- What a section that holds a script starts with. -/
def sectionLabel : String := "scripted guest"

/-- The kind by which an exported item is marked in a binary. -/
def exportMark : Export UInt32 → UInt8
  | .function _ => 0
  | .memory => 2
  | .other => 3

/-- A binary that exports what the script exports, imports what it imports, and carries the script
itself in a section of its own. -/
def binary (s : Script) : ByteArray :=
  let imports := writeCounted (fun i => writeFunctionImport i.1 i.2.1 0) s.imports
  let exports := writeCounted (fun e => writeExport ⟨e.1, exportMark e.2, 0⟩) s.exports
  ⟨(writeHeader ++ writeSection 2 imports ++ writeSection 7 exports
    ++ writeSection sectionId (writeString sectionLabel ++ s.wire)).toArray⟩

end CompilerHost.Script
