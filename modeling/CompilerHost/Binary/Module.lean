import CompilerHost.Binary.Machine
import CompilerHost.Binary.Typing

/-! # Modules

What an engine reads out of a binary: types, functions with their bodies, one memory, tables,
globals, and names for them. An engine is stricter than inspection. Sections have their order and
come once, indexes have to exist, exported names differ, and code has to be typed.
-/

namespace CompilerHost.Binary

/-! ## Sections -/

/-- The byte that opens a type of functions. -/
def functionForm : UInt8 := 0x60

/-- The byte that opens a type that none extends, behind which stand those that it extends. -/
def finalForm : UInt8 := 0x4F

/-- A type of functions, which extends no other. -/
def functionType : Reader FunctionType := fun bytes => do
  let (form, rest) ← byte bytes
  let ((extended, form), rest) ←
    if form = finalForm then ((counted u32).pair byte) rest else some (([], form), rest)
  if extended.isEmpty ∧ form = functionForm then
    let ((params, results), rest) ← ((counted namedType).pair (counted namedType)) rest
    let type : FunctionType := ⟨params, results⟩
    if type.isTaken then some (type, rest) else none
  else none

/-- A function's further locals and its code. -/
structure Code where
  locals : List ValueType
  instructions : List Instruction

/-- The most locals of a function, with its parameters. -/
def maxLocals : Nat := 50000

/-- Some locals of one type. -/
def localGroup : Reader (Nat × ValueType) := fun bytes => do
  let ((n, t), rest) ← (u32.pair namedType) bytes
  if n ≤ maxLocals then some ((n, t), rest) else none

/-- The code of a function, which takes its body to the last byte. -/
def code? (content : List UInt8) : Option Code := do
  let (groups, rest) ← counted localGroup content
  let (instrs, rest) ← instructions content.length rest
  if rest.isEmpty ∧ groups.foldr (fun (n, _) all => n + all) 0 ≤ maxLocals then
    some ⟨groups.flatMap fun (n, t) => List.replicate n t, instrs⟩
  else none

/-- A global with a constant for its start. -/
def globalEntry (room : Nat) : Reader (GlobalType × List Instruction) :=
  globalType.pair (instructions room)

/-- A piece of data, with the code for its place unless it is kept for later. -/
structure DataEntry where
  place : Option (List Instruction)
  content : List UInt8

/-- A piece of data. A memory that is named can only be the first. -/
def dataEntry (room : Nat) : Reader DataEntry := fun bytes => do
  let (mode, rest) ← u32 bytes
  let (place, rest) ←
    match mode with
    | 0 => ((instructions room).map some) rest
    | 1 => some (none, rest)
    | 2 => ((onlyMemory.pair (instructions room)).map fun (_, place) => some place) rest
    | _ => none
  let (n, rest) ← u32 rest
  let (content, rest) ← take n rest
  some (⟨place, content⟩, rest)

/-- Where references for a table go. -/
inductive ElementMode where
  /-- To a place in a table. -/
  | active (table : Nat) (place : List Instruction)
  /-- Wherever code wants them. -/
  | passive
  /-- Nowhere: they are only mentioned. -/
  | declared

/-- References for a table, each of them a constant. -/
structure ElementEntry where
  type : ValueType
  mode : ElementMode
  items : List (List Instruction)

/-- The type of what is listed by its kind, of which there is just that of functions. -/
def elementKind : Reader ValueType := zeroByte.map fun _ => .funcRef

/-- References for a table. Of the three bits in front, the first tells apart those that have a
place; the second tells of a table, or that there will be no use; the third tells of constants in
place of functions. -/
def elementEntry (room : Nat) : Reader ElementEntry := fun bytes => do
  let (flags, rest) ← u32 bytes
  if 7 < flags then none
  else
    let placed := !flags.testBit 0
    let named := flags.testBit 1
    let (mode, rest) ←
      if placed then
        ((if named then u32 else .nothing 0).pair (instructions room)
          |>.map fun (table, place) => .active table place) rest
      else some (if named then .declared else .passive, rest)
    let (type, rest) ←
      if placed && !named then some (.funcRef, rest)
      else (if flags.testBit 2 then namedReference else elementKind) rest
    let item := if flags.testBit 2 then instructions room else u32.map fun f => [.reference f]
    let (items, rest) ← counted item rest
    some (⟨type, mode, items⟩, rest)
where
  /-- A type of references that has a name. -/
  namedReference : Reader ValueType := fun bytes => do
    let (t, rest) ← referenceType bytes
    t.map fun t => (t, rest)

/-- A binary as an engine sees it. -/
structure Module where
  types : List FunctionType
  imports : List ImportEntry
  functions : List Nat
  tables : List TableType
  memories : List MemoryType
  globals : List (GlobalType × List Instruction)
  exports : List ExportEntry
  start : Option Nat
  elements : List ElementEntry
  /-- How many pieces of data are announced. -/
  dataCount : Option Nat
  codes : List Code
  data : List DataEntry

namespace Module

/-- A module without sections. -/
def empty : Module := ⟨[], [], [], [], [], [], [], none, [], none, [], []⟩

/-- The place of a section in their order, for those that have one. -/
def order? (id : UInt8) : Option Nat :=
  [1, 2, 3, 4, 5, 13, 6, 7, 8, 9, 12, 10, 11].findIdx? (· = id)

/-- All items of a section, which they take to the last byte. -/
def allItems {α : Type} (item : Reader α) (content : List UInt8) : Option (List α) :=
  match counted item content with
  | some (as, []) => some as
  | _ => none

/-- The module with a section's items. -/
def addSection (m : Module) (s : Section) : Option Module :=
  match s.id.toNat with
  | 1 => (allItems functionType s.content).map fun types => { m with types }
  | 2 => (allItems importEntry s.content).map fun imports => { m with imports }
  | 3 => (allItems u32 s.content).map fun functions => { m with functions }
  | 4 => (allItems tableType s.content).map fun tables => { m with tables }
  | 5 => (allItems memoryType s.content).map fun memories => { m with memories }
  | 6 => (allItems (globalEntry s.content.length) s.content).map fun globals => { m with globals }
  | 7 => (allItems exportEntry s.content).map fun exports => { m with exports }
  | 8 => (allItems u32 (1 :: s.content)).map fun start => { m with start := start.head? }
  | 10 => do
    let bodies ← allItems body s.content
    let codes ← bodies.mapM code?
    some { m with codes }
  | 11 => (allItems (dataEntry s.content.length) s.content).map fun data => { m with data }
  | 9 =>
    (allItems (elementEntry s.content.length) s.content).map fun elements => { m with elements }
  | 12 => (allItems u32 (1 :: s.content)).map fun count => { m with dataCount := count.head? }
  | _ => none

/-- The module with more sections, which come in their order; `next` is the first place that is
still free. -/
def addSections (next : Nat) (m : Module) : List Section → Option Module
  | [] => some m
  | s :: rest =>
    if s.id = 0 then if (string s.content).isSome then addSections next m rest else none
    else do
      let place ← order? s.id
      if next ≤ place then
        let m ← m.addSection s
        addSections (place + 1) m rest
      else none

/-- The type indexes of all functions, the imported ones first. -/
def functionIndexes (m : Module) : List Nat :=
  let imported := m.imports.filterMap fun i =>
    match i.kind with
    | .function t => some t
    | _ => none
  imported ++ m.functions

/-- How many items of a kind the imports bring. -/
def imported (m : Module) (isOfKind : ImportKind → Bool) : Nat :=
  (m.imports.filter (isOfKind ·.kind)).length

/-- Whether an exported item exists. -/
def hasExported (m : Module) (e : ExportEntry) : Bool :=
  match e.kind.toNat with
  | 0 => e.index < m.functionIndexes.length
  | 1 => e.index < m.imported (·.isTable) + m.tables.length
  | 2 => e.index < m.imported (·.isMemory) + m.memories.length
  | 3 => e.index < m.imported (·.isGlobal) + m.globals.length
  | _ => false

/-- Whether an engine takes a table: it has 32-bit limits in order, and belongs to one thread. -/
def isPlainTable (t : TableType) : Bool :=
  t.element.isSome && t.flags ≤ 1 && t.most.all (t.least ≤ ·)

/-- The most types, imports, functions, globals and exports of a module, each. -/
def maxItems : Nat := 1000000

/-- The most segments for tables, and for memory. -/
def maxSegments : Nat := 100000

/-- The most references in a segment. -/
def maxReferences : Nat := 10000000

/-- The most tables of a module. -/
def maxTables : Nat := 100

/-- Whether an engine takes a memory: it has 32-bit limits in order, and belongs to one thread. -/
def isPlainMemory (t : MemoryType) : Bool := t.flags ≤ 1 && isPageRange t.least t.most

/-- Whether an engine takes a global. -/
def isPlainGlobal (t : GlobalType) : Bool := t.content.isSome && t.flags ≤ 1

/-- Whether an engine takes an imported item, before it looks for what to link. -/
def isPlainImport : ImportKind → Bool
  | .function _ => true
  | .table t => isPlainTable t
  | .memory t => isPlainMemory t
  | .global t => isPlainGlobal t
  | .tag => false

/-! ## Validity -/

/-- The types of all functions, where their indexes exist. -/
def functionTypes (m : Module) : Array FunctionType :=
  let types := m.types.toArray
  (m.functionIndexes.filterMap (types[·]?)).toArray

/-- The types of all tables, the imported ones first. -/
def allTables (m : Module) : List TableType :=
  m.imports.filterMap (fun i => match i.kind with | .table t => some t | _ => none) ++ m.tables

/-- The types of the imported globals. -/
def importedGlobals (m : Module) : List GlobalType :=
  m.imports.filterMap fun i => match i.kind with | .global t => some t | _ => none

/-- The functions that code may refer to: those that are mentioned outside of code. -/
def mentioned (m : Module) : Std.HashSet Nat :=
  let references (code : List Instruction) : List Nat :=
    code.filterMap fun i => match i with | .reference f => some f | _ => none
  Std.HashSet.ofList
    (m.exports.filterMap (fun e => if e.kind = 0 then some e.index else none)
      ++ m.globals.flatMap (fun (_, init) => references init)
      ++ m.elements.flatMap fun e => e.items.flatMap references)

/-- What code can refer to, other than the locals and results of its function. -/
def context (m : Module) : CodeContext where
  types := m.types.toArray
  functions := m.functionTypes
  tables := (m.allTables.map fun t => t.element.getD .funcRef).toArray
  globals := ((m.importedGlobals ++ m.globals.map (·.1)).map fun t =>
    (t.content.getD .i32, t.flags &&& 1 == 1)).toArray
  hasMemory := 0 < m.imported (·.isMemory) + m.memories.length
  elements := (m.elements.map ElementEntry.type).toArray
  data := m.dataCount
  isMentioned := let found := m.mentioned; fun f => found.contains f
  locals := #[]
  results := []

/-- Whether code fits the type of its function. -/
def isTyped (ctx : CodeContext) (typeIndex : Nat) (c : Code) : Bool :=
  ctx.types[typeIndex]?.any fun t =>
    t.params.length + c.locals.length ≤ maxLocals
      && { ctx with locals := (t.params ++ c.locals).toArray, results := t.results }.fits
        c.instructions

/-- Whether code is a constant of a type. -/
def isConstant (m : Module) (ctx : CodeContext) (t : ValueType) (code : List Instruction) : Bool :=
  ctx.isConstant m.importedGlobals.length t code

/-- Whether references are of their type, and have a place in a table for them. -/
def fitsTable (m : Module) (ctx : CodeContext) (e : ElementEntry) : Bool :=
  e.items.all (m.isConstant ctx e.type)
    && match e.mode with
      | .active table place => ctx.tables[table]? = some e.type && m.isConstant ctx .i32 place
      | .passive | .declared => true

/-- The code for the places of data. -/
def places (m : Module) : List (List Instruction) := m.data.filterMap DataEntry.place

/-- Whether the module has no more of anything than it may have. -/
def isSmall (m : Module) : Bool :=
  m.types.length ≤ maxItems && m.imports.length ≤ maxItems && m.functionIndexes.length ≤ maxItems
    && m.imported (·.isGlobal) + m.globals.length ≤ maxItems && m.exports.length ≤ maxItems
    && m.elements.length ≤ maxSegments && m.data.length ≤ maxSegments
    && m.elements.all (·.items.length ≤ maxReferences)
    && m.imported (·.isTable) + m.tables.length ≤ maxTables
    && m.imported (·.isMemory) + m.memories.length ≤ 1

/-- Whether an engine takes the module. -/
def isValid (m : Module) : Bool :=
  let ctx := m.context
  m.isSmall
    && m.functionIndexes.all (· < m.types.length)
    && m.imports.all (isPlainImport ·.kind)
    && m.memories.all isPlainMemory
    && m.tables.all isPlainTable
    && m.globals.all (fun (t, init) => isPlainGlobal t && t.content.all (m.isConstant ctx · init))
    && (m.exports.map ExportEntry.name).Nodup
    && m.exports.all m.hasExported
    && m.start.all (fun i => ctx.functions[i]? == some ⟨[], []⟩)
    && m.codes.length == m.functions.length
    && m.elements.all (m.fitsTable ctx)
    && m.dataCount.all (· == m.data.length)
    && (m.functions.zip m.codes).all (fun (t, c) => isTyped ctx t c)
    && (m.places.isEmpty || ctx.hasMemory)
    && m.places.all (m.isConstant ctx .i32)

/-- The module that sections make up, if an engine takes it. -/
def ofSections? (sections : List Section) : Option Module := do
  let m ← addSections 0 empty sections
  if m.isValid then some m else none

end Module

end CompilerHost.Binary
