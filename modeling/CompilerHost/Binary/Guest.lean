import CompilerHost.Binary.Module

/-! # Modules as guests

What a module is once its imports are provided: its constants have values, its references are in
their tables, and its functions run on a machine.
-/

namespace CompilerHost.Binary

/-! ## Constants -/

/-- The stack behind a part of a constant. -/
def constantStep (globals : Array Nat) (values : List Nat) : Instruction → List Nat
  | .constant _ bits => bits :: values
  | .reference f => (f + 1) :: values
  | .globalGet i => globals[i]?.getD 0 :: values
  | .operate op =>
    let count := op.params.length
    match op.apply (values.take count).reverse with
    | .ok value => value :: values.drop count
    | .error _ => values
  | _ => values

/-- The value of a constant. -/
def constantValue (globals : Array Nat) (code : List Instruction) : Nat :=
  (code.foldl (constantStep globals) []).head?.getD 0

namespace Module

/-! ## State -/

/-- The globals as they start; nothing can be provided for those that are imported. -/
def initialGlobals (m : Module) : Array Nat :=
  let imported : Array Nat := Array.replicate m.importedGlobals.length 0
  imported ++ (m.globals.map fun (_, init) => constantValue imported init).toArray

/-- The most places that 32-bit indexes reach. -/
def maxTableSize : Nat := (1 <<< 32) - 1

/-- Puts references into their tables; those that do not fit trap. -/
def fillTables (globals : Array Nat) (s : State) : List ElementEntry → Except Trap State
  | [] => .ok s
  | e :: rest =>
    match e.mode with
    | .passive | .declared => fillTables globals s rest
    | .active table place =>
      match s.tables[table]?.bind
          (·.write? (constantValue globals place) (e.items.map (constantValue globals))) with
      | some t => fillTables globals (s.setTable table t) rest
      | none => .error .outsideTable

/-- What code can change, as it starts. Segments that have had their use are dropped. -/
def initialState (m : Module) : Except Trap State :=
  let globals := m.initialGlobals
  let state : State :=
    { globals := globals
      tables := (m.allTables.map fun t => Table.nulls t.least (t.most.getD maxTableSize)).toArray
      elements := (m.elements.map fun e =>
        match e.mode with
        | .passive => e.items.map (constantValue globals)
        | .active .. | .declared => []).toArray
      data := (m.data.map fun d => if d.place.isSome then [] else d.content).toArray }
  fillTables globals state m.elements

/-- The data with a place of its own. -/
def initialData (m : Module) : List (UInt32 × ByteArray) :=
  m.data.filterMap fun d => d.place.map fun place =>
    (UInt32.ofNat (constantValue m.initialGlobals place), ⟨d.content.toArray⟩)

/-- The memory as it starts, without its data. -/
def initialMemory (m : Module) : Memory :=
  match m.memories with
  | t :: _ => Memory.zeros t.least (t.most.getD maxPages)
  | [] => Memory.zeros 0 0

/-! ## Functions -/

/-- What an imported function does. Only those that the host provides ever run. -/
def importedBody (module name : String) : Body :=
  if module = hostModule ∧ name = logFlushImport then .host fun _ => .flush
  else if module = hostModule ∧ name = logWriteImport then
    .host fun args =>
      .write ⟨UInt32.ofNat (args[0]?.getD 0)⟩ (UInt32.ofNat (args[1]?.getD 0))
  else .code 0 [.unreachable]

/-- The functions, the imported ones first. -/
def callees (m : Module) : List Callee :=
  let types := m.types.toArray
  let type (index : Nat) : FunctionType := types[index]?.getD ⟨[], []⟩
  m.imports.filterMap (fun i => match i.kind with
    | .function t => some ⟨type t, importedBody i.module i.name⟩
    | _ => none)
  ++ List.zipWith (fun t c => ⟨type t, .code c.locals.length c.instructions⟩) m.functions m.codes

/-- What code refers to. -/
def program (m : Module) : Program := ⟨m.types.toArray, m.callees.toArray⟩

end Module

namespace Program

/-- A function by its index. -/
def function? (p : Program) (index : Nat) : Option (Function State) :=
  p.functions[index]?.map fun f => ⟨f.type, fun args => p.run f (args.map (·.toNat))⟩

/-- What runs at the start, given the index of a function. -/
def startAt? (p : Program) (index : Nat) : Option (Start State) :=
  match p.functions[index]?.map Callee.body with
  | some (.host call) => some (.host (call []))
  | _ => (p.function? index).map .own

/-- What an export stands for. -/
def exported (p : Program) (e : ExportEntry) : Export State :=
  if e.kind = 0 then ((p.function? e.index).map .function).getD .other
  else if e.kind = 2 then .memory
  else .other

end Program

/-- The guest that a module is. -/
def Module.guest (m : Module) : Guest State :=
  let p := m.program
  { imports := m.imports.map fun i =>
      ⟨i.module, i.name, match i.kind with | .function t => m.types[t]? | _ => none⟩
    exports := m.exports.map fun e => (e.name, p.exported e)
    memory := m.initialMemory
    globals := m.initialState
    data := m.initialData
    start := m.start.bind p.startAt? }

end CompilerHost.Binary
