import CompilerHost.Binary.Instruction

/-! # Typing

Which code fits a function. An instruction takes values off the stack and puts values there; code
is typed if each finds what it takes, refers to nothing that is not there, and the last leaves
exactly the results. A block is typed on its own, and a branch has to bring what its target wants.
-/

namespace CompilerHost.Binary

/-! ## Stacks -/

/-- The types on a stack, the top first, as far as they are known. Behind an instruction that is
never passed, any types at all may be below those that are listed. -/
structure StackType where
  listed : List (Option ValueType)
  isOpen : Bool

namespace StackType

/-- A stack of just these types, the last of them on top. -/
def ofTypes (types : List ValueType) : StackType := ⟨types.reverse.map some, false⟩

/-- What comes behind an instruction that is never passed. -/
def unknown : StackType := ⟨[], true⟩

/-- Puts types on top, the last of them last. -/
def push (s : StackType) (types : List ValueType) : StackType :=
  { s with listed := types.reverse.map some ++ s.listed }

/-- Takes off whatever is on top, with its type as far as that is known. -/
def popAny? (s : StackType) : Option (Option ValueType × StackType) :=
  match s.listed with
  | [] => if s.isOpen then some (none, s) else none
  | t :: listed => some (t, { s with listed })

/-- Takes off types, the first of them first. -/
def popAll? (s : StackType) : List ValueType → Option StackType
  | [] => some s
  | wanted :: others => do
    let (t, s) ← s.popAny?
    if t.all (· = wanted) then s.popAll? others else none

/-- Takes off types, the last of which is on top. -/
def pop? (s : StackType) (types : List ValueType) : Option StackType := s.popAll? types.reverse

/-- Takes some types off and puts others on. -/
def pass? (s : StackType) (params results : List ValueType) : Option StackType :=
  (s.pop? params).map (·.push results)

/-- What comes behind an instruction that takes types off and is never passed. -/
def stop? (s : StackType) (params : List ValueType) : Option StackType :=
  (s.pop? params).map fun _ => unknown

/-- Whether the stack holds no more than some types, the last of them on top. -/
def isExactly (s : StackType) (types : List ValueType) : Bool :=
  (s.pop? types).any (·.listed.isEmpty)

end StackType

/-- Whether values of a type are references. -/
def isReference (t : ValueType) : Bool := t = .funcRef || t = .externRef

/-! ## Code -/

/-- What code can refer to. -/
structure CodeContext where
  types : Array FunctionType
  functions : Array FunctionType
  /-- The types of what is in the tables. -/
  tables : Array ValueType
  /-- The types of globals, with whether they change. -/
  globals : Array (ValueType × Bool)
  hasMemory : Bool
  /-- The types of what is in the segments for tables. -/
  elements : Array ValueType
  /-- How many segments there are for memory, if that was announced. -/
  data : Option Nat
  /-- Whether a function has been mentioned where code may refer to it. -/
  isMentioned : Nat → Bool
  locals : Array ValueType
  results : List ValueType

namespace CodeContext

/-- The type of the functions that a block is like. -/
def blockType? (ctx : CodeContext) : BlockType → Option FunctionType
  | .plain result => some ⟨[], result.toList⟩
  | .ofFunctions type => ctx.types[type]?

/-- The type of functions that a table's entry is called with. -/
def indirectType? (ctx : CodeContext) (type table : Nat) : Option FunctionType :=
  if ctx.tables[table]? = some .funcRef then ctx.types[type]? else none

/-- The stack behind an access to memory. -/
def access? (ctx : CodeContext) (s : StackType) (params results : List ValueType) :
    Option StackType :=
  if ctx.hasMemory then s.pass? params results else none

/-- Whether a segment for memory is among those announced. -/
def hasData (ctx : CodeContext) (segment : Nat) : Bool := ctx.data.any (segment < ·)

end CodeContext

/-- The stack behind a branch: each target's types have to be there, and those of the last are taken
off. -/
def branchTable? (labels : List (List ValueType)) (s : StackType) (depths : List Nat)
    (otherwise : Nat) : Option StackType := do
  let last ← labels[otherwise]?
  let fits (depth : Nat) : Bool :=
    labels[depth]?.any fun types => types.length = last.length && (s.pop? types).isSome
  if depths.all fits then s.stop? last else none

/-- The stack behind a choice between two values of one type, which must not be references. -/
def select? (s : StackType) : Option StackType := do
  let s ← s.pop? [.i32]
  let (a, s) ← s.popAny?
  let (b, s) ← s.popAny?
  let fits := match a, b with
    | some a, some b => a == b
    | _, _ => true
  if fits && a.all (!isReference ·) && b.all (!isReference ·) then
    some { s with listed := a.or b :: s.listed }
  else none

/-- The stack behind an instruction that is no block. `labels` are the types that the targets of
branches want, the nearest first. -/
def Instruction.passed? (ctx : CodeContext) (labels : List (List ValueType)) (s : StackType)
    (i : Instruction) : Option StackType :=
  match i with
  | .unreachable => some .unknown
  | .nop => some s
  | .block .. | .loop .. | .choose .. => none
  | .branch depth => labels[depth]?.bind s.stop?
  | .branchIf depth => do
    let types ← labels[depth]?
    let s ← s.pop? [.i32]
    s.pass? types types
  | .branchTable depths otherwise => do
    let s ← s.pop? [.i32]
    branchTable? labels s depths otherwise
  | .leave => s.stop? ctx.results
  | .call f => ctx.functions[f]?.bind fun t => s.pass? t.params t.results
  | .callIndirect type table =>
    (ctx.indirectType? type table).bind fun t => s.pass? (t.params ++ [.i32]) t.results
  | .leaveToCall f => ctx.functions[f]?.bind fun t =>
    if t.results = ctx.results then s.stop? t.params else none
  | .leaveToCallIndirect type table => (ctx.indirectType? type table).bind fun t =>
    if t.results = ctx.results then s.stop? (t.params ++ [.i32]) else none
  | .drop => s.popAny?.map (·.2)
  | .select none => select? s
  | .select (some t) => s.pass? [t, t, .i32] [t]
  | .localGet i => ctx.locals[i]?.map fun t => s.push [t]
  | .localSet i => ctx.locals[i]?.bind fun t => s.pop? [t]
  | .localTee i => ctx.locals[i]?.bind fun t => s.pass? [t] [t]
  | .globalGet i => ctx.globals[i]?.map fun (t, _) => s.push [t]
  | .globalSet i => ctx.globals[i]?.bind fun (t, changes) => if changes then s.pop? [t] else none
  | .tableGet i => ctx.tables[i]?.bind fun t => s.pass? [.i32] [t]
  | .tableSet i => ctx.tables[i]?.bind fun t => s.pop? [.i32, t]
  | .tableSize i => ctx.tables[i]?.map fun _ => s.push [.i32]
  | .tableGrow i => ctx.tables[i]?.bind fun t => s.pass? [t, .i32] [.i32]
  | .tableFill i => ctx.tables[i]?.bind fun t => s.pop? [.i32, t, .i32]
  | .tableCopy target origin => do
    let t ← ctx.tables[target]?
    if ctx.tables[origin]? = some t then s.pop? [.i32, .i32, .i32] else none
  | .tableInit segment table => do
    let t ← ctx.tables[table]?
    if ctx.elements[segment]? = some t then s.pop? [.i32, .i32, .i32] else none
  | .elementDrop segment => ctx.elements[segment]?.map fun _ => s
  | .load form _ => ctx.access? s [.i32] [form.type]
  | .store form _ => ctx.access? s [.i32, form.type] []
  | .loadLane .. => ctx.access? s [.i32, .v128] [.v128]
  | .storeLane .. => ctx.access? s [.i32, .v128] []
  | .memorySize => ctx.access? s [] [.i32]
  | .memoryGrow => ctx.access? s [.i32] [.i32]
  | .memoryFill | .memoryCopy => ctx.access? s [.i32, .i32, .i32] []
  | .memoryInit segment =>
    if ctx.hasData segment then ctx.access? s [.i32, .i32, .i32] [] else none
  | .dataDrop segment => if ctx.hasData segment then some s else none
  | .constant t _ => some (s.push [t])
  | .isNull => do
    let (t, s) ← s.popAny?
    if t.all isReference then some (s.push [.i32]) else none
  | .reference f =>
    if f < ctx.functions.size ∧ ctx.isMentioned f then some (s.push [.funcRef]) else none
  | .operate op => s.pass? op.params [op.result]

mutual

/-- The stack behind an instruction. -/
def Instruction.typed? (ctx : CodeContext) (labels : List (List ValueType)) (s : StackType) :
    Instruction → Option StackType
  | .block type body => do
    let t ← ctx.blockType? type
    if isTyped ctx (t.results :: labels) (.ofTypes t.params) t.results body then
      s.pass? t.params t.results
    else none
  | .loop type body => do
    let t ← ctx.blockType? type
    -- a branch to a loop goes to its start
    if isTyped ctx (t.params :: labels) (.ofTypes t.params) t.results body then
      s.pass? t.params t.results
    else none
  | .choose type yes no => do
    let t ← ctx.blockType? type
    if isTyped ctx (t.results :: labels) (.ofTypes t.params) t.results yes
        && isTyped ctx (t.results :: labels) (.ofTypes t.params) t.results no then
      s.pass? (t.params ++ [.i32]) t.results
    else none
  | i => i.passed? ctx labels s

/-- Whether code leaves exactly some results on the stack. -/
def isTyped (ctx : CodeContext) (labels : List (List ValueType)) (s : StackType)
    (results : List ValueType) : List Instruction → Bool
  | [] => s.isExactly results
  | i :: rest =>
    match i.typed? ctx labels s with
    | some s => isTyped ctx labels s results rest
    | none => false

end

/-- Whether the body of a function is typed. -/
def CodeContext.fits (ctx : CodeContext) (body : List Instruction) : Bool :=
  isTyped ctx [ctx.results] (.ofTypes []) ctx.results body

/-! ## Constants -/

/-- Whether an instruction may be part of a constant. Of globals, the imported ones that never
change may be, and they come first. -/
def isConstantPart (imported : Nat) (ctx : CodeContext) : Instruction → Bool
  | .constant .. | .reference _ => true
  | .operate op => op.isConstant
  | .globalGet i => i < imported && ctx.globals[i]?.all fun (_, changes) => !changes
  | _ => false

/-- Whether code is a constant of a type, where so many globals are imported. -/
def CodeContext.isConstant (ctx : CodeContext) (imported : Nat) (t : ValueType)
    (code : List Instruction) : Bool :=
  code.all (isConstantPart imported ctx)
    && { ctx with isMentioned := fun _ => true, results := [t] }.fits code

end CompilerHost.Binary
