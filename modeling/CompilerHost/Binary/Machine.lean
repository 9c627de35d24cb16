import CompilerHost.Binary.Instruction
import CompilerHost.Memory
import Std.Data.HashMap

/-! # Running code

A machine that carries code out one instruction at a time. What code can change besides memory is
its `State`: globals, tables, and the segments that were not dropped yet. Fuel is counted as code
goes on, and looked at wherever code can come round again: where a function starts, and a loop.

Code that is typed never finds the stack shorter than it needs; of other code, a machine that gets
stuck does no more than trap.
-/

namespace CompilerHost.Binary

/-! ## State -/

/-- References in order, where what was never written is null. A reference is zero for null, or one
more than the index of a function. -/
structure Table where
  size : Nat
  limit : Nat
  entries : Std.HashMap Nat Nat

namespace Table

/-- A table of nulls. -/
def nulls (size limit : Nat) : Table := ⟨size, limit, ∅⟩

/-- The reference at a place. -/
def get? (t : Table) (i : Nat) : Option Nat :=
  if i < t.size then some (t.entries.getD i 0) else none

/-- The table with references from a place on, whether they fit or not. -/
def overwrite (t : Table) (start : Nat) : List Nat → Table
  | [] => t
  | r :: rest => overwrite { t with entries := t.entries.insert start r } (start + 1) rest

/-- The table with references from a place on, if they fit. -/
def write? (t : Table) (start : Nat) (references : List Nat) : Option Table :=
  if start + references.length ≤ t.size then some (t.overwrite start references) else none

/-- So many references from a place on, if there are as many. -/
def read? (t : Table) (start length : Nat) : Option (List Nat) :=
  if start + length ≤ t.size then
    some ((List.range length).map fun i => t.entries.getD (start + i) 0)
  else none

/-- The table with more places, all of them with one reference, unless that exceeds the limit. -/
def grow? (t : Table) (count reference : Nat) : Option Table :=
  if t.size + count ≤ t.limit then
    let grown := { t with size := t.size + count }
    some (if reference = 0 then grown else grown.overwrite t.size (List.replicate count reference))
  else none

end Table

/-- What code can change besides memory. A segment that was dropped is empty. -/
structure State where
  globals : Array Nat
  tables : Array Table
  elements : Array (List Nat)
  data : Array (List UInt8)

namespace State

/-- Nothing at all. -/
def empty : State := ⟨#[], #[], #[], #[]⟩

def setTable (s : State) (i : Nat) (t : Table) : State :=
  { s with tables := s.tables.setIfInBounds i t }

end State

/-! ## Code -/

/-- What a function does. -/
inductive Body where
  /-- A function of the host. -/
  | host (call : List Nat → HostCall)
  /-- Code, with so many locals behind its parameters. -/
  | code (locals : Nat) (instructions : List Instruction)

/-- A function that code can call. -/
structure Callee where
  type : FunctionType
  body : Body

/-- What code refers to. -/
structure Program where
  types : Array FunctionType
  functions : Array Callee

namespace Program

/-- The number of values that a block takes, and of those that it leaves. -/
def arity (p : Program) : BlockType → Nat × Nat
  | .plain none => (0, 0)
  | .plain (some _) => (0, 1)
  | .ofFunctions type =>
    match p.types[type]? with
    | some t => (t.params.length, t.results.length)
    | none => (0, 0)

end Program

/-! ## Machines -/

/-- What it takes to leave a block. -/
structure Label where
  /-- How many values a branch brings. -/
  arity : Nat
  /-- What a branch goes on with. -/
  target : List Instruction
  /-- What the end of the block goes on with. -/
  next : List Instruction
  /-- The values below those of the block. -/
  below : List Nat

/-- A function at work: what is left to do, the blocks around that, and the values, the latest
first. -/
structure Activation where
  results : Nat
  locals : Array Nat
  labels : List Label
  code : List Instruction
  values : List Nat

/-- A machine: the function at work, those that wait for it, and what they all share. -/
structure Machine extends Activation where
  callers : List Activation
  /-- How many wait. -/
  depth : Nat
  state : State
  memory : Memory
  /-- The fuel that is left; it is noticed only later if there is none. -/
  fuel : Int
  /-- The calls to the host so far, the latest first, each with what it found. -/
  calls : List (HostCall × Instance State)

/-- What a step leads to. -/
inductive Progress where
  | running (m : Machine)
  | ended (m : Machine) (ending : Except Trap (List Nat))

namespace Machine

/-- The most functions that wait for another. -/
def maxDepth : Nat := 16384

def trap (m : Machine) (t : Trap) : Progress := .ended m (.error t)

/-- What is the matter with code that is not typed. -/
def stuck (m : Machine) : Progress := m.trap .unreachable

/-- Goes on with a value more. -/
def push (m : Machine) (value : Nat) : Progress :=
  .running { m with toActivation := { m.toActivation with values := value :: m.values } }

def setValues (m : Machine) (values : List Nat) : Machine :=
  { m with toActivation := { m.toActivation with values := values } }

def setState (m : Machine) (state : State) : Machine := { m with state := state }

/-- Goes on with the function at work changed. -/
def activate (m : Machine) (a : Activation) : Progress := .running { m with toActivation := a }

/-- What the host finds when it is called. -/
def live (m : Machine) : Instance State := ⟨m.memory, m.state, UInt64.ofNat m.fuel.toNat⟩

/-- Traps if there is no fuel. -/
def refuel (m : Machine) : Progress :=
  if m.fuel ≤ 0 then { m with fuel := 0 }.trap .outOfFuel else .running m

/-! ## Control -/

/-- Goes into a block. A branch to it goes on with `target`, and what follows it is `next`. -/
def enter (m : Machine) (arity taken : Nat) (target next body : List Instruction) : Machine :=
  let label : Label := ⟨arity, target, next, m.values.drop taken⟩
  { m with toActivation :=
    { m.toActivation with
      labels := label :: m.labels, code := body, values := m.values.take taken } }

/-- Goes back to the function that waits, with results, the latest first. -/
def finish (m : Machine) : Progress :=
  let results := m.values.take m.results
  match m.callers with
  | [] => .ended m (.ok results.reverse)
  | caller :: callers =>
    .running { m with
      toActivation := { caller with values := results ++ caller.values }
      callers := callers
      depth := m.depth - 1 }

/-- Branches to the block that is so many blocks up; past them all, that leaves the function. -/
def branch (m : Machine) (depth : Nat) : Progress :=
  match m.labels.drop depth with
  | [] => m.finish
  | label :: labels =>
    m.activate { m.toActivation with
      labels := labels, code := label.target, values := m.values.take label.arity ++ label.below }

/-- Goes on behind the block that ends here; without one, the function ends. -/
def close (m : Machine) : Progress :=
  match m.labels with
  | [] => m.finish
  | label :: labels =>
    m.activate { m.toActivation with
      labels := labels, code := label.next, values := m.values ++ label.below }

/-- Calls a function, which takes its arguments off the stack. -/
def call (m : Machine) (f : Callee) : Progress :=
  let count := f.type.params.length
  let args := (m.values.take count).reverse
  let m := m.setValues (m.values.drop count)
  match f.body with
  | .host make => .running { m with calls := (make args, m.live) :: m.calls }
  | .code locals instructions =>
    if maxDepth ≤ m.depth then m.trap .outOfStack
    else
      refuel { m with
        toActivation :=
          ⟨f.type.results.length, args.toArray ++ Array.replicate locals 0, [], instructions, []⟩
        callers := m.toActivation :: m.callers
        depth := m.depth + 1
        fuel := m.fuel - 1 }

/-- Calls a function in place of the one at work. -/
def callInstead (m : Machine) (f : Callee) : Progress :=
  match f.body with
  | .host _ =>
    match m.call f with
    | .running m => m.finish
    | ended => ended
  | .code locals instructions =>
    let args := (m.values.take f.type.params.length).reverse
    refuel { m with
      toActivation :=
        ⟨f.type.results.length, args.toArray ++ Array.replicate locals 0, [], instructions, []⟩
      fuel := m.fuel - 1 }

/-- Goes on with the function in a table that the latest value says. -/
def withEntry (m : Machine) (p : Program) (type table : Nat) (go : Machine → Callee → Progress) :
    Progress :=
  match m.values with
  | [] => m.stuck
  | i :: values =>
    let m := m.setValues values
    match m.state.tables[table]?.bind (·.get? i) with
    | none => m.trap .outsideTable
    | some 0 => m.trap .noFunction
    | some (index + 1) =>
      match p.functions[index]? with
      | none => m.stuck
      | some f => if p.types[type]? = some f.type then go m f else m.trap .otherFunctionType

/-! ## Memory -/

/-- The number in so many bytes of memory, if they are all there. -/
def read? (m : Machine) (place bytes : Nat) : Option Nat :=
  if place + bytes ≤ m.memory.size then
    some ((List.range bytes).foldr (fun i n => (m.memory.byte (place + i)).toNat + 256 * n) 0)
  else none

/-- So many lower bytes of a number. -/
def lowerBytes (bytes n : Nat) : List UInt8 :=
  (List.range bytes).map fun i => UInt8.ofNat (n >>> (8 * i))

/-- Puts bytes into memory, if they fit. -/
def write (m : Machine) (place : Nat) (content : List UInt8) : Progress :=
  if place + content.length ≤ m.memory.size then
    .running { m with memory := m.memory.overwrite place content }
  else m.trap .outOfBounds

/-- Puts references into a table, if they are given and fit. -/
def fillTable (m : Machine) (table place : Nat) (references : Option (List Nat)) : Progress :=
  match references, m.state.tables[table]? with
  | some references, some t =>
    match t.write? place references with
    | some t => .running (m.setState (m.state.setTable table t))
    | none => m.trap .outsideTable
  | none, some _ => m.trap .outsideTable
  | _, none => m.stuck

/-- So many items from a place on, if there are as many. -/
def stretch? {α : Type} (items : List α) (start length : Nat) : Option (List α) :=
  if start + length ≤ items.length then some ((items.drop start).take length) else none

/-- The word that stands for a failure. -/
def failure : Nat := (1 <<< 32) - 1

/-! ## Steps -/

/-- Carries out an instruction that needs no more than values. -/
def stepPlain (m : Machine) (i : Instruction) : Progress :=
  match i, m.values with
  | .nop, _ => .running m
  | .drop, _ :: values => .running (m.setValues values)
  | .select _, chosen :: b :: a :: values =>
    .running (m.setValues ((if chosen = 0 then b else a) :: values))
  | .constant _ bits, _ => m.push bits
  | .isNull, a :: values => .running (m.setValues (Operation.flag (a = 0) :: values))
  | .reference f, _ => m.push (f + 1)
  | .operate op, values =>
    let count := op.params.length
    match op.apply (values.take count).reverse with
    | .ok value => .running (m.setValues (value :: values.drop count))
    | .error t => m.trap t
  | .localGet i, _ => m.push (m.locals[i]?.getD 0)
  | .localSet i, a :: values =>
    m.activate { m.toActivation with locals := m.locals.setIfInBounds i a, values := values }
  | .localTee i, a :: _ => m.activate { m.toActivation with locals := m.locals.setIfInBounds i a }
  | .globalGet i, _ => m.push (m.state.globals[i]?.getD 0)
  | .globalSet i, a :: values =>
    .running ((m.setValues values).setState
      { m.state with globals := m.state.globals.setIfInBounds i a })
  | _, _ => m.stuck

/-- Carries out an instruction on tables. -/
def stepTable (m : Machine) (i : Instruction) : Progress :=
  match i, m.values with
  | .tableGet table, i :: values =>
    match m.state.tables[table]?.bind (·.get? i) with
    | some r => .running (m.setValues (r :: values))
    | none => m.trap .outsideTable
  | .tableSet table, r :: i :: values => (m.setValues values).fillTable table i (some [r])
  | .tableSize table, _ => m.push ((m.state.tables[table]?.map Table.size).getD 0)
  | .tableGrow table, count :: r :: values =>
    let m := m.setValues values
    match m.state.tables[table]? with
    | none => m.stuck
    | some t =>
      match t.grow? count r with
      | some grown => (m.setState (m.state.setTable table grown)).push t.size
      | none => m.push failure
  | .tableFill table, count :: r :: i :: values =>
    let m := m.setValues values
    match m.state.tables[table]? with
    | none => m.stuck
    | some t =>
      -- the room is looked at first, as the count may be huge
      if i + count ≤ t.size then m.fillTable table i (some (List.replicate count r))
      else m.trap .outsideTable
  | .tableCopy target origin, count :: start :: i :: values =>
    (m.setValues values).fillTable target i
      (m.state.tables[origin]?.bind (·.read? start count))
  | .tableInit segment table, count :: start :: i :: values =>
    (m.setValues values).fillTable table i
      (stretch? (m.state.elements[segment]?.getD []) start count)
  | .elementDrop segment, _ =>
    .running (m.setState
      { m.state with elements := m.state.elements.setIfInBounds segment [] })
  | _, _ => m.stuck

/-- Carries out an instruction on memory. -/
def stepMemory (m : Machine) (i : Instruction) : Progress :=
  match i, m.values with
  | .load form offset, a :: values =>
    match m.read? (a + offset) form.bytes with
    | some n => .running (m.setValues (form.expand n :: values))
    | none => m.trap .outOfBounds
  | .store form offset, n :: a :: values =>
    (m.setValues values).write (a + offset) (lowerBytes form.bytes n)
  | .loadLane bytes lane offset, v :: a :: values =>
    match m.read? (a + offset) bytes with
    | some n =>
      let lanes := (Vector.lanes (8 * bytes) v).set lane n
      .running (m.setValues (Vector.ofLanes (8 * bytes) lanes :: values))
    | none => m.trap .outOfBounds
  | .storeLane bytes lane offset, v :: a :: values =>
    let n := (Vector.lanes (8 * bytes) v)[lane]?.getD 0
    (m.setValues values).write (a + offset) (lowerBytes bytes n)
  | .memorySize, _ => m.push m.memory.pages.size
  | .memoryGrow, count :: values =>
    let m := m.setValues values
    match m.memory.grow? count with
    | some grown => { m with memory := grown }.push m.memory.pages.size
    | none => m.push failure
  | .memoryFill, count :: b :: a :: values =>
    let m := m.setValues values
    if a + count ≤ m.memory.size then m.write a (List.replicate count (UInt8.ofNat b))
    else m.trap .outOfBounds
  | .memoryCopy, count :: start :: a :: values =>
    let m := m.setValues values
    if start + count ≤ m.memory.size ∧ a + count ≤ m.memory.size then
      m.write a (m.memory.slice start count).toList
    else m.trap .outOfBounds
  | .memoryInit segment, count :: start :: a :: values =>
    let m := m.setValues values
    match stretch? (m.state.data[segment]?.getD []) start count with
    | some content => m.write a content
    | none => m.trap .outOfBounds
  | .dataDrop segment, _ =>
    .running (m.setState { m.state with data := m.state.data.setIfInBounds segment [] })
  | _, _ => m.stuck

/-- Carries out an instruction; the code behind it is what is left to do. -/
def stepInstruction (p : Program) (m : Machine) (i : Instruction) : Progress :=
  match i with
  | .unreachable => m.trap .unreachable
  | .block type body =>
    let (taken, left) := p.arity type
    .running (m.enter left taken m.code m.code body)
  | .loop type body =>
    let taken := (p.arity type).1
    (m.enter taken taken (.loop type body :: m.code) m.code body).refuel
  | .choose type yes no =>
    match m.values with
    | [] => m.stuck
    | chosen :: values =>
      let (taken, left) := p.arity type
      let m := m.setValues values
      .running (m.enter left taken m.code m.code (if chosen = 0 then no else yes))
  | .branch depth => m.branch depth
  | .branchIf depth =>
    match m.values with
    | [] => m.stuck
    | chosen :: values =>
      let m := m.setValues values
      if chosen = 0 then .running m else m.branch depth
  | .branchTable depths otherwise =>
    match m.values with
    | [] => m.stuck
    | i :: values => (m.setValues values).branch (depths[i]?.getD otherwise)
  | .leave => m.finish
  | .call f => (p.functions[f]?.map m.call).getD m.stuck
  | .callIndirect type table => m.withEntry p type table call
  | .leaveToCall f => (p.functions[f]?.map m.callInstead).getD m.stuck
  | .leaveToCallIndirect type table => m.withEntry p type table callInstead
  | .tableGet .. | .tableSet .. | .tableSize .. | .tableGrow .. | .tableFill .. | .tableCopy ..
  | .tableInit .. | .elementDrop .. => m.stepTable i
  | .load .. | .store .. | .loadLane .. | .storeLane .. | .memorySize | .memoryGrow | .memoryFill
  | .memoryCopy | .memoryInit .. | .dataDrop .. => m.stepMemory i
  | _ => m.stepPlain i

/-- The fuel that an instruction takes. -/
def cost : Instruction → Nat
  | .nop | .drop | .block .. | .loop .. | .unreachable | .leave => 0
  | _ => 1

/-- One step. -/
def step (p : Program) (m : Machine) : Progress :=
  match m.code with
  | [] => m.close
  | i :: rest =>
    stepInstruction p
      { m with toActivation := { m.toActivation with code := rest }, fuel := m.fuel - cost i } i

/-- Runs for so many steps at most. There are always enough of them: see `Program.maxSteps`. -/
def run (p : Program) : Nat → Machine → Machine × Except Trap (List Nat)
  | 0, m => ({ m with fuel := 0 }, .error .outOfFuel)
  | n + 1, m =>
    match m.step p with
    | .running m => run p n m
    | .ended m ending => (m, ending)

/-- A machine that has nothing to do yet. -/
def idle (live : Instance State) : Machine where
  results := 0
  locals := #[]
  labels := []
  code := []
  values := []
  callers := []
  depth := 0
  state := live.globals
  memory := live.memory
  fuel := live.fuel.toNat
  calls := []

end Machine

/-! ## Whole runs -/

mutual

/-- The number of instructions in an instruction. A block is one more where it ends. -/
def Instruction.size : Instruction → Nat
  | .block _ body | .loop _ body => codeSize body + 2
  | .choose _ yes no => codeSize yes + codeSize no + 2
  | _ => 1

/-- The number of instructions in code, with those in its blocks. -/
def codeSize : List Instruction → Nat
  | [] => 0
  | i :: rest => i.size + codeSize rest

end

/-- The number of instructions in a function; a function of the host has none. -/
def Callee.size (f : Callee) : Nat :=
  match f.body with
  | .host _ => 0
  | .code _ instructions => codeSize instructions

namespace Program

/-- The size of the largest function. -/
def largest (p : Program) : Nat := p.functions.toList.foldr (fun f most => max f.size most) 0

/-- More steps than a function can take with so much fuel. Code does not come round again without
fuel, so that there are fewer steps for each unit than the largest function has instructions. -/
def maxSteps (p : Program) (f : Callee) (fuel : Nat) : Nat :=
  (max f.size p.largest + 1) * fuel + 2

/-- Runs a function. -/
def run (p : Program) (f : Callee) (args : List Nat) (live : Instance State) : Execution State :=
  let (m, ending) :=
    match ({ (Machine.idle live) with
        results := f.type.results.length, values := args.reverse }).call f with
    | .running m => m.run p (p.maxSteps f live.fuel.toNat)
    | .ended m ending => (m, ending)
  { calls := m.calls.reverse
    ending := ending.map fun results => UInt32.ofNat (results.head?.getD 0)
    final := m.live }

end Program

end CompilerHost.Binary
