import CompilerHost.Guest

/-! # Scripted guests

A small language for guests. A script says how its memory starts, how its allocators answer, and
what its entry point and its start function do, step by step. Numbers are 32-bit words and wrap;
whatever lies outside memory traps, and a trap keeps all that was done before.
-/

namespace CompilerHost.Script

/-- A value computed by a script. -/
inductive Expr where
  | word (w : UInt32)
  /-- The first of two arguments. -/
  | options
  /-- The last argument. -/
  | source
  /-- What the latest allocation or assignment gave; the result unless another is returned. -/
  | out
  /-- Where the allocator goes on. -/
  | heap
  /-- The size of memory in pages. -/
  | pages
  /-- The number of bytes up to the first zero. -/
  | stringLength (place : Expr)
  | load8 (place : Expr)
  | load32 (place : Expr)
  | add (a b : Expr)
  /-- One if equal and else zero. -/
  | eq (a b : Expr)
deriving DecidableEq, Repr

/-- Something that a script does. -/
inductive Step where
  | write (start length : Expr)
  | flush
  | store8 (place value : Expr)
  | store32 (place value : Expr)
  /-- Stores bytes one by one; the place is computed anew for each. -/
  | bytes (place : Expr) (data : List UInt8)
  /-- Moves bytes, as if all were read before any is written. -/
  | copy (target origin length : Expr)
  | alloc (size : Expr)
  /-- Adds pages: the old number, or all ones where memory cannot grow. -/
  | grow (count : Expr)
  | assign (value : Expr)
  | trap
  /-- Runs until there is no fuel. -/
  | spin
  | exit (result : Expr)
  | branch (condition : Expr) (yes no : List Step)
deriving Repr

/-- How an allocator is exported, and what it does. -/
inductive Allocator where
  /-- Hands out the heap from its start on, and lets memory grow. -/
  | bump
  | returns (result : UInt32)
  | trap
  | spin
  | absent
  /-- Exported, but no function. -/
  | global
  /-- A function with a result of the wrong type. -/
  | wide
  /-- A function without a result. -/
  | silent
deriving DecidableEq, Repr

/-- How the entry point is exported, and what it does. -/
inductive Entry where
  | absent
  /-- Exported, but no function. -/
  | global
  | function (params : List ValueType) (result : Option ValueType) (steps : List Step)
deriving Repr

/-- How memory is exported. -/
inductive MemoryExport where
  | memory
  /-- Under a name that nobody asks for. -/
  | renamed
  | absent
  /-- The name belongs to a function. -/
  | function
deriving DecidableEq, Repr

end Script

open Script in
/-- A guest as a script. -/
structure Script where
  /-- Module, name and parameters of each imported function. -/
  imports : List (String × String × List ValueType)
  minPages : Nat
  maxPages : Option Nat
  memoryAs : MemoryExport
  data : List (UInt32 × List UInt8)
  heap : UInt32
  allocator : Allocator
  imageAllocator : Allocator
  entry : Entry
  start : Option (List Step)
deriving Repr

namespace Script

/-! ## Running -/

/-- A script at work: its memory and what it remembers, and the host calls so far, the latest
first. A script remembers where its heap goes on. -/
structure Running where
  live : Instance UInt32
  out : UInt32
  calls : List (HostCall × Instance UInt32)

namespace Running

/-- The memory at present. -/
def memory (r : Running) : Memory := r.live.memory

def setMemory (r : Running) (m : Memory) : Running := { r with live := { r.live with memory := m } }

/-- Calls the host. -/
def tell (r : Running) (call : HostCall) : Running := { r with calls := (call, r.live) :: r.calls }

end Running

/-- The memory with at least so many bytes, if it may grow that far; if not, with as many pages as
it may have. The size is a word too, so the memory of all addresses counts as one of none. -/
def reach (m : Memory) (bytes : Nat) : Memory × Bool :=
  let wanted := (bytes + pageSize - 1) / pageSize
  let goal := min wanted (min m.limit CompilerHost.maxPages)
  let grown :=
    if m.pages.size < goal then (m.grow? (goal - m.pages.size)).getD m else m
  (grown, bytes ≤ grown.size % (1 <<< 32))

/-- Hands out bytes from where the heap goes on: the address, and the instance after that. Where
memory cannot grow enough, the address is null and the heap stays. -/
def bump (live : Instance UInt32) (size : UInt32) : UInt32 × Instance UInt32 :=
  let heap := live.globals
  let finish := heap + size
  if finish < heap then (0, live)
  else
    -- pages that were added stay, also where they are not enough
    let (memory, enough) := reach live.memory finish.toNat
    if enough then (heap, { live with memory := memory, globals := finish })
    else (0, { live with memory := memory })

/-- The arguments of the function that runs. -/
structure Arguments where
  options : UInt32
  source : UInt32

/-- The arguments in the order of the parameters: the source is the last. -/
def Arguments.ofList : List UInt32 → Arguments
  | [] => ⟨0, 0⟩
  | [source] => ⟨0, source⟩
  | options :: source :: _ => ⟨options, source⟩

/-- The value of an expression. -/
def Expr.eval (args : Arguments) (r : Running) : Expr → Except Trap UInt32
  | .word w => .ok w
  | .options => .ok args.options
  | .source => .ok args.source
  | .out => .ok r.out
  | .heap => .ok r.live.globals
  | .pages => .ok (UInt32.ofNat r.memory.pages.size)
  | .stringLength e => do
    let a ← e.eval args r
    match r.memory.stringLength? a.toNat with
    | some n => .ok (UInt32.ofNat n)
    | none => .error .outOfBounds
  | .load8 e => do
    let a ← e.eval args r
    if r.memory.Fits ⟨a⟩ 1 then .ok (r.memory.byte a.toNat).toUInt32 else .error .outOfBounds
  | .load32 e => do
    let a ← e.eval args r
    (r.memory.readWord ⟨a⟩).mapError fun _ => .outOfBounds
  | .add a b => do
    let x ← a.eval args r
    let y ← b.eval args r
    .ok (x + y)
  | .eq a b => do
    let x ← a.eval args r
    let y ← b.eval args r
    .ok (if x = y then 1 else 0)

/-- What a step leads to. -/
inductive Next where
  | goOn
  | exit (result : UInt32)
  | trap (t : Trap)

/-- Stores bytes, if they fit. -/
def Running.store (r : Running) (a : UInt32) (bytes : List UInt8) : Running × Next :=
  match r.memory.write ⟨a⟩ ⟨bytes.toArray⟩ with
  | .ok m => (r.setMemory m, .goOn)
  | .error _ => (r, .trap .outOfBounds)

/-- Stores bytes one after the other. -/
def storeEach (args : Arguments) (place : Expr) (i : UInt32) (r : Running) :
    List UInt8 → Running × Next
  | [] => (r, .goOn)
  | b :: rest =>
    match place.eval args r with
    | .error t => (r, .trap t)
    | .ok a =>
      match r.store (a + i) [b] with
      | (r, .goOn) => storeEach args place (i + 1) r rest
      | stopped => stopped

/-- Moves bytes, if both ends fit. -/
def Running.copy (r : Running) (target origin length : UInt32) : Running × Next :=
  if r.memory.Fits ⟨target⟩ length.toNat ∧ r.memory.Fits ⟨origin⟩ length.toNat then
    let bytes := r.memory.slice origin.toNat length.toNat
    (r.setMemory (r.memory.overwrite target.toNat bytes.toList), .goOn)
  else (r, .trap .outOfBounds)

/-- Goes on with a value, or traps without it. -/
def Running.withValue (r : Running) (value : Except Trap UInt32) (f : UInt32 → Running × Next) :
    Running × Next :=
  match value with
  | .ok v => f v
  | .error t => (r, .trap t)

mutual

/-- Carries one step out. -/
def Step.exec (args : Arguments) (r : Running) : Step → Running × Next
  | .write start length =>
    r.withValue (start.eval args r) fun start =>
      r.withValue (length.eval args r) fun length => (r.tell (.write ⟨start⟩ length), .goOn)
  | .flush => (r.tell .flush, .goOn)
  | .store8 place value =>
    r.withValue (place.eval args r) fun a =>
      r.withValue (value.eval args r) fun v => r.store a [UInt8.ofNat v.toNat]
  | .store32 place value =>
    r.withValue (place.eval args r) fun a =>
      r.withValue (value.eval args r) fun v => r.store a (Memory.wordBytes v)
  | .bytes place data => storeEach args place 0 r data
  | .copy target origin length =>
    r.withValue (target.eval args r) fun target =>
      r.withValue (origin.eval args r) fun origin =>
        r.withValue (length.eval args r) fun length => r.copy target origin length
  | .alloc size =>
    r.withValue (size.eval args r) fun size =>
      let (a, live) := bump r.live size
      ({ r with live := live, out := a }, .goOn)
  | .grow count =>
    r.withValue (count.eval args r) fun count =>
      match r.memory.grow? count.toNat with
      | some m =>
        ({ r.setMemory m with out := UInt32.ofNat r.memory.pages.size }, .goOn)
      | none => ({ r with out := wordOf (-1) }, .goOn)
  | .assign value => r.withValue (value.eval args r) fun v => ({ r with out := v }, .goOn)
  | .trap => (r, .trap .unreachable)
  | .spin => ({ r with live := { r.live with fuel := 0 } }, .trap .outOfFuel)
  | .exit result => r.withValue (result.eval args r) fun v => (r, .exit v)
  | .branch condition yes no =>
    r.withValue (condition.eval args r) fun v =>
      if v = 0 then execAll args r no else execAll args r yes

/-- Carries steps out in order, as long as they go on. -/
def execAll (args : Arguments) (r : Running) : List Step → Running × Next
  | [] => (r, .goOn)
  | step :: rest =>
    match step.exec args r with
    | (r, .goOn) => execAll args r rest
    | stopped => stopped

end

/-- The instance of a function that was entered: that takes one unit of fuel. -/
def entered (live : Instance UInt32) : Instance UInt32 := { live with fuel := live.fuel - 1 }

/-- A run of steps as a function. -/
def runSteps (steps : List Step) (args : List UInt32) (live : Instance UInt32) :
    Execution UInt32 :=
  let (r, next) := execAll (.ofList args) ⟨entered live, 0, []⟩ steps
  { calls := r.calls.reverse
    ending :=
      match next with
      | .goOn => .ok r.out
      | .exit result => .ok result
      | .trap t => .error t
    final := r.live }

/-! ## Guests -/

/-- A function that does no more than answer. -/
def answering (type : FunctionType)
    (answer : UInt32 → Instance UInt32 → Except Trap UInt32 × Instance UInt32) :
    Function UInt32 where
  type := type
  run args live :=
    let (ending, live) := answer (args.head?.getD 0) (entered live)
    ⟨[], ending, live⟩

/-- What an allocator exports. -/
def Allocator.export? : Allocator → Option (Export UInt32)
  | .bump => some (.function (answering Guest.allocatorType fun size live =>
      let (a, live) := Script.bump live size
      (.ok a, live)))
  | .returns result =>
    some (.function (answering Guest.allocatorType fun _ live => (.ok result, live)))
  | .trap =>
    some (.function (answering Guest.allocatorType fun _ live => (.error .unreachable, live)))
  | .spin =>
    some (.function (answering Guest.allocatorType fun _ live =>
      (.error .outOfFuel, { live with fuel := 0 })))
  | .absent => none
  | .global => some .other
  | .wide => some (.function (answering ⟨[.i32], [.i64]⟩ fun _ live => (.ok 0, live)))
  | .silent => some (.function (answering ⟨[.i32], []⟩ fun _ live => (.ok 0, live)))

/-- What an entry point exports. -/
def Entry.export? : Entry → Option (Export UInt32)
  | .absent => none
  | .global => some .other
  | .function params result steps =>
    some (.function ⟨⟨params, result.toList⟩, runSteps steps⟩)

/-- The name under which memory is exported where nobody asks for it. -/
def otherMemoryName : String := "mem"

/-- What the memory exports. -/
def MemoryExport.export? : MemoryExport → Option (String × Export UInt32)
  | .memory => some (Guest.memoryExport, .memory)
  | .renamed => some (otherMemoryName, .memory)
  | .absent => none
  | .function => some (Guest.memoryExport,
      .function (answering ⟨[], []⟩ fun _ live => (.ok 0, live)))

/-- The exports of a script, in order. -/
def exports (s : Script) : List (String × Export UInt32) :=
  s.memoryAs.export?.toList
    ++ (s.allocator.export?.map (Guest.allocatorExport, ·)).toList
    ++ (s.imageAllocator.export?.map (Guest.imageAllocatorExport, ·)).toList
    ++ (s.entry.export?.map (compileExport, ·)).toList

/-- The guest that a script describes. -/
def guest (s : Script) : Guest UInt32 where
  imports := s.imports.map fun (module, name, params) => ⟨module, name, some ⟨params, []⟩⟩
  exports := s.exports
  memory := Memory.zeros s.minPages (s.maxPages.getD CompilerHost.maxPages)
  globals := .ok s.heap
  data := s.data.map fun (offset, bytes) => (offset, ⟨bytes.toArray⟩)
  start := s.start.map fun steps => .own ⟨⟨[], []⟩, runSteps steps⟩

/-- The types of the functions whose types a script is free to choose. -/
def chosenTypes (s : Script) : List FunctionType :=
  let imported := s.imports.map fun (_, _, params) => ⟨params, []⟩
  match s.entry with
  | .function params result _ => ⟨params, result.toList⟩ :: imported
  | _ => imported

/-- Whether an engine takes a guest like that. -/
def isTaken (s : Script) : Bool :=
  isPageRange s.minPages s.maxPages && s.chosenTypes.all FunctionType.isTaken

end Script

end CompilerHost
