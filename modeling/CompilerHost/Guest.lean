import CompilerHost.Log
import CompilerHost.Memory

/-! # Guests

What the host needs to know of a guest: the types and the behaviour of its functions, its memory
and how it starts. A guest is any value of `Guest`; the host sees of it only the calls that it
makes while one of its functions runs, and the memory it leaves.

A running function cannot see what the host answers, so its run is given at once: the host calls
in order, each with the instance as the guest has left it at that moment, and the end.
-/

namespace CompilerHost

/-- The types of values. -/
inductive ValueType where
  | i32
  | i64
  | f32
  | f64
  | v128
  | funcRef
  | externRef
deriving DecidableEq, Repr

/-- What a function takes and returns. -/
structure FunctionType where
  params : List ValueType
  results : List ValueType
deriving DecidableEq, Repr

/-- The most parameters of a function, and the most results. -/
def maxArity : Nat := 1000

/-- Whether an engine takes functions of a type. -/
def FunctionType.isTaken (t : FunctionType) : Bool :=
  t.params.length ≤ maxArity && t.results.length ≤ maxArity

/-- A call from the guest to the host. -/
inductive HostCall where
  /-- Appends the text in a stretch of memory to the log. -/
  | write (start : Address) (length : UInt32)
  /-- Completes a block of the log. -/
  | flush
deriving DecidableEq, Repr

/-- The module of every function that the host provides. -/
def hostModule : String := "env"

/-- The function that appends to the log. -/
def logWriteImport : String := "jsConsoleLogWrite"

/-- The function that completes a block of the log. -/
def logFlushImport : String := "jsConsoleLogFlush"

/-- The type of a function that the host provides. -/
def hostFunctionType? (module name : String) : Option FunctionType :=
  if module = hostModule ∧ name = logWriteImport then some ⟨[.i32, .i32], []⟩
  else if module = hostModule ∧ name = logFlushImport then some ⟨[], []⟩
  else none

/-- A live guest: its memory, whatever else it remembers, and the fuel that is left. -/
structure Instance (σ : Type) where
  memory : Memory
  globals : σ
  fuel : UInt64

/-- One run of a guest function. -/
structure Execution (σ : Type) where
  /-- The calls to the host, each with the instance at that moment. -/
  calls : List (HostCall × Instance σ)
  ending : Except Trap UInt32
  /-- The instance at the end. -/
  final : Instance σ

/-- A function of a guest. -/
structure Function (σ : Type) where
  type : FunctionType
  run : List UInt32 → Instance σ → Execution σ

/-- What runs when a guest starts: a function of its own, or at once one of the host's. -/
inductive Start (σ : Type) where
  | own (f : Function σ)
  | host (call : HostCall)

/-- What stands behind an exported name. -/
inductive Export (σ : Type) where
  | function (f : Function σ)
  | memory
  /-- A global, a table or anything else that the host has no use for. -/
  | other

/-- What a guest asks of the host. -/
structure Import where
  module : String
  name : String
  /-- The type of a function; nothing else can be provided. -/
  type : Option FunctionType
deriving DecidableEq, Repr

/-- A guest. -/
structure Guest (σ : Type) where
  imports : List Import
  exports : List (String × Export σ)
  memory : Memory
  /-- What the guest remembers at first, unless setting that up traps. -/
  globals : Except Trap σ
  /-- Bytes that are copied to their places then, before anything runs. -/
  data : List (UInt32 × ByteArray)
  /-- What runs before the guest can be used. -/
  start : Option (Start σ)

namespace Guest

variable {σ : Type}

/-- The memory's export name. -/
def memoryExport : String := "memory"

/-- The export name of the allocator for texts. -/
def allocatorExport : String := "allocUint8"

/-- The export name of the allocator for the filesystem image. -/
def imageAllocatorExport : String := "get_romfs"

/-- The exported item of a name. -/
def export? (g : Guest σ) (name : String) : Option (Export σ) := g.exports.lookup name

/-- The exported function of a name. -/
def function? (g : Guest σ) (name : String) : Option (Function σ) :=
  match g.export? name with
  | some (.function f) => some f
  | _ => none

/-- Whether the memory can be reached from outside. -/
def exportsMemory (g : Guest σ) : Bool :=
  match g.export? memoryExport with
  | some .memory => true
  | _ => false

/-- The type of an allocator: a size to an address. -/
def allocatorType : FunctionType := ⟨[.i32], [.i32]⟩

/-- The allocator of a name. -/
def allocator? (g : Guest σ) (name : String) : Except GuestFault (Function σ) :=
  match g.function? name with
  | none => .error (.missingExport name)
  | some f =>
    if f.type = allocatorType then .ok f
    else .error (.signatureMismatch name "expected (i32) -> i32")

/-- Whether the host provides everything the guest imports, with the right types. -/
def linkable (g : Guest σ) : Bool :=
  g.imports.all fun i => i.type.isSome && hostFunctionType? i.module i.name == i.type

end Guest

/-! ## Guests that remember more

What a guest remembers may be part of something greater. It sees and changes that part alone.
-/

section Within

variable {σ τ : Type} (get : τ → σ) (set : τ → σ → τ)

/-- The instance as far as the part goes. -/
def Instance.part (live : Instance τ) : Instance σ := { live with globals := get live.globals }

/-- The instance with the part put in its place. -/
def Instance.within (whole : τ) (live : Instance σ) : Instance τ :=
  { live with globals := set whole live.globals }

/-- The function on the greater whole. -/
def Function.within (f : Function σ) : Function τ where
  type := f.type
  run args live :=
    let execution := f.run args (live.part get)
    let back := Instance.within set live.globals
    { calls := execution.calls.map fun (call, live) => (call, back live)
      ending := execution.ending
      final := back execution.final }

/-- The export on the greater whole. -/
def Export.within : Export σ → Export τ
  | .function f => .function (f.within get set)
  | .memory => .memory
  | .other => .other

/-- The start on the greater whole. -/
def Start.within : Start σ → Start τ
  | .own f => .own (f.within get set)
  | .host call => .host call

/-- The guest on the greater whole, the rest of which starts as it is. -/
def Guest.within (whole : τ) (g : Guest σ) : Guest τ where
  imports := g.imports
  exports := g.exports.map fun (name, e) => (name, e.within get set)
  memory := g.memory
  globals := g.globals.map (set whole)
  data := g.data
  start := g.start.map (Start.within get set)

end Within

end CompilerHost
