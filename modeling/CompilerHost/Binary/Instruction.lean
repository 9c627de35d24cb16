import CompilerHost.Binary.Section
import CompilerHost.Binary.Vector

/-! # Instructions

Code as a tree: a block holds the instructions inside of it, and a branch says how many blocks it
leaves behind. What instructions compute from their operands is an `Operation`.
-/

namespace CompilerHost.Binary

/-- What a block takes from the stack, and what it leaves there. -/
inductive BlockType where
  /-- Nothing, and at most one value. -/
  | plain (result : Option ValueType)
  /-- What functions of a type take and return. -/
  | ofFunctions (type : Nat)
deriving DecidableEq, Repr

/-- A value from some bytes in memory. -/
structure Load where
  type : ValueType
  bytes : Nat
  /-- The value, from the number in memory. -/
  expand : Nat → Nat

/-- The lower bytes of a value, to memory. -/
structure Store where
  type : ValueType
  bytes : Nat
deriving DecidableEq, Repr

/-- An instruction. Where one refers to a function, a table or the like, it does so by an index. -/
inductive Instruction where
  | unreachable
  | nop
  | block (type : BlockType) (body : List Instruction)
  | loop (type : BlockType) (body : List Instruction)
  | choose (type : BlockType) (yes no : List Instruction)
  | branch (depth : Nat)
  | branchIf (depth : Nat)
  /-- A branch chosen by a number, where numbers past the list choose the last. -/
  | branchTable (depths : List Nat) (otherwise : Nat)
  | leave
  | call (function : Nat)
  | callIndirect (type table : Nat)
  /-- A call whose results are those of the caller, which is left first. -/
  | leaveToCall (function : Nat)
  | leaveToCallIndirect (type table : Nat)
  | drop
  | select (type : Option ValueType)
  | localGet (index : Nat)
  | localSet (index : Nat)
  | localTee (index : Nat)
  | globalGet (index : Nat)
  | globalSet (index : Nat)
  | tableGet (table : Nat)
  | tableSet (table : Nat)
  | tableSize (table : Nat)
  | tableGrow (table : Nat)
  | tableFill (table : Nat)
  | tableCopy (target origin : Nat)
  | tableInit (segment table : Nat)
  | elementDrop (segment : Nat)
  | load (form : Load) (offset : Nat)
  | store (form : Store) (offset : Nat)
  | loadLane (bytes lane offset : Nat)
  | storeLane (bytes lane offset : Nat)
  | memorySize
  | memoryGrow
  | memoryFill
  | memoryCopy
  | memoryInit (segment : Nat)
  | dataDrop (segment : Nat)
  | constant (type : ValueType) (bits : Nat)
  | isNull
  | reference (function : Nat)
  | operate (op : Operation)

/-! ## Access to memory -/

namespace Load

/-- A number as it stands in memory. -/
def plain (type : ValueType) (bytes : Nat) : Load := ⟨type, bytes, id⟩

/-- An integer of fewer bits, with its sign or without. -/
def extended (type : ValueType) (width bytes : Nat) : List Load :=
  [⟨type, bytes, resized .signed (8 * bytes) width⟩, plain type bytes]

/-- Half a vector's lanes, each twice as wide as in memory. -/
def widened (width : Nat) : List Load :=
  [Sign.signed, .unsigned].map fun s =>
    ⟨.v128, 8, fun n => Vector.ofLanes (2 * width)
      ((Vector.half width false n).map (resized s width (2 * width)))⟩

/-- The same value in all lanes. -/
def splat (bytes : Nat) : Load :=
  ⟨.v128, bytes, fun n => Vector.ofLanes (8 * bytes) (List.replicate (16 / bytes) n)⟩

/-- The code of the first load. -/
def firstCode : Nat := 0x28

/-- The loads in the order of their codes. -/
def coded : List Load :=
  [plain .i32 4, plain .i64 8, plain .f32 4, plain .f64 8]
    ++ extended .i32 32 1 ++ extended .i32 32 2
    ++ extended .i64 64 1 ++ extended .i64 64 2 ++ extended .i64 64 4

/-- The loads of vectors in the order of their codes. -/
def vectors : List Load :=
  plain .v128 16 :: widened 8 ++ widened 16 ++ widened 32 ++ [1, 2, 4, 8].map splat

end Load

namespace Store

/-- The code of the first store. -/
def firstCode : Nat := 0x36

/-- The stores in the order of their codes. -/
def coded : List Store :=
  [⟨.i32, 4⟩, ⟨.i64, 8⟩, ⟨.f32, 4⟩, ⟨.f64, 8⟩, ⟨.i32, 1⟩, ⟨.i32, 2⟩, ⟨.i64, 1⟩, ⟨.i64, 2⟩,
    ⟨.i64, 4⟩]

end Store

/-! ## Reading -/

/-- An item, made into another. -/
def Reader.map {α β : Type} (f : α → β) (r : Reader α) : Reader β := fun bytes =>
  (r bytes).map fun (a, rest) => (f a, rest)

/-- Two items behind each other. -/
def Reader.pair {α β : Type} (first : Reader α) (second : Reader β) : Reader (α × β) :=
  fun bytes => do
    let (a, rest) ← first bytes
    let (b, rest) ← second rest
    some ((a, b), rest)

/-- No byte at all. -/
def Reader.nothing {α : Type} (a : α) : Reader α := fun bytes => some (a, bytes)

/-- The number of the one memory, in a single byte. -/
def zeroByte : Reader Unit := fun bytes => do
  let (b, rest) ← byte bytes
  if b = 0 then some ((), rest) else none

/-- The number of the one memory. -/
def onlyMemory : Reader Unit := fun bytes => do
  let (index, rest) ← u32 bytes
  if index = 0 then some ((), rest) else none

/-- A type of values that has a name. -/
def namedType : Reader ValueType := fun bytes => do
  let (t, rest) ← valueType bytes
  t.map fun t => (t, rest)

/-- So many bytes as a number, the lowest first. -/
def littleEndian (count : Nat) : Reader Nat := fun bytes => do
  let (content, rest) ← take count bytes
  some (content.foldr (fun b n => b.toNat + 256 * n) 0, rest)

/-- The greatest exponent of an alignment that is well formed. -/
def maxAlignment : Nat := 31

/-- Where in memory an access of so many bytes goes: a promise about its alignment, which must not
exceed its size, and an offset. -/
def access (size : Nat) : Reader Nat := fun bytes => do
  let (alignment, rest) ← u32 bytes
  if alignment ≤ maxAlignment ∧ 1 <<< alignment ≤ size then u32 rest else none

/-- The type of a block. A single byte with a negative number in it is a type of values. -/
def blockType : Reader BlockType := fun bytes => do
  let (b, rest) ← byte bytes
  if b = 0x40 then some (.plain none, rest)
  else if 0x40 < b ∧ b < 0x80 then (namedType.map fun t => .plain (some t)) bytes
  else
    let (index, rest) ← signedNumber 33 bytes
    if 0 ≤ index then some (.ofFunctions index.toNat, rest) else none

/-- A null of a type of references. -/
def nullReference : Reader Instruction := fun bytes => do
  let (t, rest) ← referent bytes
  t.map fun t => (.constant t 0, rest)

/-- The instructions that are a code and an index. -/
def indexed : List (Nat × (Nat → Instruction)) :=
  [(0x0C, .branch), (0x0D, .branchIf), (0x10, .call), (0x12, .leaveToCall), (0x20, .localGet),
    (0x21, .localSet), (0x22, .localTee), (0x23, .globalGet), (0x24, .globalSet),
    (0x25, .tableGet), (0x26, .tableSet), (0xD2, .reference)]

/-- The instructions that are just a code. -/
def bare : List (Nat × Instruction) :=
  [(0x00, .unreachable), (0x01, .nop), (0x0F, .leave), (0x1A, .drop), (0x1B, .select none),
    (0xD1, .isNull)]

/-- What stands behind a code on the second page. -/
def secondPage (code : Nat) : Reader Instruction :=
  match code with
  | 8 => (u32.pair onlyMemory).map fun (segment, _) => .memoryInit segment
  | 9 => u32.map .dataDrop
  | 10 => (onlyMemory.pair onlyMemory).map fun _ => .memoryCopy
  | 11 => onlyMemory.map fun _ => .memoryFill
  | 12 => (u32.pair u32).map fun (segment, table) => .tableInit segment table
  | 13 => u32.map .elementDrop
  | 14 => (u32.pair u32).map fun (target, origin) => .tableCopy target origin
  | 15 => u32.map .tableGrow
  | 16 => u32.map .tableSize
  | 17 => u32.map .tableFill
  | _ =>
    match Operation.saturating[code]? with
    | some op => .nothing (.operate op)
    | none => fun _ => none

/-- The lane of a vector that is loaded or stored, behind its place in memory. -/
def laneAccess (bytes : Nat) (make : Nat → Nat → Instruction) : Reader Instruction := fun rest => do
  let ((offset, lane), rest) ← ((access bytes).pair byte) rest
  if lane.toNat < 16 / bytes then some (make lane.toNat offset, rest) else none

/-- What stands behind a code on the page of vectors. -/
def vectorPage (code : Nat) : Reader Instruction :=
  let load (form : Load) : Reader Instruction := (access form.bytes).map (.load form)
  match code with
  | 11 => (access 16).map (.store ⟨.v128, 16⟩)
  | 12 => (littleEndian 16).map (.constant .v128)
  | 13 => fun bytes => do
    let (places, rest) ← take 16 bytes
    if places.all (· < 32) then
      some (.operate (Vector.shuffle (places.map (·.toNat))), rest)
    else none
  | 84 => laneAccess 1 (.loadLane 1)
  | 85 => laneAccess 2 (.loadLane 2)
  | 86 => laneAccess 4 (.loadLane 4)
  | 87 => laneAccess 8 (.loadLane 8)
  | 88 => laneAccess 1 (.storeLane 1)
  | 89 => laneAccess 2 (.storeLane 2)
  | 90 => laneAccess 4 (.storeLane 4)
  | 91 => laneAccess 8 (.storeLane 8)
  | 92 => load (.plain .v128 4)
  | 93 => load (.plain .v128 8)
  | _ =>
    match Load.vectors[code]?, Vector.ofCode? code with
    | some form, _ => load form
    | none, some op => .nothing (.operate op)
    | none, none => fun bytes => do
      let (lane, rest) ← byte bytes
      let op ← Vector.ofLaneCode? code lane.toNat
      some (.operate op, rest)

/-- The item with a code, in a list of those from a first code on. -/
def coded? {α : Type} (first : Nat) (items : List α) (code : Nat) : Option α :=
  if first ≤ code then items[code - first]? else none

/-- What stands behind a code that opens no block. -/
def simple (code : Nat) : Reader Instruction :=
  match code with
  | 0x0E => ((counted u32).pair u32).map fun (depths, otherwise) => .branchTable depths otherwise
  | 0x11 => (u32.pair u32).map fun (type, table) => .callIndirect type table
  | 0x13 => (u32.pair u32).map fun (type, table) => .leaveToCallIndirect type table
  | 0x1C => fun bytes => do
    let (types, rest) ← counted namedType bytes
    match types with
    | [t] => some (.select (some t), rest)
    | _ => none
  | 0x3F => zeroByte.map fun _ => .memorySize
  | 0x40 => zeroByte.map fun _ => .memoryGrow
  | 0x41 => (signedNumber 32).map fun z => .constant .i32 (bitsOf 32 z)
  | 0x42 => (signedNumber 64).map fun z => .constant .i64 (bitsOf 64 z)
  | 0x43 => (littleEndian 4).map (.constant .f32)
  | 0x44 => (littleEndian 8).map (.constant .f64)
  | 0xD0 => nullReference
  | 0xFC => fun bytes => do
    let (code, rest) ← u32 bytes
    secondPage code rest
  | 0xFD => fun bytes => do
    let (code, rest) ← u32 bytes
    vectorPage code rest
  | _ =>
    match bare.lookup code, indexed.lookup code, Operation.ofCode? code with
    | some i, _, _ => .nothing i
    | none, some make, _ => u32.map make
    | none, none, some op => .nothing (.operate op)
    | none, none, none =>
      match coded? Load.firstCode Load.coded code, coded? Store.firstCode Store.coded code with
      | some form, _ => (access form.bytes).map (.load form)
      | none, some form => (access form.bytes).map (.store form)
      | none, none => fun _ => none

/-- What ends a list of instructions. -/
inductive Closing where
  | done
  /-- What follows is done otherwise. -/
  | otherwise
deriving DecidableEq, Repr

/-- Instructions up to the mark that ends them, behind those before, the latest of which is first;
at most so many, blocks within blocks included. -/
def instructionsWithin : Nat → List Instruction → Reader (List Instruction × Closing)
  | 0, _ => fun _ => none
  | n + 1, before => fun bytes => do
    let (code, rest) ← byte bytes
    let body : Reader (List Instruction) := fun bytes => do
      let ((inside, closing), rest) ← instructionsWithin n [] bytes
      if closing = .done then some (inside, rest) else none
    match code.toNat with
    | 0x0B => some ((before.reverse, .done), rest)
    | 0x05 => some ((before.reverse, .otherwise), rest)
    | 0x02 =>
      let ((type, inside), rest) ← (blockType.pair body) rest
      instructionsWithin n (.block type inside :: before) rest
    | 0x03 =>
      let ((type, inside), rest) ← (blockType.pair body) rest
      instructionsWithin n (.loop type inside :: before) rest
    | 0x04 =>
      let (type, rest) ← blockType rest
      let ((yes, closing), rest) ← instructionsWithin n [] rest
      let (no, rest) ← if closing = .done then some ([], rest) else body rest
      instructionsWithin n (.choose type yes no :: before) rest
    | code =>
      let (i, rest) ← simple code rest
      instructionsWithin n (i :: before) rest

/-- Instructions up to the mark that ends them all. `room` is no less than the number of bytes. -/
def instructions (room : Nat) : Reader (List Instruction) := fun bytes => do
  let ((code, closing), rest) ← instructionsWithin (room + 1) [] bytes
  if closing = .done then some (code, rest) else none

end CompilerHost.Binary
