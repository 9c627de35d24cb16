import CompilerHost.Text.Utf8
import CompilerHost.Word

/-! # What can go wrong with a guest

Each fault is a cause; its wording is given once, by `message`. All of them end the compile at
hand, and none is retried.
-/

namespace CompilerHost

/-- Why the operating system or the reader of a stream refused. -/
inductive OsError where
  | notPermitted
  | notFound
  | permissionDenied
  | alreadyExists
  | notADirectory
  | isADirectory
  | noSpaceLeft
  | nameTooLong
  /-- A file that is read as text holds something else. -/
  | notUtf8
  /-- A zero byte in a path, which no system call can take. -/
  | zeroInPath
deriving DecidableEq, Repr

/-- The number and the words of the operating system. -/
def OsError.code? : OsError → Option (Nat × String)
  | .notPermitted => some (1, "Operation not permitted")
  | .notFound => some (2, "No such file or directory")
  | .permissionDenied => some (13, "Permission denied")
  | .alreadyExists => some (17, "File exists")
  | .notADirectory => some (20, "Not a directory")
  | .isADirectory => some (21, "Is a directory")
  | .noSpaceLeft => some (28, "No space left on device")
  | .nameTooLong => some (36, "File name too long")
  | .notUtf8 => none
  | .zeroInPath => none

/-- What is said of the error. -/
def OsError.message (e : OsError) : String :=
  match e with
  | .notUtf8 => "stream did not contain valid UTF-8"
  | .zeroInPath => "file name contained an unexpected NUL byte"
  | e =>
    match e.code? with
    | some (number, words) => s!"{words} (os error {number})"
    | none => ""

/-- Every error that has a number, in order. -/
def OsError.numbered : List OsError :=
  [.notPermitted, .notFound, .permissionDenied, .alreadyExists, .notADirectory, .isADirectory,
    .noSpaceLeft, .nameTooLong]

/-- The error with a number. -/
def OsError.ofNumber? (n : Nat) : Option OsError :=
  OsError.numbered.find? fun e => e.code?.any (·.1 == n)

/-- An access to guest memory that does not fit the memory's size at that moment. -/
structure BadAccess where
  offset : Nat
  length : Nat
  memorySize : Nat
deriving DecidableEq, Repr

def BadAccess.message (a : BadAccess) : String :=
  s!"Memory access out of bounds: offset={a.offset} length={a.length} memory_size={a.memorySize}"

/-- Why running guest code stopped. -/
inductive Trap where
  | unreachable
  | outOfBounds
  | outOfFuel
  | outOfStack
  | divisionByZero
  /-- An integer that its width cannot hold. -/
  | integerOverflow
  /-- Something that is no number was to be an integer. -/
  | noInteger
  | outsideTable
  /-- A call through a table, where the table has no function. -/
  | noFunction
  /-- A call through a table, where the function has another type. -/
  | otherFunctionType
deriving DecidableEq, Repr

def Trap.message : Trap → String
  | .unreachable => "wasm trap: wasm \x60unreachable\x60 instruction executed"
  | .outOfBounds => "wasm trap: out of bounds memory access"
  | .outOfFuel => "wasm trap: all fuel consumed by WebAssembly"
  | .outOfStack => "wasm trap: call stack exhausted"
  | .divisionByZero => "wasm trap: integer divide by zero"
  | .integerOverflow => "wasm trap: integer overflow"
  | .noInteger => "wasm trap: invalid conversion to integer"
  | .outsideTable => "wasm trap: undefined element: out of bounds table access"
  | .noFunction => "wasm trap: uninitialized element"
  | .otherFunctionType => "wasm trap: indirect call type mismatch"

/-- Why a call into the guest, or its instantiation, failed. -/
inductive ExecutionCause where
  | trap (t : Trap)
  /-- The guest asked the host to log text from outside its memory. -/
  | logRead (access : BadAccess)
  /-- The host gave its own reason. -/
  | raised (reason : String)
  /-- The engine refuses the binary, or cannot link it; its words are its own. -/
  | refused
deriving DecidableEq, Repr

/-- The reason at the root, where it has fixed words. -/
def ExecutionCause.reason? : ExecutionCause → Option String
  | .trap t => some t.message
  | .logRead access => some access.message
  | .raised reason => some reason
  | .refused => none

/-- A failure to load, link or talk to the guest. -/
inductive GuestFault where
  | malformedBinary (reason : String)
  | unsupportedEncoding (reason : String)
  | unsupportedImport (module name : String)
  | missingExport (name : String)
  | signatureMismatch (name detail : String)
  | allocationFailed (allocator : String) (requested : Nat)
  | outOfBounds (access : BadAccess)
  | regionOverflow (start : Address) (capacity attempted : Nat)
  | inputTooLarge (bytes : Nat)
  | undecodableText (fault : Utf8.Fault)
  | execution (cause : ExecutionCause)
  | engine (reason : String)
  | invalidInput (reason : String)
  | unserializableOptions (reason : String)
  /-- The bytes are no module; the parser's words are its own. -/
  | unparsableBinary
  | io (error : OsError)
deriving DecidableEq, Repr

/-- The words with which an execution failure begins. -/
def executionHeading : String := "WASM execution error"

/-- The words for bytes that cannot be parsed as a module. -/
def parserHeading : String := "WASM parser error"

/-- What is said of a fault. -/
def GuestFault.message : GuestFault → String
  | .malformedBinary reason => s!"Invalid WASM binary: {reason}"
  | .unsupportedEncoding reason => s!"Unsupported encoding: {reason}"
  | .unsupportedImport module name => s!"Unsupported import '{module}::{name}'"
  | .missingExport name => s!"Guest module must export '{name}'"
  | .signatureMismatch name detail => s!"Export '{name}' has unexpected signature: {detail}"
  | .allocationFailed allocator requested =>
    s!"Guest allocation of {requested} bytes failed via '{allocator}'"
  | .outOfBounds access => access.message
  | .regionOverflow start capacity attempted =>
    s!"Write of {attempted} bytes exceeds region of {capacity} bytes at {start.text}"
  | .inputTooLarge bytes => s!"Input too large for guest memory: {bytes} bytes"
  | .undecodableText fault => s!"Text decode error: {fault.message}"
  | .execution cause =>
    match cause.reason? with
    | some reason => s!"{executionHeading}: {reason}"
    | none => executionHeading
  | .engine reason => s!"Engine creation error: {reason}"
  | .invalidInput reason => s!"Invalid input: {reason}"
  | .unserializableOptions reason => s!"Options serialization error: {reason}"
  | .unparsableBinary => parserHeading
  | .io error => s!"I/O error: {error.message}"

/-- The causes behind a fault, the nearest first. -/
def GuestFault.causes : GuestFault → List String
  | .undecodableText fault => [fault.message]
  | .execution cause => cause.reason?.toList
  | .io error => [error.message]
  | _ => []

/-- The reason given for a binary of the component model. -/
def componentModelReason : String :=
  "Unsupported guest binary: Component Model detected. The compiler guest must be a classic core "
    ++ "WASM module exporting 'memory', 'allocUint8' and 'compile_program'."

end CompilerHost
