import CompilerHost.Guest
import CompilerHost.Options
import CompilerHost.Outcome

/-! # Sessions

One live guest and its log. Inputs go in through the guest's own allocators, the compile is one
call of its entry point, and the result is read where that call says.
-/

namespace CompilerHost

/-- A guest that was accepted, and the fuel that each of its sessions starts with. -/
structure Loaded (σ : Type) where
  guest : Guest σ
  fuel : UInt64

/-- A live guest with its log. -/
structure Session (σ : Type) where
  guest : Guest σ
  live : Instance σ
  log : Log
  /-- Where the filesystem image was copied to. -/
  filesystem : Option Region
  initialFuel : UInt64

/-- A text in guest memory, with a zero byte behind it. -/
structure EncodedText where
  region : Region
deriving DecidableEq, Repr

namespace EncodedText

def start (t : EncodedText) : Address := t.region.start

/-- The bytes of the text, without the zero. -/
def textLength (t : EncodedText) : UInt32 := t.region.length - 1

end EncodedText

namespace Session

variable {σ : Type} {ε α : Type}

/-- Does to the log what can be done to a log by itself. -/
def onLog (x : Action Log ε α) : Action (Session σ) ε α :=
  Action.within Session.log (fun s log => { s with log := log }) x

def setLive (live : Instance σ) : Action (Session σ) ε Unit :=
  Action.modify fun s => { s with live := live }

def setMemory (m : Memory) : Action (Session σ) ε Unit :=
  Action.modify fun s => { s with live := { s.live with memory := m } }

/-- The fuel spent since the session began. -/
def fuelConsumed (s : Session σ) : Nat := s.initialFuel.toNat - s.live.fuel.toNat

/-! ## Calls -/

/-- Does what the guest asks for. Text that is not UTF-8 is repaired, and the operator told. -/
def answer : HostCall → Action (Session σ) GuestFault Unit
  | .flush => do
    let _ ← onLog Log.flush
  | .write start length => do
    let s ← Action.get
    if s.guest.exportsMemory then
      match s.live.memory.readTextLossy start length.toNat with
      | .error access => throw (.execution (.logRead access))
      | .ok (text, repaired) =>
        if repaired then Action.emit (.logTextRepaired start length.toNat)
        Action.modify fun s => { s with log := s.log.append text }
    else throw (.execution (.raised "guest does not export 'memory'"))

/-- Answers the calls of a run in order. The first that fails ends the run, with the guest as it
was at that call. -/
def answerAll : List (HostCall × Instance σ) → Action (Session σ) GuestFault Unit
  | [] => pure ()
  | (call, live) :: rest => do
    setLive live
    answer call
    answerAll rest

/-- The fuel that a guest function takes to begin; it has to leave some. -/
def entryFuel : UInt64 := 1

/-- Runs a guest function to its end. Without fuel for more than its beginning it does not begin. -/
def call (f : Function σ) (args : List UInt32) : Action (Session σ) GuestFault UInt32 := do
  let s ← Action.get
  if s.live.fuel ≤ entryFuel then do
    setLive { s.live with fuel := 0 }
    throw (.execution (.trap .outOfFuel))
  else
    let execution := f.run args s.live
    -- a call that fails leaves the guest where it made the call, and the rest of its run is void
    answerAll execution.calls
    setLive execution.final
    match execution.ending with
    | .ok result => pure result
    | .error trap => throw (.execution (.trap trap))

/-! ## Inputs -/

/-- Asks an allocator of the guest for bytes. A null address is its way to say that it has none. -/
def allocate (name : String) (size : UInt32) : Action (Session σ) GuestFault Region := do
  let s ← Action.get
  let allocator ← Action.ofExcept (s.guest.allocator? name)
  if size.toNat < 1 <<< 31 then
    let result ← call allocator [size]
    if result = 0 then throw (.allocationFailed name size.toNat)
    else pure ⟨⟨result⟩, size⟩
  else throw (.inputTooLarge size.toNat)

/-- Writes into a region of guest memory. -/
def writeRegion (r : Region) (data : ByteArray) : Action (Session σ) GuestFault Unit := do
  let s ← Action.get
  let memory ← Action.ofExcept (s.live.memory.writeRegion r data)
  setMemory memory

/-- Bytes of a length that a word can hold, in a fresh allocation; `length` is what is reported
where it cannot. -/
def place (allocator : String) (data : ByteArray) (length : Nat) :
    Action (Session σ) GuestFault Region := do
  if data.size < 1 <<< 32 then
    let region ← allocate allocator (UInt32.ofNat data.size)
    writeRegion region data
    pure region
  else throw (.inputTooLarge length)

/-- Writes a text and a zero byte into a fresh allocation. -/
def encode (text : String) : Action (Session σ) GuestFault EncodedText :=
  EncodedText.mk <$> place Guest.allocatorExport (text.toUTF8.push 0) text.utf8ByteSize

/-- Copies the filesystem image into a buffer of the guest. -/
def loadFilesystem (image : ByteArray) : Action (Session σ) GuestFault Region := do
  let region ← place Guest.imageAllocatorExport image image.size
  Action.emit (.filesystemLoaded region.start image.size)
  Action.modify fun s => { s with filesystem := some region }
  pure region

/-- Writes the options, as JSON, and then the source. -/
def prepareInputs (options : Options) (source : String) :
    Action (Session σ) GuestFault (EncodedText × EncodedText) := do
  let optionsText ← encode options.json
  let sourceText ← encode source
  Action.emit (.inputsPrepared optionsText.start sourceText.start sourceText.textLength.toNat)
  pure (optionsText, sourceText)

/-! ## Compiling -/

/-- How a function of so many parameters takes its inputs. -/
def formOf? (f : Function σ) : Except GuestFault EntryForm :=
  match f.type.params.length with
  | 0 => .ok .noInputs
  | 1 => .ok .source
  | 2 => .ok .optionsAndSource
  | n =>
    .error (.signatureMismatch compileExport s!"expected 0, 1 or 2 i32 parameters, found {n}")

/-- The guest's entry point. -/
def entryPoint : Action (Session σ) GuestFault (Function σ) := do
  let s ← Action.get
  match s.guest.function? compileExport with
  | some f => pure f
  | none => throw (.missingExport compileExport)

/-- How the guest's entry point takes its inputs. -/
def entryForm : Action (Session σ) GuestFault EntryForm := do
  let f ← entryPoint
  Action.ofExcept (formOf? f)

/-- Calls the entry point with addresses, if words are all that it takes and returns. -/
def enter (f : Function σ) (args : List Address) : Action (Session σ) GuestFault UInt32 := do
  if f.type.params.any (· ≠ .i32) then
    throw (.signatureMismatch compileExport "type mismatch with parameters")
  else if f.type.results ≠ [.i32] then
    throw (.signatureMismatch compileExport "type mismatch with results")
  else call f (args.map Address.offset)

/-- Hands over the inputs that the entry point takes, runs it, and gives the address of its
result. The operator is told of inputs that are ignored. -/
def compile (options : Options) (source : String) : Action (Session σ) GuestFault Address := do
  let form ← entryForm
  Action.emit (.entryResolved form)
  let f ← entryPoint
  let result ←
    match form with
    | .optionsAndSource => do
      -- the options go in first, and the types are looked at only then
      let (optionsText, sourceText) ← prepareInputs options source
      enter f [optionsText.start, sourceText.start]
    | .source => do
      unless options.isEmpty do Action.emit (.inputsIgnored form "options")
      let sourceText ← encode source
      enter f [sourceText.start]
    | .noInputs => do
      unless options.isEmpty && source.isEmpty do
        Action.emit (.inputsIgnored form "options and source")
      enter f []
  let s ← Action.get
  Action.emit (.compileReturned ⟨result⟩ s.fuelConsumed)
  pure ⟨result⟩

/-- Reads the result at an address. -/
def outcomeAt (a : Address) : Action (Session σ) GuestFault Outcome := do
  let s ← Action.get
  Action.ofExcept ((s.live.memory.outcomeAt a).mapError .outOfBounds)

end Session

namespace Loaded

variable {σ : Type}

/-- The memory of a fresh instance: each piece of data at its place, if all fit. -/
def initialMemory : List (UInt32 × ByteArray) → Memory → Except GuestFault Memory
  | [], m => .ok m
  | (offset, bytes) :: rest, m =>
    match m.write ⟨offset⟩ bytes with
    | .ok m => initialMemory rest m
    | .error _ => .error (.execution (.trap .outOfBounds))

/-- A session as it stands before the guest's start function. -/
def unstarted (l : Loaded σ) (globals : σ) (memory : Memory) (log : Log) : Session σ where
  guest := l.guest
  live := ⟨memory, globals, l.fuel⟩
  log := log
  filesystem := none
  initialFuel := l.fuel

/-- Opens a session with a fresh instance. What the guest needs for any compile, its memory and
its allocator, is looked up at once. -/
def instantiate (l : Loaded σ) (log : Log) : Action Unit GuestFault (Session σ) := do
  if l.guest.linkable then
    let globals ← Action.ofExcept (l.guest.globals.mapError fun t => .execution (.trap t))
    let memory ← Action.ofExcept (initialMemory l.guest.data l.guest.memory)
    let fresh := l.unstarted globals memory log
    let session ←
      match l.guest.start with
      | none => pure fresh
      | some (.own f) => Action.finalState (Session.call f []) fresh
      -- the host's functions need no fuel
      | some (.host call) => Action.finalState (Session.answer call) fresh
    if l.guest.exportsMemory then
      let _ ← Action.ofExcept (l.guest.allocator? Guest.allocatorExport)
      Action.emit (.sessionOpened session.live.memory.size l.fuel.toNat)
      pure session
    else throw (.missingExport Guest.memoryExport)
  else throw (.execution .refused)

end Loaded

end CompilerHost
