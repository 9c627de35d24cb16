import CompilerHost.Artifact
import CompilerHost.Word

/-! # Events

What the host reports to its operator. An event is data; its level, the target under which it can
be filtered, and its wording are functions of it.
-/

namespace CompilerHost

/-- How the guest's entry point takes its inputs. -/
inductive EntryForm where
  /-- No inputs: the guest compiles a program of its own. -/
  | noInputs
  /-- The source only: the guest applies options of its own. -/
  | source
  /-- Options and source: the full contract. -/
  | optionsAndSource
deriving DecidableEq, Repr

/-- The entry point's export name. -/
def compileExport : String := "compile_program"

/-- The entry point as a call. -/
def EntryForm.text : EntryForm → String
  | .noInputs => s!"{compileExport}()"
  | .source => s!"{compileExport}(source)"
  | .optionsAndSource => s!"{compileExport}(options, source)"

/-- How much an event matters. -/
inductive Level where
  | error
  | warn
  | info
  | debug
  | trace
deriving DecidableEq, Repr

/-- The name of a level in the log. -/
def Level.name : Level → String
  | .error => "ERROR"
  | .warn => "WARN"
  | .info => "INFO"
  | .debug => "DEBUG"
  | .trace => "TRACE"

/-- Levels by detail: the most important first. -/
def Level.rank : Level → Nat
  | .error => 1
  | .warn => 2
  | .info => 3
  | .debug => 4
  | .trace => 5

/-- Something that the operator is told. -/
inductive Event where
  /-- A guest module or a filesystem image was read. -/
  | artifactLoaded (kind path : String) (bytes : Nat)
  | artifactLoadFailed (kind path reason : String)
  /-- A guest binary passed inspection. -/
  | guestInspected (imports exports : Nat) (logs : Bool)
  | engineCreated
  /-- A fresh guest instance is ready. -/
  | sessionOpened (memoryBytes fuel : Nat)
  | filesystemLoaded (start : Address) (bytes : Nat)
  /-- Options and source stand in guest memory. -/
  | inputsPrepared (options source : Address) (sourceBytes : Nat)
  | entryResolved (form : EntryForm)
  /-- Inputs were given that the entry point does not take. -/
  | inputsIgnored (form : EntryForm) (ignored : String)
  | compileReturned (result : Address) (fuelConsumed : Nat)
  /-- The guest finished a block of its log. -/
  | guestLog (text : String)
  /-- Log text had to be repaired. -/
  | logTextRepaired (start : Address) (bytes : Nat)
  | compileStarted (commandLine : String) (sourceBytes : Nat)
  | payloadDecoded (bytes : Nat) (kind : ArtifactKind)
  | payloadUnrecognized (bytes : Nat)
  | noPayload (declaredLength : Int) (flushes : Nat)
  /-- No output, and no word from the guest about it. -/
  | silentFailure (declaredLength : Int)
  | compileAborted (reason : String) (flushes : Nat)
  | unflushedText (text : String)
  | delivered (sink name : String) (bytes : Nat)
  | deliveryFailed (sink name reason : String)
  /-- The terminal did not take a block of the guest's log. -/
  | surfaceFailed (reason : String)
deriving DecidableEq, Repr

namespace Event

def level : Event → Level
  | .artifactLoadFailed .. | .compileAborted .. | .deliveryFailed .. => .error
  | .inputsIgnored .. | .logTextRepaired .. | .payloadUnrecognized .. | .silentFailure ..
  | .unflushedText .. => .warn
  | .guestInspected .. | .engineCreated | .inputsPrepared .. | .entryResolved ..
  | .surfaceFailed .. => .debug
  | _ => .info

/-- Whether the event is a block of the guest's own log. -/
def isGuestLog : Event → Bool
  | .guestLog _ => true
  | _ => false

/-- The target of the guest's own log. -/
def guestTarget : String := "guest"

/-- The target that all targets of the host begin with. -/
def hostTarget : String := "tcc_wasm_host"

/-- The target under which an event can be filtered: the guest's log stands by itself, and the
events of the host are grouped by where they arise. -/
def target : Event → String
  | .guestLog _ => guestTarget
  | .unflushedText _ => hostTarget
  | .artifactLoaded .. | .artifactLoadFailed .. => s!"{hostTarget}::guest::loader"
  | .engineCreated => s!"{hostTarget}::guest::engine"
  | .logTextRepaired .. => s!"{hostTarget}::guest::log_channel"
  | .guestInspected .. | .sessionOpened .. | .filesystemLoaded .. | .inputsPrepared ..
  | .entryResolved .. | .inputsIgnored .. | .compileReturned .. => s!"{hostTarget}::guest::session"
  | .surfaceFailed .. => s!"{hostTarget}::output::terminal"
  | .compileStarted .. | .payloadDecoded .. | .payloadUnrecognized .. | .noPayload ..
  | .silentFailure .. | .compileAborted .. | .delivered .. | .deliveryFailed .. =>
    s!"{hostTarget}::pipeline"

/-- What the operator reads. -/
def text : Event → String
  | .artifactLoaded kind path bytes => s!"Loaded {kind}: {path} ({bytes} bytes)"
  | .artifactLoadFailed kind path reason => s!"Failed to load {kind} '{path}': {reason}"
  | .guestInspected imports exports logs =>
    let channel := if logs then "wired" else "unused"
    s!"Guest module accepted: {imports} imports, {exports} exports, log channel {channel}"
  | .engineCreated => "Creating engine for classic WASM compiler guest"
  | .sessionOpened memoryBytes fuel =>
    s!"Guest instantiated: {memoryBytes} bytes of linear memory, fuel {fuel}"
  | .filesystemLoaded start bytes => s!"Filesystem image loaded at {start.text} ({bytes} bytes)"
  | .inputsPrepared options source sourceBytes =>
    s!"Inputs prepared: options at {options.text}, source at {source.text} ({sourceBytes} bytes)"
  | .entryResolved form => s!"Guest entry point is {form.text}"
  | .inputsIgnored form ignored =>
    s!"Guest entry point is {form.text}; ignoring supplied {ignored}"
  | .compileReturned result fuelConsumed =>
    s!"Guest compile returned result at {result.text} (fuel consumed: {fuelConsumed})"
  | .guestLog text => text
  | .logTextRepaired start bytes =>
    s!"Guest log text at {start.text} ({bytes} bytes) is not valid UTF-8; "
      ++ "invalid sequences replaced with U+FFFD"
  | .compileStarted commandLine sourceBytes =>
    s!"Compiling: {commandLine} ({sourceBytes} bytes of source)"
  | .payloadDecoded bytes kind => s!"Compile produced {bytes} bytes ({kind.name})"
  | .payloadUnrecognized bytes =>
    s!"Compile output ({bytes} bytes) does not start with an ELF header"
  | .noPayload declaredLength flushes =>
    s!"Compile produced no output (declared length {declaredLength}, {flushes} log flushes)"
  | .silentFailure declaredLength =>
    s!"Compile produced no output and no diagnostics (declared length {declaredLength})"
  | .compileAborted reason flushes => s!"Compile aborted after {flushes} log flushes: {reason}"
  | .unflushedText text => s!"Guest left unflushed log text: {text}"
  | .delivered sink name bytes => s!"Delivered '{name}' via {sink} sink ({bytes} bytes)"
  | .deliveryFailed sink name reason => s!"Failed to deliver '{name}' via {sink} sink: {reason}"
  | .surfaceFailed reason => s!"Terminal surface write failed: {reason}"

end Event

end CompilerHost
