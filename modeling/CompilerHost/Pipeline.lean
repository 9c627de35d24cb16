import CompilerHost.Session
import CompilerHost.Sink.Basic

/-! # Runs

One compile from end to end, on a fresh instance of the guest:

* the filesystem image goes in, if there is one, then options and source;
* the guest compiles, and its result is read;
* an artifact goes to every sink, in order, until one refuses.

A fault ends the run. If the guest was running by then, what is pending in its log is delivered
first and the log travels with the fault. A result without output is no fault.
-/

namespace CompilerHost

/-- What is to be compiled. -/
structure Request where
  options : Options
  source : String

/-- What a run came to. -/
structure RunReport where
  outcome : Outcome
  /-- The kind of the artifact, if there is one. -/
  kind : Option ArtifactKind
  /-- The completed blocks of the guest's log. -/
  diagnostics : List String
  /-- What the guest wrote without completing the block. -/
  unflushed : String
  /-- The kinds of the sinks that accepted the artifact. -/
  delivered : List String
  fuelConsumed : Nat

namespace RunReport

/-- Whether there is an artifact. -/
def succeeded (r : RunReport) : Bool := r.outcome.payload?.isSome

/-- Whether the guest said anything that can be read. -/
def hasDiagnostics (r : RunReport) : Bool :=
  !Text.isBlankText r.unflushed || r.diagnostics.any (!Text.isBlankText ·)

end RunReport

/-- Why a run gave no report. -/
inductive RunFault where
  /-- The guest could not be loaded or instantiated. -/
  | guest (cause : GuestFault)
  /-- The guest failed while it compiled; its log comes along. -/
  | compile (cause : GuestFault) (diagnostics : List String)
  | delivery (sink : String) (cause : SinkFault)
deriving DecidableEq, Repr

namespace RunFault

/-- What the guest logged before it failed. -/
def diagnostics : RunFault → List String
  | .compile _ diagnostics => diagnostics
  | _ => []

/-- The lines of a log that say something, without the blanks around them. -/
def readable (log : List String) : List String := (log.map Text.trimmed).filter (· ≠ "")

/-- What is said of the guest's log behind a fault: nothing if there is nothing to read in it. -/
def logSuffix (log : List String) : String :=
  if (readable log).isEmpty then "" else " (guest log: " ++ "; ".intercalate (readable log) ++ ")"

def message : RunFault → String
  | .guest cause => cause.message
  | .compile cause diagnostics => s!"Compile aborted: {cause.message}{logSuffix diagnostics}"
  | .delivery sink cause => s!"Output delivery via '{sink}' failed: {cause.message}"

/-- The causes behind a fault, the nearest first. -/
def causes : RunFault → List String
  | .guest cause => cause.causes
  | .compile cause _ => cause.message :: cause.causes
  | .delivery _ cause => cause.message :: cause.causes

end RunFault

/-- A loaded guest with all that stays the same from run to run. -/
structure Pipeline (σ : Type) where
  loaded : Loaded σ
  image : Option ByteArray
  artifactName : String

namespace Pipeline

variable {σ ω : Type}

/-- A pipeline without an image, for artifacts of the usual name. -/
def ofLoaded (loaded : Loaded σ) : Pipeline σ := ⟨loaded, none, defaultArtifactName⟩

/-- The part of a run that happens in the guest. -/
def compileIn (p : Pipeline σ) (request : Request) :
    Action (Session σ) GuestFault Outcome := do
  match p.image with
  | some image =>
    let _ ← Session.loadFilesystem image
  | none => pure ()
  let result ← Session.compile request.options request.source
  Session.outcomeAt result

/-- Delivers what is pending in the log of a guest that failed, and gives up. -/
def abort (log : Log) (cause : GuestFault) : Action ω RunFault RunReport := do
  -- an empty block would say something that the guest did not say
  let log ←
    if log.pending.isEmpty then pure log
    else do
      Action.reported log.delivery
      pure log.flushed
  Action.emit (.compileAborted cause.message log.transcript.length)
  throw (.compile cause log.transcript)

/-- Hands an artifact to the sinks in order, and gives the kinds of those that accepted it. -/
def deliver (name : String) (bytes : ByteArray) :
    List (Sink ω) → Action ω RunFault (List String)
  | [] => pure []
  | sink :: rest => do
    match ← Action.attempt (sink.deliver name bytes) with
    | .error cause => do
      Action.emit (.deliveryFailed sink.kind name cause.message)
      throw (.delivery sink.kind cause)
    | .ok () => do
      Action.emit (.delivered sink.kind name bytes.size)
      let others ← deliver name bytes rest
      pure (sink.kind :: others)

/-- Reports a result without output. -/
def withoutPayload (report : RunReport) (declaredLength : Int) : Action ω RunFault RunReport := do
  Action.emit (.noPayload declaredLength report.diagnostics.length)
  unless report.hasDiagnostics do Action.emit (.silentFailure declaredLength)
  pure report

/-- Reports an artifact and delivers it. -/
def withPayload (p : Pipeline σ) (report : RunReport) (bytes : ByteArray)
    (sinks : List (Sink ω)) : Action ω RunFault RunReport := do
  let kind := ArtifactKind.detect bytes
  Action.emit (.payloadDecoded bytes.size kind)
  unless kind.isElf do Action.emit (.payloadUnrecognized bytes.size)
  let delivered ← deliver p.artifactName bytes sinks
  pure { report with kind := some kind, delivered := delivered }

/-- What is done once the guest has compiled. -/
def conclude (p : Pipeline σ) (outcome : Outcome) (session : Session σ)
    (sinks : List (Sink ω)) : Action ω RunFault RunReport :=
  let report : RunReport :=
    { outcome := outcome
      kind := none
      diagnostics := session.log.transcript
      unflushed := session.log.pending
      delivered := []
      fuelConsumed := session.fuelConsumed }
  match outcome with
  | .payload bytes => p.withPayload report bytes sinks
  | .noPayload declaredLength => withoutPayload report declaredLength

/-- Compiles on a fresh instance of the guest, whose log starts as `log`. -/
def run (p : Pipeline σ) (request : Request) (log : Log) (sinks : List (Sink ω)) :
    Action ω RunFault RunReport := do
  Action.emit (.compileStarted request.options.commandLine request.source.utf8ByteSize)
  let opened := p.loaded.instantiate log ()
  Action.reported opened.journal
  match opened.result with
  | .error cause => throw (.guest cause)
  | .ok session => do
    let compiled := p.compileIn request session
    Action.reported compiled.journal
    match compiled.result with
    | .error cause => abort compiled.state.log cause
    | .ok outcome => p.conclude outcome compiled.state sinks

end Pipeline

end CompilerHost
