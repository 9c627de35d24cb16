import CompilerHost.Binary.Manifest
import CompilerHost.Engine
import CompilerHost.FileSystem.Basic
import CompilerHost.Session

/-! # Loading

From bytes to a guest that sessions can be opened on. A binary is inspected before any engine sees
it, so that a bad guest is refused with a precise reason. Guest modules and filesystem images are
read from files of limited size.
-/

namespace CompilerHost

/-- The most bytes of a guest binary or a filesystem image. -/
def maxArtifactBytes : Nat := 64 * 1024 * 1024

/-- Refuses a size beyond the limit. -/
def checkArtifactSize (bytes : Nat) : Except GuestFault Unit :=
  if bytes ≤ maxArtifactBytes then .ok ()
  else .error (.invalidInput s!"Artifact too large: {bytes} bytes (max: {maxArtifactBytes} bytes)")

/-- What a guest module is called in the log. -/
def guestModuleLabel : String := "guest module"

/-- What a filesystem image is called in the log. -/
def imageLabel : String := "filesystem image"

/-- The exports without which a guest is refused. -/
def requiredExports : List String := [Guest.memoryExport, Guest.allocatorExport, compileExport]

/-- The content of a file of limited size. -/
def readArtifact (fs : FileSystem) (path : String) : Except GuestFault ByteArray :=
  match fs.read path with
  | .error e => .error (.io e)
  | .ok bytes => (checkArtifactSize bytes.size).map fun _ => bytes

/-- Reads an artifact and tells the operator how that went. -/
def loadArtifact {S : Type} (fs : FileSystem) (kind path : String) :
    Action S GuestFault ByteArray := do
  match readArtifact fs path with
  | .error e => do
    Action.emit (.artifactLoadFailed kind path e.message)
    throw e
  | .ok bytes => do
    Action.emit (.artifactLoaded kind path bytes.size)
    pure bytes

namespace Loaded

variable {σ S : Type}

/-- Inspects a binary and hands it to the engine. Each session gets so much fuel. -/
def ofBytes (engine : Engine σ) (bytes : ByteArray) (fuel : UInt64) :
    Action S GuestFault (Loaded σ) := do
  Action.ofExcept (checkArtifactSize bytes.size)
  let manifest ← Action.ofExcept (Binary.inspect bytes)
  Action.ofExcept (manifest.require requiredExports)
  Action.emit (.guestInspected manifest.imports.length manifest.exports.length manifest.usesLog)
  Action.emit .engineCreated
  match engine bytes with
  | some guest => pure ⟨guest, fuel⟩
  | none => throw (.execution .refused)

/-- Reads a guest from a file. -/
def ofFile (engine : Engine σ) (fs : FileSystem) (path : String) (fuel : UInt64) :
    Action S GuestFault (Loaded σ) := do
  let bytes ← loadArtifact fs guestModuleLabel path
  ofBytes engine bytes fuel

end Loaded

end CompilerHost
