import CompilerHost.Config.Format
import CompilerHost.Loading
import CompilerHost.Pipeline

/-! # The configured host

What a configuration comes to: a pipeline with the guest and the image that it names, the sinks of
its output, and a log that is shown on the terminal if it says so.
-/

namespace CompilerHost.Config

variable {σ S : Type}

/-- The filesystem image, if there is one. -/
def loadImage (c : Config) (fs : FileSystem) : Action S GuestFault (Option ByteArray) :=
  match c.image with
  | none => pure none
  | some path => some <$> loadArtifact fs imageLabel path

/-- Loads the guest and then the image. -/
def pipeline (c : Config) (engine : Engine σ) (fs : FileSystem) :
    Action S GuestFault (Pipeline σ) := do
  let loaded ← Loaded.ofFile engine fs c.module c.fuel.effective
  let image ← c.loadImage fs
  pure ⟨loaded, image, c.filename⟩

/-- Where artifacts go: a file always, and the mirror if there is one. -/
def sinks (c : Config) : List (Sink FileSystem) :=
  Sink.file c.directory :: (c.mirror.map Sink.mirror).toList

/-- A log for one run. -/
def log (c : Config) (terminal : Surface) : Log :=
  .fresh (if c.terminal then some terminal else none)

end CompilerHost.Config
