import CompilerHost.FileSystem.Basic
import CompilerHost.Sink.Escape
import CompilerHost.Text.Blank

/-! # Sinks

Where a compiled artifact goes. A sink accepts or refuses a delivery and changes, at that, a state
that all sinks of a run share.
-/

namespace CompilerHost

/-- Why a sink refused. -/
inductive SinkFault where
  | io (path : String) (error : OsError)
  /-- Artifacts have bare file names. -/
  | invalidName (name : String)
  /-- Escaped text that stands for no bytes. -/
  | malformedEscape (position : Nat)
deriving DecidableEq, Repr

namespace SinkFault

def message : SinkFault → String
  | .io path error => s!"Failed to write '{path}': {error.message}"
  | .invalidName name => s!"Invalid artifact name: '{name}'"
  | .malformedEscape position => s!"Malformed escape sequence at position {position}"

/-- The causes behind a fault, the nearest first. -/
def causes : SinkFault → List String
  | .io _ error => [error.message]
  | _ => []

end SinkFault

/-- Something that takes artifacts. -/
structure Sink (ω : Type) where
  kind : String
  deliver : String → ByteArray → Action ω SinkFault Unit

/-- The name of an artifact for which none was chosen. -/
def defaultArtifactName : String := "a.out"

/-- Whether a name is a bare file name, so that it cannot lead out of a directory. -/
def isBareName (name : String) : Bool :=
  name ≠ "" && name ≠ "." && name ≠ ".."
    && name.toList.all fun c => c ≠ '/' && c ≠ '\\' && c ≠ '\x00'

namespace Sink

variable {ω ξ : Type}

/-- A sink that works on a part of a larger state. -/
def within (part : ω → ξ) (replace : ω → ξ → ω) (s : Sink ξ) : Sink ω where
  kind := s.kind
  deliver name bytes := Action.within part replace (s.deliver name bytes)

/-- Refuses a name that is not bare. -/
def checkName (name : String) : Action ω SinkFault Unit :=
  if isBareName name then pure () else throw (.invalidName name)

/-! ## Files -/

/-- Where a file sink puts an artifact. -/
def fileTarget (directory name : String) : String := Path.join directory name

/-- Writes artifacts into a directory, over whatever has their name. -/
def file (directory : String) : Sink FileSystem where
  kind := "file"
  deliver name bytes := do
    checkName name
    (FileSystem.makeDirectories directory).mapFault (.io directory)
    let target := fileTarget directory name
    (FileSystem.write target bytes).mapFault (.io target)

/-! ## Mirrors -/

/-- The escaped text of an artifact, as bytes. -/
def escaped (bytes : ByteArray) : ByteArray := (String.ofList (Escape.encode bytes.toList)).toUTF8

/-- The bytes that an escaped text stands for. -/
def unescape (text : String) : Except SinkFault ByteArray :=
  match Escape.decode text.toUTF8.toList with
  | .ok bytes => .ok ⟨bytes.toArray⟩
  | .error position => .error (.malformedEscape position)

/-- Keeps the latest artifact in one file, escaped. -/
def mirror (path : String) : Sink FileSystem where
  kind := "mirror"
  deliver name bytes := do
    checkName name
    (FileSystem.makeParents path).mapFault (.io ((Path.parent? path).getD ""))
    (FileSystem.write path (escaped bytes)).mapFault (.io path)

/-- Reads a mirror back; blanks at its end are no part of it. -/
def restore (fs : FileSystem) (path : String) : Except SinkFault ByteArray :=
  match fs.readText path with
  | .error e => .error (.io path e)
  | .ok text => unescape (Text.trimmedEnd text)

/-! ## Memory -/

/-- Artifacts with their names, the oldest first. -/
abbrev Shelf := List (String × ByteArray)

/-- Keeps every artifact, under any name. -/
def shelf : Sink Shelf where
  kind := "memory"
  deliver name bytes := Action.modify (· ++ [(name, bytes)])

/-- Refuses every artifact. -/
def refusing : Sink ω where
  kind := "failing"
  deliver name _ := throw (.invalidName name)

end Sink

end CompilerHost
