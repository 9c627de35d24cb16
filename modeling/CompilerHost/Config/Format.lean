import CompilerHost.Config.Basic
import CompilerHost.Yaml.Value

/-! # Configurations as text

A configuration is written in YAML, in sections for the guest, the compiler and the output. Only the
guest's binary has to be given.
-/

namespace CompilerHost.Config

open Yaml

/-- What a record of a section means. -/
abbrev SectionReader (α : Type) := Record → Option α

/-- Reads a section whose fields are known. -/
def readSection {α : Type} (fields : List String) (read : SectionReader α) (d : Document)
    (node : Node) : Option α :=
  (d.record? fields node).bind read

/-! ## The guest -/

def readFuel : Document → Node → Option FuelPolicy :=
  readSection ["default", "minimum", "maximum"] fun r => do
    let default ← r.optional? "default" Document.number?
    let minimum ← r.optional? "minimum" Document.number?
    let maximum ← r.optional? "maximum" Document.number?
    pure ⟨default, minimum, maximum⟩

/-- The section of the guest. -/
structure GuestSection where
  module : String
  image : Option String
  fuel : FuelPolicy

def readGuest : Document → Node → Option GuestSection :=
  readSection ["module", "romfs", "fuel"] fun r => do
    let module ← r.required? "module" Document.text?
    let image ← r.optional? "romfs" Document.text?
    let fuel ← r.withDefault? "fuel" .unset readFuel
    pure ⟨module, image, fuel⟩

/-! ## The compiler -/

def readOptions (d : Document) (node : Node) : Option Options :=
  (d.texts? node).map Options.ofEntries

def readCompiler : Document → Node → Option Options :=
  readSection ["options"] fun r => r.withDefault? "options" .none readOptions

/-! ## The output -/

/-- The section of the output. -/
structure OutputSection where
  directory : String
  filename : String
  mirror : Option String
  terminal : Bool

/-- The output if nothing is said of it. -/
def standardOutput : OutputSection := ⟨standardDirectory, defaultArtifactName, none, true⟩

def readOutput : Document → Node → Option OutputSection :=
  readSection ["directory", "filename", "mirror", "terminal"] fun r => do
    let directory ← r.withDefault? "directory" standardOutput.directory Document.text?
    let filename ← r.withDefault? "filename" standardOutput.filename Document.text?
    let mirror ← r.optional? "mirror" Document.text?
    let terminal ← r.withDefault? "terminal" standardOutput.terminal Document.flag?
    pure ⟨directory, filename, mirror, terminal⟩

/-! ## The whole -/

def readConfig : Document → Node → Option Config :=
  readSection ["guest", "compile", "output", "log_level"] fun r => do
    let guest ← r.required? "guest" readGuest
    let options ← r.withDefault? "compile" .none readCompiler
    let output ← r.withDefault? "output" standardOutput readOutput
    let logLevel ← r.withDefault? "log_level" standardLogLevel Document.text?
    pure
      { module := guest.module
        image := guest.image
        fuel := guest.fuel
        options := options
        directory := output.directory
        filename := output.filename
        mirror := output.mirror
        terminal := output.terminal
        logLevel := logLevel }

/-- The configuration that a text describes. -/
def parse? (text : String) : Option Config := do
  let document ← Document.parse? text
  readConfig document document.root

/-! ## Files -/

/-- Reads a configuration from a file. Its paths are seen from the directory of that file. -/
def load (fs : FileSystem) (path : String) : Except ConfigFault Config :=
  match fs.readText path with
  | .error e => .error (.io path e)
  | .ok text =>
    match parse? text with
    | none => .error .unreadable
    | some c =>
      match Path.parent? path with
      | some base => .ok (c.resolvePaths base)
      | none => .ok c

/-- Reads a configuration that can work. -/
def loadValid (fs : FileSystem) (path : String) : Except ConfigFault Config := do
  let c ← load fs path
  c.validate
  pure c

end CompilerHost.Config
