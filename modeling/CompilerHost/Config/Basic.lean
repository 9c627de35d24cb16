import CompilerHost.Config.Fuel
import CompilerHost.Options
import CompilerHost.Sink.Basic

/-! # Configurations

What the host is told once, for every compile: which guest it runs and on how much fuel, the flags
of the compiler if a request brings none, and where the artifact goes.
-/

namespace CompilerHost

structure Config where
  /-- The path of the guest's binary. -/
  module : String
  /-- The path of the filesystem image. -/
  image : Option String
  fuel : FuelPolicy
  options : Options
  /-- The directory of artifacts. -/
  directory : String
  /-- The name of artifacts. -/
  filename : String
  /-- The path of the file that keeps the latest artifact, escaped. -/
  mirror : Option String
  /-- Whether the guest's log is shown on the terminal. -/
  terminal : Bool
  /-- Which events are reported, if the environment does not say. -/
  logLevel : String

/-- Why a configuration cannot be used. -/
inductive ConfigFault where
  | io (path : String) (error : OsError)
  /-- The text is no configuration; the words of the reader are its own. -/
  | unreadable
  /-- A value can be read but not be used. -/
  | invalidValue (field reason : String)
deriving DecidableEq, Repr

namespace ConfigFault

/-- The words in front of a reader's own. -/
def unreadableHeading : String := "Failed to parse config: "

def message : ConfigFault → String
  | .io path error => s!"Failed to read config '{path}': {error.message}"
  | .unreadable => unreadableHeading
  | .invalidValue field reason => s!"Invalid value for '{field}': {reason}"

/-- The causes behind a fault, the nearest first. -/
def causes : ConfigFault → List String
  | .io _ error => [error.message]
  | _ => []

end ConfigFault

namespace Config

/-- Where artifacts go, if nothing else is said. -/
def standardDirectory : String := "."

/-- Which events are reported, if nothing else is said. -/
def standardLogLevel : String := "info"

/-! ## Validation -/

/-- What is said of a value that is missing. -/
def emptyReason : String := "must not be empty"

/-- The guest has to be somewhere. -/
def checkModule (c : Config) : Except ConfigFault Unit :=
  if c.module = "" then .error (.invalidValue "guest.module" emptyReason) else .ok ()

/-- The name of artifacts has to be one that sinks accept. -/
def checkFilename (c : Config) : Except ConfigFault Unit :=
  if Text.isBlankText c.filename then .error (.invalidValue "output.filename" emptyReason)
  else if isBareName c.filename then .ok ()
  else .error (.invalidValue "output.filename" s!"'{c.filename}' must be a bare file name")

/-- The bounds of fuel must not cross. -/
def checkFuel (c : Config) : Except ConfigFault Unit :=
  if c.fuel.lowerBound ≤ c.fuel.upperBound then .ok ()
  else
    let lower := c.fuel.lowerBound
    let upper := c.fuel.upperBound
    .error (.invalidValue "guest.fuel" s!"minimum {lower} exceeds maximum {upper}")

/-- Refuses values that cannot work at all, the first of them. -/
def validate (c : Config) : Except ConfigFault Unit := do
  c.checkModule
  c.checkFilename
  c.checkFuel

/-! ## Paths -/

/-- A path that is not empty, seen from a base. -/
def resolvePath (base path : String) : String := if path = "" then path else Path.join base path

/-- The configuration with its paths seen from a base. -/
def resolvePaths (base : String) (c : Config) : Config :=
  { c with
    module := resolvePath base c.module
    image := c.image.map (resolvePath base)
    directory := resolvePath base c.directory
    mirror := c.mirror.map (resolvePath base) }

end Config

end CompilerHost
