import CompilerHost.Host
import CompilerHost.LogFilter

/-! # The command line

One compile, as it is asked for on a command line: a configuration, a source, and flags that replace
the configured ones. The exit status tells whether an artifact was delivered (0), was not (1), or
the command line made no sense (2). It is 101 where the directives for the log end the program.
-/

namespace CompilerHost

/-- Why the command failed. -/
inductive CommandFault where
  | usage
  | config (cause : ConfigFault)
  /-- The directives for the log cannot be cut into their parts. -/
  | logDirectives
  | source (path : String) (error : OsError)
  | run (cause : RunFault)
  /-- The guest ran to its end and produced nothing. -/
  | noArtifact
deriving DecidableEq, Repr

namespace CommandFault

/-- The name of the program. -/
def programName : String := "tcc-wasm-host"

/-- How the program is used. -/
def usageText : String :=
  s!"Usage: {programName} <config.yaml> <source.c> [option ...]\n"
    ++ s!"Example: {programName} configs/tcc.yaml hello.c -c -r\n"
    ++ "Options given on the command line replace compile.options from the config.\n"

/-- A cause with its lines indented, behind its number if there are several. -/
def indented (number : Option Nat) (cause : String) : String :=
  match number with
  | none => "    " ++ "\n    ".intercalate (cause.splitOn "\n")
  | some n =>
    let digits := toString n
    "".pushn ' ' (5 - digits.length) ++ digits ++ ": "
      ++ "\n       ".intercalate (cause.splitOn "\n")

/-- A failure with its causes. -/
def report (message : String) (causes : List String) : String :=
  let listed :=
    match causes with
    | [] => []
    | [cause] => ["", "Caused by:", indented none cause]
    | _ => "" :: "Caused by:" :: causes.zipIdx.map fun (cause, n) => indented (some n) cause
  "\n".intercalate (s!"Error: {message}" :: listed) ++ "\n"

/-- What is written on the error stream in the end. -/
def words : CommandFault → String
  | .usage => usageText
  | .config cause => report cause.message cause.causes
  | .logDirectives => "A log directive is cut in the middle of a character.\n"
  | .source path error => report s!"reading source '{path}'" [error.message]
  | .run cause => report cause.message cause.causes
  | .noArtifact => ""

/-- The exit status. -/
def status : CommandFault → Nat
  | .usage => 2
  | .logDirectives => 101
  | _ => 1

end CommandFault

/-- How the program is started. -/
structure Invocation where
  /-- What follows the program's name. -/
  arguments : List String
  /-- The directives for the log that the environment gives. -/
  logDirectives : Option String

/-- A compile that was asked for, with its configuration. -/
structure Job where
  config : Config
  sourcePath : String
  /-- The flags of the command line. -/
  flags : List String

namespace Job

variable {σ : Type}

/-- Reads the command line and the configuration that it names. -/
def ofArguments (fs : FileSystem) : List String → Except CommandFault Job
  | configPath :: sourcePath :: flags =>
    match Config.loadValid fs configPath with
    | .ok config => .ok ⟨config, sourcePath, flags⟩
    | .error cause => .error (.config cause)
  | _ => .error .usage

/-- The flags of the compile: those of the command line if it has any, blank ones included, and
otherwise the configured ones. -/
def options (job : Job) : Options :=
  if job.flags = [] then job.config.options else Options.ofEntries job.flags

/-- Compiles, and tells the operator what the guest left unfinished in its log. -/
def perform (job : Job) (engine : Engine σ) (terminal : Surface) :
    Action FileSystem CommandFault Unit := do
  let fs ← Action.get
  let source ← Action.ofExcept ((fs.readText job.sourcePath).mapError (.source job.sourcePath))
  let pipeline ← (job.config.pipeline engine fs).mapFault fun cause => .run (.guest cause)
  let request : Request := ⟨job.options, source⟩
  let report ← (pipeline.run request (job.config.log terminal) job.config.sinks).mapFault .run
  unless report.unflushed.isEmpty do Action.emit (.unflushedText report.unflushed)
  unless report.succeeded do throw .noArtifact

end Job

/-- What the program has done. -/
structure CommandRun where
  status : Nat
  /-- The events that the operator sees, and what is shown on the terminal, in order. -/
  journal : Journal
  /-- What is written on the error stream in the end. -/
  lastWords : String
  files : FileSystem

namespace CommandRun

/-- What is seen of a journal through a filter of events. -/
def visible (filter : LogFilter) (journal : Journal) : Journal :=
  journal.filter fun
    | .event e => filter.allows e
    | .shown .. => true

/-- The program as a whole. -/
def ofInvocation {σ : Type} (engine : Engine σ) (terminal : Surface) (invocation : Invocation)
    (fs : FileSystem) : CommandRun :=
  match Job.ofArguments fs invocation.arguments with
  | .error fault => ⟨fault.status, [], fault.words, fs⟩
  | .ok job =>
    match LogFilter.choose invocation.logDirectives job.config.logLevel with
    | .error _ =>
      let fault := CommandFault.logDirectives
      ⟨fault.status, [], fault.words, fs⟩
    | .ok filter =>
      let ended := job.perform engine terminal fs
      let journal := visible filter ended.journal
      match ended.result with
      -- what a fault leaves behind is what was done before it
      | .ok () => ⟨0, journal, "", ended.state⟩
      | .error fault => ⟨fault.status, journal, fault.words, ended.state⟩

end CommandRun

end CompilerHost
