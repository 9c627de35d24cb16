import CompilerHost.Command
import CompilerHost.Script.Wire

/-! # The program

The outer layer of the command line: it takes a picture of the files that a compile can concern,
lets `CommandRun.ofInvocation` decide everything, and does to the real files and streams what that
says.
-/

namespace CompilerHost.Program

/-- What really stands at a path, if anything can be read there. -/
def nodeAt? (path : String) : IO (Option FileSystem.Node) := do
  try
    let place ← IO.FS.realPath path
    if ← place.isDir then pure (some .directory)
    else
      let content ← IO.FS.readBinFile place
      pure (some (.file content))
  catch _ => pure none

/-- Adds what really stands at a path and above it. -/
def observe (fs : FileSystem) (path : String) : IO FileSystem := do
  let mut seen := fs
  for place in (Path.ancestors path (path.length + 1)).reverse do
    if let some node ← nodeAt? place then seen := seen.install place node
  return seen

/-- The paths that a compile with a configuration can concern. -/
def pathsOf (c : Config) : List String :=
  c.module :: (c.image.toList ++ [c.directory, Sink.fileTarget c.directory c.filename]
    ++ c.mirror.toList)

/-- A picture of the files that a command line can concern. -/
def picture (arguments : List String) : IO FileSystem := do
  let here := (← IO.currentDir).toString
  let mut seen := FileSystem.empty (FileSystem.names here)
  for path in arguments.take 2 do
    seen ← observe seen path
  if let .ok job := Job.ofArguments seen arguments then
    for path in pathsOf job.config do
      seen ← observe seen path
  return seen

/-- Makes the real files what they have become. -/
def settle (before after : FileSystem) : IO Unit := do
  for (place, node) in after.nodes do
    unless before.node? place = some node do
      let path := "/" ++ "/".intercalate place
      match node with
      | .directory => IO.FS.createDirAll path
      | .file content => IO.FS.writeBinFile path content

/-- The standard output as a surface. -/
def terminal : Surface := ⟨0, none⟩

/-- Shows what was reported. -/
def tell : Report → IO Unit
  | .event e => IO.eprintln s!"{e.level.name} {e.target}: {e.text}"
  | .shown _ text => IO.print text

end CompilerHost.Program

open CompilerHost in
def main (arguments : List String) : IO UInt32 := do
  let before ← Program.picture arguments
  let directives ← IO.getEnv "RUST_LOG"
  let run :=
    CommandRun.ofInvocation Engine.standard Program.terminal ⟨arguments, directives⟩ before
  run.journal.forM Program.tell
  Program.settle before run.files
  IO.eprint run.lastWords
  return UInt32.ofNat run.status
