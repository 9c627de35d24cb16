import CompilerHost.Action
import CompilerHost.Text.Blank

/-! # The guest's log

A guest appends text and says when a block of it is complete. Each block goes to the operator, to
the surface if one is attached, and into the transcript.
-/

namespace CompilerHost

/-- The text as a terminal wants it: a carriage return before each line feed, and a line end after
the text. -/
def terminalText (text : String) : String :=
  String.ofList (text.toList.flatMap fun c => if c = '\n' then ['\r', '\n'] else [c]) ++ "\r\n"

/-- What a surface reports when a block is written to it. -/
def Surface.show (s : Surface) (text : String) : Journal :=
  match s.fault text with
  | none => [.shown s.id text]
  | some e => [.event (.surfaceFailed e.message)]

/-- The surface, if there is one, behind a block that is written to it. -/
def Surface.behind (surface : Option Surface) (block : String) : Option Surface :=
  surface.map (·.after (terminalText block))

/-- The log of one guest. -/
structure Log where
  /-- Text since the last completed block. -/
  pending : String
  /-- The completed blocks, the oldest first. -/
  transcript : List String
  surface : Option Surface

namespace Log

/-- A log in which nothing was written. -/
def fresh (surface : Option Surface) : Log := ⟨"", [], surface⟩

/-- Adds text to the block at hand. -/
def append (log : Log) (text : String) : Log := { log with pending := log.pending ++ text }

/-- The reports that a completed block makes. -/
def delivery (log : Log) : Journal :=
  .event (.guestLog log.pending) ::
    match log.surface with
    | none => []
    | some s => s.show (terminalText log.pending)

/-- Completes the block at hand, even if it is empty. -/
def flushed (log : Log) : Log where
  pending := ""
  transcript := log.transcript ++ [log.pending]
  surface := Surface.behind log.surface log.pending

/-- Completes the block at hand and delivers it. -/
def flush {ε : Type} : Action Log ε String := fun log =>
  ⟨.ok log.pending, log.flushed, log.delivery⟩

/-- Shows blocks on a surface from now on. -/
def attach (log : Log) (s : Surface) : Log := { log with surface := some s }

/-- Shows blocks nowhere from now on. -/
def detach (log : Log) : Log := { log with surface := none }

/-- Forgets the completed blocks. -/
def clear (log : Log) : Log := { log with transcript := [] }

/-- Whether there is anything to read, completed or not. -/
def hasDiagnostics (log : Log) : Bool :=
  !Text.isBlankText log.pending || log.transcript.any (!Text.isBlankText ·)

end Log

end CompilerHost
