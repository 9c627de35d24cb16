import CompilerHost.Binary.Guest
import CompilerHost.Script.Wire

/-! # Engines

An engine turns a binary into a guest, or refuses it. The engine here runs two kinds of binary: one
that carries a script in a section for it does what the script says, and any other does what its own
code says.
-/

namespace CompilerHost

/-- Turns binaries into guests. -/
abbrev Engine (σ : Type) := ByteArray → Option (Guest σ)

namespace Engine

/-- The script in a section, if it is one for that. -/
def scriptIn? (s : Binary.Section) : Option (List UInt8) :=
  if s.id = Script.sectionId then
    match Binary.string s.content with
    | some (label, script) => if label = Script.sectionLabel then some script else none
    | none => none
  else none

/-- What guests remember of either kind. -/
structure State where
  /-- Where the heap of a script goes on. -/
  heap : UInt32
  /-- What the code of a module can change. -/
  module : Binary.State

/-- A script as a guest. -/
def ofScript (s : Script) : Guest State :=
  s.guest.within State.heap (fun whole heap => { whole with heap }) ⟨0, .empty⟩

/-- A module as a guest. -/
def ofModule (m : Binary.Module) : Guest State :=
  m.guest.within State.module (fun whole module => { whole with module }) ⟨0, .empty⟩

/-- The guest in sections: that of the first script among them, or else the module. -/
def ofSections? (sections : List Binary.Section) : Option (Guest State) :=
  match sections.findSome? scriptIn? with
  | some wire => do
    let script ← Script.ofWire? wire
    if script.isTaken then some (ofScript script) else none
  | none => (Binary.Module.ofSections? sections).map ofModule

/-- The version of binaries that the engine takes. -/
def version : Nat := 1

/-- The engine for scripts and for plain modules. -/
def standard : Engine State := fun bytes =>
  if Binary.encoding? (bytes.extract 0 Binary.headerBytes).toList = some (.module version) then
    (Binary.sections? (bytes.toList.drop Binary.headerBytes)).bind ofSections?
  else none

end Engine

end CompilerHost
