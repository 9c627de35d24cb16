import CompilerHost.Binary.Section

/-! # Manifests

What the host learns of a guest's binary without running it: the names of its imports and of its
exports, in file order. Inspection refuses what the host cannot drive, with the first reason in
file order.
-/

namespace CompilerHost.Binary

/-- The names in a binary. -/
structure Manifest where
  imports : List (String × String)
  exports : List String
deriving DecidableEq, Repr

namespace Manifest

/-- No names. -/
def empty : Manifest := ⟨[], []⟩

/-- The names of one binary part and those of the next. -/
def append (a b : Manifest) : Manifest := ⟨a.imports ++ b.imports, a.exports ++ b.exports⟩

instance : Append Manifest := ⟨append⟩

/-- Whether a name is exported. -/
def exportsName (m : Manifest) (name : String) : Bool := m.exports.contains name

/-- Whether the guest can complete a block of its log. -/
def usesLog (m : Manifest) : Bool := m.imports.contains (hostModule, logFlushImport)

/-- Refuses a guest that lacks one of some exports, naming the first. -/
def require (m : Manifest) (names : List String) : Except GuestFault Unit :=
  match names.find? (!m.exportsName ·) with
  | some name => .error (.missingExport name)
  | none => .ok ()

end Manifest

/-- Whether the host has a function of that name. -/
def isProvided (module name : String) : Bool := (hostFunctionType? module name).isSome

/-- So many imports, each of which the host has to provide, up to the end of their section. -/
def imports : Nat → List UInt8 → Except GuestFault (List (String × String))
  | 0, [] => .ok []
  | 0, _ :: _ => .error .unparsableBinary
  | n + 1, bytes =>
    -- an entry has to be readable to its end before its name matters
    match importEntry bytes with
    | none => .error .unparsableBinary
    | some (entry, rest) =>
      if isProvided entry.module entry.name then
        (imports n rest).map ((entry.module, entry.name) :: ·)
      else .error (.unsupportedImport entry.module entry.name)

/-- The names in one section. -/
def sectionManifest (s : Section) : Except GuestFault Manifest :=
  if s.id = 2 then
    match u32 s.content with
    | none => .error .unparsableBinary
    | some (n, rest) => (imports n rest).map fun names => ⟨names, []⟩
  else if s.id = 7 then
    match counted exportEntry s.content with
    | some (entries, []) => .ok ⟨[], entries.map ExportEntry.name⟩
    | _ => .error .unparsableBinary
  else if isWellFormed s then .ok .empty
  else .error .unparsableBinary

/-! ## Payloads -/

/-- What a parser finds in a binary, one thing at a time. -/
inductive Payload where
  | header (encoding : Encoding)
  | content (s : Section)
deriving DecidableEq, Repr

/-- The sections that a parser finds, up to the end of the binary. Where it cannot make one out
there is nothing, and nothing behind that. -/
def sectionPayloads (bytes : List UInt8) : List (Option Payload) :=
  match bytes with
  | [] => []
  | b :: others =>
    match h : section? (b :: others) with
    | none => [none]
    | some (s, rest) =>
      have := length_section? h
      some (.content s) :: sectionPayloads rest
termination_by bytes.length
decreasing_by assumption

/-- All that a parser finds in a binary: the header, and then the sections. -/
def payloads (bytes : ByteArray) : List (Option Payload) :=
  match encoding? (bytes.extract 0 headerBytes).toList with
  | none => [none]
  | some encoding => some (.header encoding) :: sectionPayloads (bytes.toList.drop headerBytes)

/-! ## Inspection -/

/-- What is known of a binary at some point of its inspection. -/
structure Survey where
  encoding : Option Encoding
  manifest : Manifest

/-- The reason given for a binary in which there was no header. -/
def missingHeaderReason : String := "missing WASM header"

namespace Survey

/-- Nothing is known. -/
def blank : Survey := ⟨none, .empty⟩

/-- Takes note of what a parser found next. -/
def note (known : Survey) : Option Payload → Except GuestFault Survey
  | none => .error .unparsableBinary
  | some (.header .component) => .error (.unsupportedEncoding componentModelReason)
  | some (.header encoding) => .ok { known with encoding := some encoding }
  | some (.content s) =>
    (sectionManifest s).map fun told => { known with manifest := known.manifest ++ told }

/-- What inspection comes to when there is nothing more to be found. -/
def conclude (known : Survey) : Except GuestFault Manifest :=
  match known.encoding with
  | none => .error (.malformedBinary missingHeaderReason)
  | some _ => .ok known.manifest

end Survey

/-- Inspects a guest's binary. -/
def inspect (bytes : ByteArray) : Except GuestFault Manifest := do
  let known ← (payloads bytes).foldlM Survey.note .blank
  known.conclude

end CompilerHost.Binary
