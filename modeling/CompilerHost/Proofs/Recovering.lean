import CompilerHost.Proofs.Framing
import CompilerHost.Script.Wire

/-! # What inspection recovers

A module is a list of parts, and there are many binaries of it: numbers may be written in more bytes
than they need, and sections may come in any order and more than once. Whichever it is, inspection
finds the names that the parts have.

* `Binary.sectionsManifest_of_parts`: sections tell what their parts do, in file order;
* `Binary.inspect_binary`: so the binary of a script tells what the script imports and exports;
* `Binary.refusal_of_inspect`: the reasons for which binaries are refused;
* `Binary.inspect_recovers`: the names of every module, or the first import that is not there.
-/

namespace CompilerHost.Binary

/-! ## Modules -/

/-- What one section of a module holds. -/
inductive Part where
  | imports (entries : List ImportEntry)
  | exports (entries : List ExportEntry)
  | other (s : Section)

namespace Part

/-- The imports in a section. -/
def importEntries : Part → List ImportEntry
  | imports entries => entries
  | exports _ => []
  | other _ => []

/-- The exports in a section. -/
def exportEntries : Part → List ExportEntry
  | imports _ => []
  | exports entries => entries
  | other _ => []

end Part

/-- A section in binary. -/
inductive PartForm : Part → List UInt8 → Prop where
  | imports {entries : List ImportEntry} {content w : List UInt8}
      (hentries : CountedForm ImportForm entries content) (hframe : FrameForm ⟨2, content⟩ w) :
      PartForm (.imports entries) w
  | exports {entries : List ExportEntry} {content w : List UInt8}
      (hentries : CountedForm ExportForm entries content) (hframe : FrameForm ⟨7, content⟩ w) :
      PartForm (.exports entries) w
  | other {s : Section} {w : List UInt8} (hother : OtherForm s) (hframe : FrameForm s w) :
      PartForm (.other s) w

/-- A module in binary: its header and its sections, in any order and as often as they like. -/
inductive ModuleForm : List Part → List UInt8 → Prop where
  | module {parts : List Part} {header w : List UInt8} (hheader : ModuleHeader header)
      (hparts : ItemsForm PartForm parts w) : ModuleForm parts (header ++ w)

/-- All imports of a module, in file order. -/
def importsOf (parts : List Part) : List ImportEntry := parts.flatMap Part.importEntries

/-- All exports of a module, in file order. -/
def exportsOf (parts : List Part) : List ExportEntry := parts.flatMap Part.exportEntries

/-! ## Callbacks -/

/-- One of the two functions that the host has for a guest's log. -/
def IsLogCallback (module name : String) : Prop :=
  module = hostModule ∧ (name = logWriteImport ∨ name = logFlushImport)

theorem isProvided_iff {module name : String} :
    isProvided module name = true ↔ IsLogCallback module name := by
  unfold isProvided hostFunctionType? IsLogCallback
  split
  · rename_i hwrite
    exact ⟨fun _ => ⟨hwrite.1, .inl hwrite.2⟩, fun _ => rfl⟩
  · rename_i hwrite
    split
    · rename_i hflush
      exact ⟨fun _ => ⟨hflush.1, .inr hflush.2⟩, fun _ => rfl⟩
    · rename_i hflush
      constructor
      · intro hsome
        cases hsome
      · rintro ⟨hmodule, hname | hname⟩
        · exact absurd ⟨hmodule, hname⟩ hwrite
        · exact absurd ⟨hmodule, hname⟩ hflush

/-! ## Names -/

/-- What becomes of imports: they are refused for the first that the host has nothing for. -/
def granted (entries : List ImportEntry) : Except GuestFault (List (String × String)) :=
  match entries.find? fun e => !isProvided e.module e.name with
  | none => .ok (importNames entries)
  | some e => .error (.unsupportedImport e.module e.name)

theorem granted_append (first others : List ImportEntry) :
    granted (first ++ others) =
      granted first >>= fun names => (granted others).map (names ++ ·) := by
  simp only [granted, List.find?_append]
  cases first.find? fun e => !isProvided e.module e.name with
  | some e => rfl
  | none =>
      rw [Option.none_or]
      cases others.find? fun e => !isProvided e.module e.name with
      | some e => rfl
      | none =>
          show Except.ok (importNames (first ++ others)) = _
          rw [importNames, List.map_append]
          rfl

/-- If the host has functions for all, they are admitted. -/
theorem granted_of_all {entries : List ImportEntry}
    (h : ∀ e ∈ entries, IsLogCallback e.module e.name) :
    granted entries = .ok (importNames entries) := by
  have hnone : (entries.find? fun e => !isProvided e.module e.name) = none := by
    rw [List.find?_eq_none]
    intro e he
    rw [isProvided_iff.2 (h e he)]
    decide
  rw [granted, hnone]

/-- If not, the first that it has none for is named. -/
theorem granted_of_first {before after : List ImportEntry} {e : ImportEntry}
    (hbefore : ∀ i ∈ before, IsLogCallback i.module i.name) (he : ¬IsLogCallback e.module e.name) :
    granted (before ++ e :: after) = .error (.unsupportedImport e.module e.name) := by
  have hforeign : isProvided e.module e.name = false := by
    rw [← Bool.not_eq_true, isProvided_iff]
    exact he
  have hfirst : granted (e :: after) = .error (.unsupportedImport e.module e.name) := by
    rw [granted, List.find?_cons_of_pos (by rw [hforeign]; rfl)]
  rw [granted_append, granted_of_all hbefore, hfirst]
  rfl

/-- The imports of a section are read to its end, unless one before that is not admitted. The
induction is on the entries; an entry is read whole before it is looked at. -/
theorem imports_of_form {entries : List ImportEntry} {w : List UInt8}
    (h : ItemsForm ImportForm entries w) : imports entries.length w = granted entries := by
  induction h with
  | nil => rfl
  | @cons e entries v w hfirst _ ih =>
      have hread := reads_importEntry _ _ w hfirst
      -- an entry that is not admitted hides what is wrong behind it
      rw [List.length_cons, imports, hread, ← List.singleton_append, granted_append, ← ih]
      by_cases hprovided : isProvided e.module e.name = true
      · have hone : granted [e] = .ok [(e.module, e.name)] := by
          refine granted_of_all ?_
          intro i hi
          rw [List.mem_singleton] at hi
          rwa [hi, ← isProvided_iff]
        simp only [if_pos hprovided, hone]
        rfl
      · have hone : granted [e] = .error (.unsupportedImport e.module e.name) :=
          granted_of_first (fun _ hmem => absurd hmem List.not_mem_nil)
            (fun hcallback => hprovided (isProvided_iff.2 hcallback))
        simp only [if_neg hprovided, hone]
        rfl

/-- What is told of imports and exports. -/
def told (imported : List ImportEntry) (exported : List ExportEntry) : Except GuestFault Manifest :=
  (granted imported).map fun names => ⟨names, exported.map ExportEntry.name⟩

theorem told_append (imported others : List ImportEntry) (exported more : List ExportEntry) :
    told (imported ++ others) (exported ++ more) =
      told imported exported >>= fun first => (told others more).map (first ++ ·) := by
  rw [told, told, told, granted_append, List.map_append]
  cases granted imported with
  | error e => rfl
  | ok names =>
      cases granted others with
      | error e => rfl
      | ok rest => rfl

/-! ## Sections -/

/-- A section tells what is in its part. -/
theorem sectionManifest_of_part {p : Part} {v : List UInt8} (h : PartForm p v) :
    ∃ s, FrameForm s v ∧ s.id < 0x80 ∧
      sectionManifest s = told p.importEntries p.exportEntries := by
  cases h with
  | @imports entries content _ hentries hframe =>
      refine ⟨_, hframe, (by decide : (2 : UInt8) < 0x80), ?_⟩
      rcases hentries with ⟨hcount, hitems⟩
      rw [sectionManifest, if_pos rfl]
      simp only [reads_u32 _ _ _ hcount, imports_of_form hitems]
      rfl
  | @exports entries content _ hentries hframe =>
      refine ⟨_, hframe, (by decide : (7 : UInt8) < 0x80), ?_⟩
      have hread := reads_counted reads_exportEntry _ _ [] hentries
      rw [List.append_nil] at hread
      rw [sectionManifest, if_neg (by decide : ¬(7 : UInt8) = 2), if_pos rfl]
      simp only [hread]
      rfl
  | other hother hframe =>
      -- such a section is looked at, but tells nothing
      obtain ⟨hid, himports, hexports, hwellFormed⟩ := isWellFormed_of_otherForm hother
      refine ⟨_, hframe, hid, ?_⟩
      rw [sectionManifest, if_neg himports, if_neg hexports, if_pos hwellFormed]
      rfl

/-- Sections tell what is in their parts, in file order. The induction is on the parts. -/
theorem sectionsManifest_of_parts {parts : List Part} {w : List UInt8}
    (h : ItemsForm PartForm parts w) :
    sectionsManifest w = told (importsOf parts) (exportsOf parts) := by
  induction h with
  | nil =>
      rw [sectionsManifest]
      rfl
  | cons hfirst _ ih =>
      obtain ⟨s, hframe, hid, hmanifest⟩ := sectionManifest_of_part hfirst
      rw [sectionsManifest_frame hframe, if_pos hid, hmanifest, ih]
      exact (told_append _ _ _ _).symm

theorem inspect_of_form {parts : List Part} {bytes : ByteArray}
    (h : ModuleForm parts bytes.toList) :
    inspect bytes = told (importsOf parts) (exportsOf parts) := by
  generalize hbytes : bytes.toList = w at h
  rcases h with ⟨hheader, hparts⟩
  rw [inspect_of_header hheader hbytes, sectionsManifest_of_parts hparts]

/-! ## Scripts -/

/-- The import of a function that a script asks for. -/
def importOf (i : String × String × List ValueType) : ImportEntry := ⟨i.1, i.2.1, .function 0⟩

/-- The export of something that a script has. -/
def exportOf (e : String × Export UInt32) : ExportEntry := ⟨e.1, Script.exportMark e.2, 0⟩

/-- What is in the section of a script's imports. -/
def importContent (s : Script) : List UInt8 :=
  writeCounted (fun i => writeFunctionImport i.1 i.2.1 0) s.imports

/-- What is in the section of a script's exports. -/
def exportContent (s : Script) : List UInt8 :=
  writeCounted (fun e => writeExport (exportOf e)) s.exports

/-- What is in the section of the script itself. -/
def ownContent (s : Script) : List UInt8 := writeString Script.sectionLabel ++ s.wire

/-- What there is in the binary of a script. -/
def partsOf (s : Script) : List Part :=
  [.imports (s.imports.map importOf), .exports (s.exports.map exportOf),
    .other ⟨Script.sectionId, ownContent s⟩]

theorem toList_binary (s : Script) :
    s.binary.toList =
      writeHeader ++ (writeSection 2 (importContent s) ++ (writeSection 7 (exportContent s) ++
        (writeSection Script.sectionId (ownContent s) ++ []))) := by
  rw [toList_byteArray, Script.binary]
  simp only [List.append_assoc, List.append_nil]
  rfl

/-- No section is larger than the binary. -/
theorem length_lt_of_size {s : Script} {n : Nat} (hsize : s.binary.size < n) :
    (importContent s).length < n ∧ (exportContent s).length < n ∧ (ownContent s).length < n := by
  have hsection : ∀ id content, content.length ≤ (writeSection id content).length := by
    intro id content
    rw [writeSection, writeBytes, List.length_cons, List.length_append]
    omega
  have himports := hsection 2 (importContent s)
  have hexports := hsection 7 (exportContent s)
  have hown := hsection Script.sectionId (ownContent s)
  rw [← length_toList_byteArray, toList_binary] at hsize
  simp only [List.length_append] at hsize
  omega

/-- The exports of a script have short names. -/
theorem size_of_export {s : Script} {e : String × Export UInt32} (h : e ∈ s.exports) :
    e.1.toUTF8.size ≤ maxStringBytes := by
  -- there are five names that a script can export at all
  have hshort : ∀ name ∈ [Guest.memoryExport, Script.otherMemoryName, Guest.allocatorExport,
      Guest.imageAllocatorExport, compileExport], name.toUTF8.size ≤ maxStringBytes := by decide
  refine hshort e.1 ?_
  unfold Script.exports at h
  simp only [List.mem_append, Option.mem_toList, Option.map_eq_some_iff] at h
  rcases h with ((hmemory | ⟨_, _, rfl⟩) | ⟨_, _, rfl⟩) | ⟨_, _, rfl⟩
  · generalize s.memoryAs = form at hmemory
    cases form with
    | absent => cases hmemory
    | memory | renamed | function =>
        obtain rfl := Option.some.inj hmemory
        simp
  · simp
  · simp
  · simp

theorem exportMark_le (e : Export UInt32) : Script.exportMark e ≤ 4 := by
  cases e with
  | function f => exact (by decide : (0 : UInt8) ≤ 4)
  | memory => decide
  | other => decide

/-- The binary of a script has the form of a module. -/
theorem moduleForm_binary {s : Script}
    (hnames : ∀ i ∈ s.imports,
      i.1.toUTF8.size ≤ maxStringBytes ∧ i.2.1.toUTF8.size ≤ maxStringBytes)
    (hsize : s.binary.size < 2 ^ 32) : ModuleForm (partsOf s) s.binary.toList := by
  obtain ⟨himports, hexports, hown⟩ := length_lt_of_size hsize
  rw [toList_binary]
  refine .module (.header 1 0) (.cons ?_ (.cons ?_ (.cons ?_ .nil)))
  · refine .imports (countedForm_writeCounted ?_ ?_) (frameForm_writeSection himports)
    · intro i hi
      obtain ⟨hmodule, hname⟩ := hnames i hi
      exact importForm_writeFunctionImport hmodule hname (by decide)
    · refine Nat.lt_of_le_of_lt (length_le_writeCounted ?_ _) himports
      intro i
      rw [writeFunctionImport, List.length_append, List.length_cons]
      omega
  · refine .exports (countedForm_writeCounted ?_ ?_) (frameForm_writeSection hexports)
    · intro e he
      exact exportForm_writeExport (size_of_export he) (exportMark_le e.2)
        (by decide : 0 < 2 ^ 32)
    · refine Nat.lt_of_le_of_lt (length_le_writeCounted ?_ _) hexports
      intro e
      rw [writeExport, List.length_append, List.length_cons]
      omega
  · exact .other (.unknown _ (by decide) (by decide)) (frameForm_writeSection hown)

/-- Of the binary of a script, inspection tells what the script imports and exports. -/
theorem inspect_binary {s : Script}
    (hnames : ∀ i ∈ s.imports,
      i.1.toUTF8.size ≤ maxStringBytes ∧ i.2.1.toUTF8.size ≤ maxStringBytes)
    (hsize : s.binary.size < 2 ^ 32) :
    inspect s.binary = told (s.imports.map importOf) (s.exports.map exportOf) := by
  rw [inspect_of_form (moduleForm_binary hnames hsize)]
  simp [partsOf, importsOf, exportsOf, Part.importEntries, Part.exportEntries]

/-! ## Refusals -/

/-- The reasons for which inspection refuses a binary. -/
inductive Refusal : GuestFault → Prop where
  | unparsable : Refusal .unparsableBinary
  | component : Refusal (.unsupportedEncoding componentModelReason)
  | foreign {module name : String} (h : ¬IsLogCallback module name) :
      Refusal (.unsupportedImport module name)

theorem error_of_map {ε α β : Type} {x : Except ε α} {f : α → β} {e : ε}
    (h : x.map f = .error e) : x = .error e := by
  cases x with
  | error e' =>
      obtain rfl := Except.error.inj h
      rfl
  | ok a => cases h

theorem refusal_of_imports {n : Nat} {bytes : List UInt8} {e : GuestFault}
    (h : imports n bytes = .error e) : Refusal e := by
  fun_induction imports n bytes with
  | case1 => cases h
  | case2 =>
      obtain rfl := Except.error.inj h
      exact .unparsable
  | case3 =>
      obtain rfl := Except.error.inj h
      exact .unparsable
  | case4 n bytes entry rest _ _ ih => exact ih (error_of_map h)
  | case5 n bytes entry rest _ hprovided =>
      obtain rfl := Except.error.inj h
      exact .foreign fun hcallback => hprovided (isProvided_iff.2 hcallback)

theorem refusal_of_sectionManifest {s : Section} {e : GuestFault}
    (h : sectionManifest s = .error e) : Refusal e := by
  unfold sectionManifest at h
  split at h
  · split at h
    · obtain rfl := Except.error.inj h
      exact .unparsable
    · exact refusal_of_imports (error_of_map h)
  · split at h
    · split at h
      · cases h
      · obtain rfl := Except.error.inj h
        exact .unparsable
    · split at h
      · cases h
      · obtain rfl := Except.error.inj h
        exact .unparsable

theorem refusal_of_sectionsManifest {bytes : List UInt8} {e : GuestFault}
    (h : sectionsManifest bytes = .error e) : Refusal e := by
  fun_induction sectionsManifest bytes with
  | case1 => cases h
  | case2 =>
      obtain rfl := Except.error.inj h
      exact .unparsable
  | case3 b others s rest _ _ e' hfirst =>
      obtain rfl := Except.error.inj h
      exact refusal_of_sectionManifest hfirst
  | case4 b others s rest _ _ first _ ih => exact ih (error_of_map h)

/-- A binary is refused for one of three reasons. That there was no header is none of them. -/
theorem refusal_of_inspect {bytes : ByteArray} {e : GuestFault} (h : inspect bytes = .error e) :
    Refusal e := by
  rw [inspect_eq] at h
  split at h
  · obtain rfl := Except.error.inj h
    exact .unparsable
  · obtain rfl := Except.error.inj h
    exact .component
  · exact refusal_of_sectionsManifest h

/-! ## Recovery -/

/-- Of every binary of a module, inspection tells the names of its imports and exports in file order
if the host has functions for all imports, and else names the first that it has none for. Of no
bytes at all does it tell another import, or say that there was no header. -/
theorem inspect_recovers :
    (∀ parts bytes, ModuleForm parts bytes.toList →
      ((∀ e ∈ importsOf parts, IsLogCallback e.module e.name) →
        inspect bytes =
          .ok ⟨(importsOf parts).map fun e => (e.module, e.name),
            (exportsOf parts).map ExportEntry.name⟩) ∧
      ∀ before e after, importsOf parts = before ++ e :: after →
        (∀ i ∈ before, IsLogCallback i.module i.name) → ¬IsLogCallback e.module e.name →
        inspect bytes = .error (.unsupportedImport e.module e.name)) ∧
    (∀ bytes m, inspect bytes = .ok m → ∀ asked ∈ m.imports, IsLogCallback asked.1 asked.2) ∧
    ∀ bytes reason, inspect bytes ≠ .error (.malformedBinary reason) := by
  refine ⟨?_, ?_, ?_⟩
  · intro parts bytes hform
    rw [inspect_of_form hform, told]
    constructor
    · intro hall
      rw [granted_of_all hall]
      rfl
    · intro before e after himports hbefore he
      rw [himports, granted_of_first hbefore he]
      rfl
  · intro bytes m hinspect asked hasked
    exact isProvided_iff.1 (provided_of_inspect hinspect asked hasked)
  · intro bytes reason hinspect
    cases refusal_of_inspect hinspect

/-- A section of one import, without its frame. -/
def oneImport : List UInt8 := writeCounted (writeFunctionImport hostModule · 0) [logFlushImport]

/-- One byte would do for the size of the section, but there are two. -/
theorem inspect_recovers_padded :
    ModuleForm [.imports [⟨hostModule, logFlushImport, .function 0⟩]]
      (writeHeader ++ (2 :: ([0x99, 0x00] ++ oneImport))) ∧
    inspect ⟨(writeHeader ++ (2 :: ([0x99, 0x00] ++ oneImport))).toArray⟩ =
      .ok ⟨[(hostModule, logFlushImport)], []⟩ := by
  have hsize : Unsigned 32 oneImport.length [0x99, 0x00] := by
    have hlength : oneImport.length = 25 := by decide +kernel
    have hlast : Unsigned (32 - 7) 0 [0x00] := .last (b := 0x00) (by decide) (by decide)
    rw [hlength]
    exact .more (b := 0x99) (by decide) (by decide) hlast
  have hentries : CountedForm ImportForm [⟨hostModule, logFlushImport, .function 0⟩] oneImport := by
    refine .counted (unsigned_writeUnsigned (by decide)) (.cons ?_ .nil)
    exact importForm_writeFunctionImport (by decide) (by decide) (by decide)
  have hform : ModuleForm [.imports [⟨hostModule, logFlushImport, .function 0⟩]]
      (writeHeader ++ (2 :: ([0x99, 0x00] ++ oneImport))) := by
    rw [← List.append_nil (2 :: _)]
    exact .module (.header 1 0) (.cons (.imports hentries (.framed hsize)) .nil)
  refine ⟨hform, (inspect_recovers.1
    [.imports [⟨hostModule, logFlushImport, .function 0⟩]] _ ?_).1 ?_⟩
  · rw [toList_byteArray]
    exact hform
  · intro e he
    rw [show e = ⟨hostModule, logFlushImport, .function 0⟩ from List.mem_singleton.1 he]
    exact ⟨rfl, .inr rfl⟩

end CompilerHost.Binary
