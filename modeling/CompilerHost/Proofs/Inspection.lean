import CompilerHost.Loading
import CompilerHost.Engine
import CompilerHost.Proofs.Sequencing

/-! # What inspection tells

A binary is looked at twice: inspection reads the names in it, section by section, and an engine
makes a module of it. What inspection lets pass has the names that the engine finds.

* `Binary.provided_of_inspect`: whatever passes asks the host only for functions that it has;
* `Binary.Module.manifest_of_sections`: section by section, a module gets the names of its manifest;
* `Engine.readsNames_standard`: a plain module has the imports and exports that were inspected.
-/

namespace CompilerHost

namespace Binary

/-! ## Imports -/

/-- The names of imports. -/
def importNames (entries : List ImportEntry) : List (String × String) :=
  entries.map fun e => (e.module, e.name)

/-- Imports that pass are entries up to the end of their section, of functions that the host has. -/
theorem items_of_imports {n : Nat} {bytes : List UInt8} {names : List (String × String)}
    (h : imports n bytes = .ok names) :
    ∃ entries, items importEntry n bytes = some (entries, []) ∧ names = importNames entries ∧
      ∀ e ∈ entries, isProvided e.module e.name = true := by
  induction n generalizing bytes names with
  | zero =>
      cases bytes with
      | nil =>
          obtain rfl := Except.ok.inj h
          exact ⟨[], rfl, rfl, fun e he => by cases he⟩
      | cons b bytes => cases h
  | succ n ih =>
      rw [imports] at h
      cases hentry : importEntry bytes with
      | none =>
          rw [hentry] at h
          cases h
      | some read =>
          obtain ⟨entry, rest⟩ := read
          rw [hentry] at h
          simp only at h
          split at h
          · rename_i hprovided
            cases hrest : imports n rest with
            | error e =>
                rw [hrest] at h
                cases h
            | ok others =>
                rw [hrest] at h
                obtain rfl := Except.ok.inj h
                obtain ⟨entries, hitems, rfl, hall⟩ := ih hrest
                refine ⟨entry :: entries, by simp [items, hentry, hitems], rfl, ?_⟩
                intro e he
                rcases List.mem_cons.1 he with rfl | he
                · exact hprovided
                · exact hall e he
          · cases h

/-! ## Sections -/

namespace Manifest

theorem empty_append (m : Manifest) : empty ++ m = m := rfl

theorem append_empty (m : Manifest) : m ++ empty = m := by
  show (⟨m.imports ++ [], m.exports ++ []⟩ : Manifest) = m
  rw [List.append_nil, List.append_nil]

theorem append_assoc (a b c : Manifest) : a ++ b ++ c = a ++ (b ++ c) := by
  show (⟨a.imports ++ b.imports ++ c.imports, a.exports ++ b.exports ++ c.exports⟩ : Manifest) = _
  rw [List.append_assoc, List.append_assoc]
  rfl

end Manifest

/-- What a section tells of names. -/
inductive Tells (s : Section) : Manifest → Prop where
  | imports (entries : List ImportEntry) (hid : s.id = 2)
      (hitems : Module.allItems importEntry s.content = some entries)
      (hprovided : ∀ e ∈ entries, isProvided e.module e.name = true) :
      Tells s ⟨importNames entries, []⟩
  | exports (entries : List ExportEntry) (hid : s.id = 7)
      (hitems : Module.allItems exportEntry s.content = some entries) :
      Tells s ⟨[], entries.map ExportEntry.name⟩
  | nothing (himports : s.id ≠ 2) (hexports : s.id ≠ 7) : Tells s .empty

theorem tells_of_sectionManifest {s : Section} {m : Manifest} (h : sectionManifest s = .ok m) :
    Tells s m := by
  unfold sectionManifest at h
  split at h
  · rename_i hid
    split at h
    · cases h
    · rename_i n rest hcount
      cases himports : imports n rest with
      | error e =>
          rw [himports] at h
          cases h
      | ok names =>
          rw [himports] at h
          obtain rfl := Except.ok.inj h
          obtain ⟨entries, hitems, rfl, hprovided⟩ := items_of_imports himports
          refine .imports entries hid ?_ hprovided
          simp [Module.allItems, counted, hcount, hitems]
  · rename_i himports
    split at h
    · rename_i hid
      split at h
      · rename_i entries hitems
        obtain rfl := Except.ok.inj h
        exact .exports entries hid (by simp [Module.allItems, hitems])
      · cases h
    · rename_i hexports
      split at h
      · obtain rfl := Except.ok.inj h
        exact .nothing himports hexports
      · cases h

/-- The names in sections, up to the end of the binary: those in the first, and those in the rest. -/
def sectionsManifest (bytes : List UInt8) : Except GuestFault Manifest :=
  match bytes with
  | [] => .ok .empty
  | b :: others =>
    match h : section? (b :: others) with
    | none => .error .unparsableBinary
    | some (s, rest) =>
      have := length_section? h
      match sectionManifest s with
      | .error e => .error e
      | .ok first => (sectionsManifest rest).map (first ++ ·)
termination_by bytes.length
decreasing_by assumption

/-- Whatever is known by then, going through sections adds the names in them to it and does nothing
else. -/
theorem foldlM_sectionPayloads (bytes : List UInt8) (known : Survey) :
    (sectionPayloads bytes).foldlM Survey.note known =
      (sectionsManifest bytes).map fun told =>
        { known with manifest := known.manifest ++ told } := by
  fun_induction sectionPayloads bytes generalizing known with
  | case1 =>
      rw [sectionsManifest]
      simp only [List.foldlM_nil, Except.map, Manifest.append_empty]
      rfl
  | case2 b others hnone =>
      rw [sectionsManifest]
      split
      · rfl
      · rename_i hsome
        rw [hnone] at hsome
        cases hsome
  | case3 b others s rest hsection _ ih =>
      rw [sectionsManifest]
      split
      · rename_i hnone
        rw [hsection] at hnone
        cases hnone
      · rename_i hsome
        rw [hsection] at hsome
        cases hsome
        rw [List.foldlM_cons]
        cases hfirst : sectionManifest s with
        | error e =>
            simp only [Survey.note, hfirst]
            rfl
        | ok first =>
            have hnote : known.note (some (.content s)) =
                .ok { known with manifest := known.manifest ++ first } := by
              simp only [Survey.note, hfirst]
              rfl
            rw [hnote]
            refine (ih _).trans ?_
            cases sectionsManifest rest with
            | error e => rfl
            | ok others =>
                simp only [Except.map, Manifest.append_assoc]

/-- Inspection looks at the header, and takes the names in the sections behind that of a module. -/
theorem inspect_eq (bytes : ByteArray) :
    inspect bytes =
      match encoding? (bytes.extract 0 headerBytes).toList with
      | none => .error .unparsableBinary
      | some .component => .error (.unsupportedEncoding componentModelReason)
      | some (.module _) => sectionsManifest (bytes.toList.drop headerBytes) := by
  unfold inspect payloads
  cases encoding? (bytes.extract 0 headerBytes).toList with
  | none => rfl
  | some encoding =>
      cases encoding with
      | component => rfl
      | module version =>
          have hnote : Survey.blank.note (some (.header (.module version))) =
              .ok ⟨some (.module version), .empty⟩ := rfl
          simp only [List.foldlM_cons, hnote]
          show ((sectionPayloads _).foldlM Survey.note _ >>= _) = _
          rw [foldlM_sectionPayloads]
          cases sectionsManifest (bytes.toList.drop headerBytes) with
          | error e => rfl
          | ok told => rfl

/-- What sections tell of names, one after the other. -/
inductive AllTell : List Section → Manifest → Prop where
  | nil : AllTell [] .empty
  | cons {s : Section} {rest : List Section} {first others : Manifest} (hfirst : Tells s first)
      (hothers : AllTell rest others) : AllTell (s :: rest) (first ++ others)

theorem allTell_of_sectionsManifest {bytes : List UInt8} {m : Manifest}
    (h : sectionsManifest bytes = .ok m) :
    ∃ sections, sections? bytes = some sections ∧ AllTell sections m := by
  fun_induction sectionsManifest bytes generalizing m with
  | case1 =>
      obtain rfl := Except.ok.inj h
      exact ⟨[], by rw [sections?], .nil⟩
  | case2 => cases h
  | case3 => cases h
  | case4 b others s rest hsection _ first hfirst ih =>
      cases hrest : sectionsManifest rest with
      | error e =>
          rw [hrest] at h
          cases h
      | ok last =>
          rw [hrest] at h
          obtain rfl := Except.ok.inj h
          obtain ⟨sections, hsections, htell⟩ := ih hrest
          refine ⟨s :: sections, ?_, .cons (tells_of_sectionManifest hfirst) htell⟩
          rw [sections?]
          split
          · rename_i hnone
            rw [hsection] at hnone
            cases hnone
          · rename_i hsome
            rw [hsection] at hsome
            cases hsome
            rw [hsections]
            rfl

/-- Whatever sections tell of imports, the host has functions of these names. -/
theorem AllTell.provided {sections : List Section} {m : Manifest} (h : AllTell sections m) :
    ∀ asked ∈ m.imports, isProvided asked.1 asked.2 = true := by
  induction h with
  | nil =>
      intro asked hasked
      cases hasked
  | cons hfirst _ ih =>
      intro asked hasked
      rcases List.mem_append.1 hasked with hasked | hasked
      · cases hfirst with
        | imports entries _ _ hprovided =>
            obtain ⟨e, he, rfl⟩ := List.mem_map.1 hasked
            exact hprovided e he
        | exports => cases hasked
        | nothing => cases hasked
      · exact ih asked hasked

/-- A binary that is inspected falls into sections behind its header, and they tell its names. -/
theorem allTell_of_inspect {bytes : ByteArray} {m : Manifest} (h : inspect bytes = .ok m) :
    ∃ sections, sections? (bytes.toList.drop headerBytes) = some sections ∧ AllTell sections m := by
  rw [inspect_eq] at h
  split at h
  · cases h
  · cases h
  · exact allTell_of_sectionsManifest h

/-- Whatever passes asks the host only for functions that it has. -/
theorem provided_of_inspect {bytes : ByteArray} {m : Manifest} (h : inspect bytes = .ok m) :
    ∀ asked ∈ m.imports, isProvided asked.1 asked.2 = true := by
  obtain ⟨_, _, htell⟩ := allTell_of_inspect h
  exact htell.provided

/-! ## Modules -/

namespace Module

/-- The names in a module. -/
def manifest (m : Module) : Manifest := ⟨importNames m.imports, m.exports.map ExportEntry.name⟩

/-- A section that is neither of imports nor of exports leaves the names. -/
theorem manifest_of_other {m m' : Module} {s : Section} (h : m.addSection s = some m')
    (himports : s.id ≠ 2) (hexports : s.id ≠ 7) : m'.manifest = m.manifest := by
  have hid : ∀ n : UInt8, s.id ≠ n → s.id.toNat ≠ n.toNat := by
    intro n hne heq
    exact hne (UInt8.toNat_inj.1 heq)
  have h2 := hid 2 himports
  have h7 := hid 7 hexports
  unfold addSection at h
  split at h
  case h_2 hsection => exact absurd hsection h2
  case h_7 hsection => exact absurd hsection h7
  case h_9 =>
    -- code is read in two steps
    simp only [Option.bind_eq_bind, Option.bind_eq_some_iff] at h
    obtain ⟨_, _, _, _, hsome⟩ := h
    obtain rfl := Option.some.inj hsome
    rfl
  case h_13 => cases h
  all_goals
    obtain ⟨_, _, rfl⟩ := Option.map_eq_some_iff.1 h
    rfl

/-- A section of imports, in a module without any, gives it theirs. -/
theorem manifest_of_imports {m m' : Module} {s : Section} {entries : List ImportEntry}
    (h : m.addSection s = some m') (hid : s.id = 2)
    (hitems : allItems importEntry s.content = some entries) (hfree : m.manifest.imports = []) :
    m'.manifest = m.manifest ++ ⟨importNames entries, []⟩ := by
  have hadd : m.addSection s = some { m with imports := entries } := by
    rw [addSection, hid]
    show (allItems importEntry s.content).map _ = _
    rw [hitems]
    rfl
  obtain rfl := Option.some.inj (hadd.symm.trans h)
  show (⟨importNames entries, m.exports.map ExportEntry.name⟩ : Manifest) =
    ⟨m.manifest.imports ++ importNames entries, m.exports.map ExportEntry.name ++ []⟩
  rw [hfree, List.append_nil]
  rfl

/-- A section of exports, in a module without any, gives it theirs. -/
theorem manifest_of_exports {m m' : Module} {s : Section} {entries : List ExportEntry}
    (h : m.addSection s = some m') (hid : s.id = 7)
    (hitems : allItems exportEntry s.content = some entries) (hfree : m.manifest.exports = []) :
    m'.manifest = m.manifest ++ ⟨[], entries.map ExportEntry.name⟩ := by
  have hadd : m.addSection s = some { m with exports := entries } := by
    rw [addSection, hid]
    show (allItems exportEntry s.content).map _ = _
    rw [hitems]
    rfl
  obtain rfl := Option.some.inj (hadd.symm.trans h)
  show (⟨importNames m.imports, entries.map ExportEntry.name⟩ : Manifest) =
    ⟨importNames m.imports ++ [], m.manifest.exports ++ entries.map ExportEntry.name⟩
  rw [hfree, List.append_nil]
  rfl

/-- Up to a place in the order of sections, a module has none of the names that come later. -/
structure Fresh (next : Nat) (m : Module) : Prop where
  imports : next ≤ 1 → m.manifest.imports = []
  exports : next ≤ 7 → m.manifest.exports = []

/-- Sections of one kind have one place. -/
theorem place_eq {s : Section} {id : UInt8} {place known : Nat} (hplace : order? s.id = some place)
    (hid : s.id = id) (hknown : order? id = some known) : place = known := by
  rw [hid, hknown] at hplace
  exact (Option.some.inj hplace).symm

/-- One section more, at its place, is one part of the names more. -/
theorem manifest_of_section {next place : Nat} {m m' : Module} {s : Section} {told : Manifest}
    (h : m.addSection s = some m') (hplace : order? s.id = some place) (hnext : next ≤ place)
    (hfresh : Fresh next m) (htells : Tells s told) : m'.manifest = m.manifest ++ told := by
  cases htells with
  | imports entries hid hitems _ =>
      have hsecond : place = 1 := place_eq hplace hid (by decide)
      exact manifest_of_imports h hid hitems (hfresh.imports (hsecond ▸ hnext))
  | exports entries hid hitems =>
      have heighth : place = 7 := place_eq hplace hid (by decide)
      exact manifest_of_exports h hid hitems (hfresh.exports (heighth ▸ hnext))
  | nothing himports hexports =>
      rw [Manifest.append_empty]
      exact manifest_of_other h himports hexports

/-- The names that are told at a place are free for none that comes later. -/
theorem Fresh.of_section {next place : Nat} {m m' : Module} {s : Section} {told : Manifest}
    (hplace : order? s.id = some place) (hnext : next ≤ place) (hfresh : Fresh next m)
    (htells : Tells s told) (hmanifest : m'.manifest = m.manifest ++ told) :
    Fresh (place + 1) m' where
  imports := by
    intro hle
    have hbefore : m.manifest.imports = [] := hfresh.imports (by omega)
    have htold : told.imports = [] := by
      cases htells with
      | imports entries hid _ _ =>
          have hsecond : place = 1 := place_eq hplace hid (by decide)
          omega
      | exports => rfl
      | nothing => rfl
    rw [hmanifest]
    show m.manifest.imports ++ told.imports = []
    rw [hbefore, htold]
    rfl
  exports := by
    intro hle
    have hbefore : m.manifest.exports = [] := hfresh.exports (by omega)
    have htold : told.exports = [] := by
      cases htells with
      | imports => rfl
      | exports entries hid _ =>
          have heighth : place = 7 := place_eq hplace hid (by decide)
          omega
      | nothing => rfl
    rw [hmanifest]
    show m.manifest.exports ++ told.exports = []
    rw [hbefore, htold]
    rfl

/-- A module of sections has the names that they tell. The induction is on the sections; it carries
that names which have their place later are still free. -/
theorem manifest_of_sections {sections : List Section} {next : Nat} {m m' : Module}
    {told : Manifest} (h : addSections next m sections = some m') (hfresh : Fresh next m)
    (htell : AllTell sections told) : m'.manifest = m.manifest ++ told := by
  induction htell generalizing next m with
  | nil =>
      obtain rfl := Option.some.inj h
      exact (Manifest.append_empty m.manifest).symm
  | @cons s rest first others hfirst _ ih =>
      rw [addSections] at h
      split at h
      · rename_i hid
        split at h
        · -- a section of its own kind tells nothing
          have htold : first = .empty := by
            cases hfirst with
            | imports _ h2 => exact absurd (hid.symm.trans h2) (by decide)
            | exports _ h7 => exact absurd (hid.symm.trans h7) (by decide)
            | nothing => rfl
          rw [htold, Manifest.empty_append]
          exact ih h hfresh
        · cases h
      · simp only [Option.bind_eq_bind, Option.bind_eq_some_iff] at h
        obtain ⟨place, hplace, h⟩ := h
        split at h
        · -- sections come in order, so that what this one tells of was told by none before it
          rename_i hnext
          simp only [Option.bind_eq_some_iff] at h
          obtain ⟨added, hadd, hrest⟩ := h
          have hmanifest := manifest_of_section hadd hplace hnext hfresh hfirst
          have hstill := Fresh.of_section hplace hnext hfresh hfirst hmanifest
          rw [ih hrest hstill, hmanifest, Manifest.append_assoc]
        · cases h

/-- The module that sections make up has the names that they tell. -/
theorem manifest_of_ofSections? {sections : List Section} {m : Module} {told : Manifest}
    (h : ofSections? sections = some m) (htell : AllTell sections told) : m.manifest = told := by
  simp only [ofSections?, Option.bind_eq_bind, Option.bind_eq_some_iff] at h
  obtain ⟨added, hadd, hvalid⟩ := h
  split at hvalid
  · obtain rfl := Option.some.inj hvalid
    exact manifest_of_sections hadd ⟨fun _ => rfl, fun _ => rfl⟩ htell
  · cases hvalid

end Module

end Binary

/-! ## Engines -/

namespace Guest

/-- The names of what a guest imports and exports. -/
def manifest {σ : Type} (g : Guest σ) : Binary.Manifest :=
  ⟨g.imports.map fun i => (i.module, i.name), g.exports.map Prod.fst⟩

end Guest

namespace Engine

/-- Of a binary that inspection lets pass, an engine makes a guest with the names that were
inspected. -/
def ReadsNames {σ : Type} (engine : Engine σ) (bytes : ByteArray) : Prop :=
  ∀ guest told, engine bytes = some guest → Binary.inspect bytes = .ok told → guest.manifest = told

theorem manifest_ofModule (m : Binary.Module) : (ofModule m).manifest = m.manifest := by
  simp only [Guest.manifest, ofModule, Guest.within, Binary.Module.guest, Binary.Module.manifest,
    Binary.importNames, List.map_map]
  rfl

/-- A plain module has the names that were inspected. -/
theorem readsNames_standard {bytes : ByteArray}
    (hplain : ∀ sections, Binary.sections? (bytes.toList.drop Binary.headerBytes) = some sections →
      sections.findSome? scriptIn? = none) : standard.ReadsNames bytes := by
  intro guest told hguest hinspect
  obtain ⟨sections, hsections, htell⟩ := Binary.allTell_of_inspect hinspect
  unfold standard at hguest
  split at hguest
  · simp only [hsections, Option.bind_some, ofSections?, hplain sections hsections,
      Option.map_eq_some_iff] at hguest
    obtain ⟨m, hm, rfl⟩ := hguest
    rw [manifest_ofModule, Binary.Module.manifest_of_ofSections? hm htell]
  · cases hguest

end Engine

end CompilerHost
