import CompilerHost.Proofs.CommandLine
import CompilerHost.Proofs.Paths
import Mathlib.Data.List.Forall2
import Mathlib.Data.List.TakeWhile

/-! # Paths of configurations

The paths of a configuration file are seen from the directory that the file is in. Of a file at an
absolute path, that directory is absolute as well, and so is what is seen from it. An empty path is
not seen from anywhere.

* `Path.parent_of_readText`: a file that can be read is in a directory;
* `Config.paths_of_loadValid`: what becomes of each path, and when all of them are absolute.
-/

namespace CompilerHost

namespace FileSystem

/-- Names that lead nowhere lead to where they start. -/
theorem walk_of_here (fs : FileSystem) {place names : List String}
    (h : ∀ name ∈ names, name = ".") :
    fs.walk place names = .ok (.directory place) := by
  induction names with
  | nil => rfl
  | cons name names ih =>
      rw [walk, if_pos (h name List.mem_cons_self)]
      exact ih fun other hother => h other (List.mem_cons_of_mem name hother)

end FileSystem

namespace Path

/-- A path that is absolute and has no parent has no names that lead anywhere. -/
theorem here_of_no_parent {path : String} (habsolute : isAbsolute path = true)
    (h : parent? path = none) : ∀ name ∈ FileSystem.names path, name = "." := by
  obtain ⟨rest, hrest⟩ := List.head?_eq_some_iff.1 (of_decide_eq_true habsolute)
  have htrivial : dropTrivialEnd (segments rest) = [] := by
    unfold parent? at h
    rw [hrest] at h
    simp only [anchor] at h
    split at h
    · assumption
    · cases h
  have hall : ∀ s ∈ segments rest, isTrivial s = true := by
    have hreverse := List.dropWhile_eq_nil_iff.1 (List.reverse_eq_nil_iff.1 htrivial)
    intro s hs
    exact hreverse s (List.mem_reverse.2 hs)
  intro name hname
  rw [names_eq, hrest] at hname
  obtain ⟨s, hs, rfl⟩ := List.mem_map.1 hname
  obtain ⟨hmem, hne⟩ := List.mem_filter.1 hs
  rw [segments_slash, List.mem_cons] at hmem
  rcases hmem with rfl | hmem
  · simp at hne
  · have hdot := hall s hmem
    simp only [isTrivial, Bool.or_eq_true, decide_eq_true_eq] at hdot hne
    rcases hdot with rfl | rfl
    · exact absurd rfl hne
    · rfl

/-- A file that can be read has a parent: there are no files but in directories. -/
theorem parent_of_readText {fs : FileSystem} {path text : String}
    (habsolute : isAbsolute path = true) (h : fs.readText path = .ok text) :
    ∃ base, parent? path = some base ∧ isAbsolute base = true := by
  cases hparent : parent? path with
  | some base => exact ⟨base, rfl, (above_of_parent hparent).1.trans habsolute⟩
  | none =>
      have hnames := here_of_no_parent habsolute hparent
      cases hresolve : fs.resolve path with
      | error e =>
          rw [FileSystem.readText, FileSystem.read, hresolve] at h
          cases h
      | ok d =>
          have hwalk := FileSystem.walk_of_leads (FileSystem.leads_of_resolve hresolve)
          rw [fs.walk_of_here hnames] at hwalk
          obtain rfl := Except.ok.inj hwalk
          rw [FileSystem.readText, FileSystem.read, hresolve] at h
          cases h

end Path

/-! ## Paths of configurations -/

namespace Config

/-- The paths of a configuration. -/
def paths (c : Config) : List String :=
  c.module :: (c.image.toList ++ c.directory :: c.mirror.toList)

/-- What becomes of a path that is seen from a base. -/
inductive SeenFrom (base : String) : String → String → Prop where
  /-- An empty path stays empty. -/
  | empty : SeenFrom base "" ""
  /-- An absolute path stays as it is. -/
  | absolute {path : String} (habsolute : Path.isAbsolute path = true) : SeenFrom base path path
  /-- Any other path becomes absolute, and leads where it leads from the base. -/
  | under {written path : String} (hne : written ≠ "")
      (hrelative : Path.isAbsolute written = false) (habsolute : Path.isAbsolute path = true)
      (hplace : ∀ fs : FileSystem,
        fs.placeOf path = FileSystem.placeFrom (fs.placeOf base) (FileSystem.names written)) :
      SeenFrom base written path

theorem seenFrom_resolvePath {base : String} (hbase : Path.isAbsolute base = true)
    (written : String) : SeenFrom base written (resolvePath base written) := by
  by_cases hempty : written = ""
  · rw [hempty]
    exact .empty
  · rw [resolvePath, if_neg hempty]
    cases hwritten : Path.isAbsolute written with
    | true =>
        have hsame : Path.join base written = written := by rw [Path.join, if_pos hwritten]
        rw [hsame]
        exact .absolute hwritten
    | false =>
        have hstart := FileSystem.isAbsolute_join_of_relative base hwritten
        exact .under hempty hwritten (hstart.trans hbase)
          fun fs => FileSystem.placeOf_join_of_relative base fs hwritten

theorem SeenFrom.isAbsolute_iff {base written path : String} (h : SeenFrom base written path) :
    Path.isAbsolute path = true ↔ path ≠ "" := by
  cases h with
  | empty => exact iff_of_false (by decide) (fun hne => hne rfl)
  | absolute habsolute =>
      refine iff_of_true habsolute ?_
      rintro rfl
      cases habsolute
  | under _ _ habsolute _ =>
      refine iff_of_true habsolute ?_
      rintro rfl
      cases habsolute

theorem paths_resolvePaths (base : String) (c : Config) :
    (c.resolvePaths base).paths = c.paths.map (resolvePath base) := by
  simp only [paths, resolvePaths, List.map_cons, List.map_append, Option.toList_map]

/-- The module of a valid configuration is named. -/
theorem module_ne_empty {c : Config} (h : c.validate = .ok ()) : c.module ≠ "" := by
  intro hempty
  rw [validate, checkModule, if_pos hempty] at h
  cases h

theorem empty_notMem_paths_iff {c : Config} (hmodule : c.module ≠ "") :
    "" ∉ c.paths ↔ c.image ≠ some "" ∧ c.directory ≠ "" ∧ c.mirror ≠ some "" := by
  simp only [paths, List.mem_cons, List.mem_append, Option.mem_toList, not_or]
  exact ⟨fun h => ⟨h.2.1, Ne.symm h.2.2.1, h.2.2.2⟩,
    fun h => ⟨Ne.symm hmodule, h.1, Ne.symm h.2.1, h.2.2⟩⟩

/-- A configuration is what is written in its file, seen from the directory of that. -/
theorem written_of_load {fs : FileSystem} {path : String} {c : Config}
    (habsolute : Path.isAbsolute path = true) (h : load fs path = .ok c) :
    ∃ text written base, fs.readText path = .ok text ∧ parse? text = some written ∧
      Path.parent? path = some base ∧ Path.isAbsolute base = true ∧
      c = written.resolvePaths base := by
  cases htext : fs.readText path with
  | error e =>
      rw [load, htext] at h
      cases h
  | ok text =>
      obtain ⟨base, hparent, hbase⟩ := Path.parent_of_readText habsolute htext
      cases hparse : parse? text with
      | none =>
          simp only [load, htext, hparse] at h
          cases h
      | some written =>
          simp only [load, htext, hparse, hparent] at h
          exact ⟨text, written, base, rfl, hparse, hparent, hbase, (Except.ok.inj h).symm⟩

theorem exists_seenFrom {base : String} {written paths : List String}
    (h : List.Forall₂ (SeenFrom base) written paths) {path : String} (hpath : path ∈ paths) :
    ∃ p ∈ written, SeenFrom base p path := by
  induction h with
  | nil => cases hpath
  | cons hseen _ ih =>
      rcases List.mem_cons.1 hpath with rfl | hpath
      · exact ⟨_, List.mem_cons_self, hseen⟩
      · obtain ⟨p, hp, hseen⟩ := ih hpath
        exact ⟨p, List.mem_cons_of_mem _ hp, hseen⟩

/-- A configuration that is loaded from an absolute path has the paths that are written there, seen
from the directory of the file; all of them are absolute exactly if none is empty. -/
theorem paths_of_loadValid {fs : FileSystem} {path : String} {c : Config}
    (habsolute : Path.isAbsolute path = true) (h : loadValid fs path = .ok c) :
    ∃ text written base, fs.readText path = .ok text ∧ parse? text = some written ∧
      Path.parent? path = some base ∧ Path.isAbsolute base = true ∧
      List.Forall₂ (SeenFrom base) written.paths c.paths ∧
      c.module ≠ "" ∧
      ((∀ p ∈ c.paths, Path.isAbsolute p = true) ↔
        c.image ≠ some "" ∧ c.directory ≠ "" ∧ c.mirror ≠ some "") := by
  obtain ⟨hload, hvalid⟩ := loadValid_eq_ok_iff.1 h
  have hmodule := module_ne_empty hvalid
  obtain ⟨text, written, base, htext, hparse, hparent, hbase, hc⟩ := written_of_load habsolute hload
  have hseen : List.Forall₂ (SeenFrom base) written.paths c.paths := by
    rw [hc, paths_resolvePaths, List.forall₂_map_right_iff, List.forall₂_same]
    exact fun p _ => seenFrom_resolvePath hbase p
  refine ⟨text, written, base, htext, hparse, hparent, hbase, hseen, hmodule, ?_⟩
  rw [← empty_notMem_paths_iff hmodule]
  constructor
  · intro hall hmem
    cases hall "" hmem
  · intro hnone p hp
    obtain ⟨q, _, hq⟩ := exists_seenFrom hseen hp
    exact hq.isAbsolute_iff.2 fun hempty => hnone (hempty ▸ hp)

/-- A file system with one configuration file. -/
def configured (place : List String) (text : String) : FileSystem where
  nodes := [(["conf"], .directory), (place, .file text.toUTF8)]
  workingDirectory := ["conf"]

/-- A configuration with a path of each kind. -/
def mixedText : String :=
  "guest:\n  module: t.wasm\n  romfs: /r.bin\noutput:\n  directory: build\n  mirror: ''\n"

theorem paths_of_loadValid_mixed :
    Path.isAbsolute "/conf/c.yaml" = true ∧
      ∃ (c written : Config) (base : String),
        loadValid (configured ["conf", "c.yaml"] mixedText) "/conf/c.yaml" = .ok c ∧
        Path.parent? "/conf/c.yaml" = some base ∧
        c.paths = ["/conf/t.wasm", "/r.bin", "/conf/build", ""] ∧
        List.Forall₂ (SeenFrom base) written.paths c.paths ∧
        ¬(c.image ≠ some "" ∧ c.directory ≠ "" ∧ c.mirror ≠ some "") := by
  have habsolute : Path.isAbsolute "/conf/c.yaml" = true := by decide
  have hpaths : (loadValid (configured ["conf", "c.yaml"] mixedText) "/conf/c.yaml").toOption.map
      paths = some ["/conf/t.wasm", "/r.bin", "/conf/build", ""] := by decide +kernel
  cases hload : loadValid (configured ["conf", "c.yaml"] mixedText) "/conf/c.yaml" with
  | error cause =>
      rw [hload] at hpaths
      cases hpaths
  | ok c =>
      rw [hload] at hpaths
      have hc : c.paths = ["/conf/t.wasm", "/r.bin", "/conf/build", ""] := Option.some.inj hpaths
      obtain ⟨_, written, base, _, _, hparent, _, hseen, _, hiff⟩ :=
        paths_of_loadValid habsolute hload
      refine ⟨habsolute, c, written, base, rfl, hparent, hc, hseen, ?_⟩
      intro hnone
      have hall := hiff.2 hnone
      rw [hc] at hall
      cases hall "" (by decide)

/-- A configuration with an empty directory. -/
def adriftText : String := "guest:\n  module: t.wasm\noutput:\n  directory: ''\n"

/-- Its artifacts go wherever the program is run. -/
theorem not_absolute_adrift :
    ∃ c, loadValid (configured ["c.yaml"] adriftText) "/c.yaml" = .ok c ∧
      c.directory ∈ c.paths ∧ Path.isAbsolute c.directory = false ∧
      (configured ["c.yaml"] adriftText).placeOf (Sink.fileTarget c.directory c.filename) =
        ["conf", "a.out"] := by
  have hvalues : (loadValid (configured ["c.yaml"] adriftText) "/c.yaml").toOption.map
      (fun c => (c.directory, c.filename)) = some ("", "a.out") := by decide +kernel
  cases hload : loadValid (configured ["c.yaml"] adriftText) "/c.yaml" with
  | error cause =>
      rw [hload] at hvalues
      cases hvalues
  | ok c =>
      rw [hload] at hvalues
      obtain ⟨hdirectory, hfilename⟩ := Prod.mk.inj (Option.some.inj hvalues)
      refine ⟨c, rfl, by simp [paths], ?_⟩
      rw [hdirectory, hfilename]
      exact ⟨by decide, by decide +kernel⟩

end Config

end CompilerHost
