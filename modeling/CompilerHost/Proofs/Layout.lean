import CompilerHost.Proofs.Ways
import Mathlib.Data.List.Sublists

/-! # Laying files out

Where some paths fit together, there is a file system in which all of them can be files: it has the
directories on their ways, and nothing else that they do not ask for.

* `FileSystem.Standing`: a file system in which everything lies in a directory;
* `FileSystem.onWay_of_prefix`: above a place on the way are places on the way, or the working
  directory is below them;
* `FileSystem.node?_laidOut_of_ground`, `FileSystem.node?_laidOut_of_not_ground`: what stands where
  in the file system that is laid out for some paths;
* `FileSystem.ready_laidOut`, `FileSystem.hasFile_laidOut`, `FileSystem.standing_laidOut`: the ways
  to its files are open, and everything lies in a directory.
-/

namespace CompilerHost

namespace FileSystem

variable {fs : FileSystem} {path : String} {home place : List String} {paths stored : List String}
  {content : ByteArray}

/-! ## Trees -/

/-- All names are proper, everything lies in a directory, and the working directory is one. -/
structure Standing (fs : FileSystem) : Prop where
  proper : ∀ place, fs.node? place ≠ none → ∀ name ∈ place, IsProper name
  home : fs.node? fs.workingDirectory = some .directory
  inside : ∀ place name, fs.node? (place ++ [name]) ≠ none → fs.node? place = some .directory

/-- The induction is on the names of the place, from the last on. -/
theorem Standing.grounded_of_directory (h : fs.Standing)
    (hplace : fs.node? place = some .directory) : fs.Grounded place := by
  induction place using List.reverseRecOn with
  | nil => exact fs.grounded_nil
  | append_singleton place name ih =>
      have habove := h.inside place name (by rw [hplace]; exact nofun)
      exact (ih habove).concat hplace

theorem Standing.grounded (h : fs.Standing) : fs.Grounded fs.workingDirectory :=
  h.grounded_of_directory h.home

theorem Standing.proper_home (h : fs.Standing) : ∀ name ∈ fs.workingDirectory, IsProper name :=
  h.proper fs.workingDirectory (by rw [h.home]; exact nofun)

/-! ## Names on ways -/

/-- What a path is cut into is made of its characters. -/
theorem subset_unsegments {s : List Char} {segs : List (List Char)} (h : s ∈ segs) :
    s ⊆ Path.unsegments segs := by
  induction segs with
  | nil => cases h
  | cons first segs ih =>
      cases segs with
      | nil =>
          obtain rfl := List.mem_singleton.1 h
          exact List.Subset.refl _
      | cons second segs =>
          rcases List.mem_cons.1 h with rfl | h
          · exact List.subset_append_left _ _
          · intro c hc
            exact List.mem_append_right _ (List.mem_cons_of_mem _ (ih h hc))

/-- The names on a path are proper, but for those that lead nowhere or up. -/
theorem NamesFile.proper (h : NamesFile path) {name : String} (hname : name ∈ FileSystem.names path)
    (hhere : name ≠ ".") (hup : name ≠ "..") : IsProper name := by
  have hshort := h.names name hname
  obtain ⟨s, hs, rfl⟩ := List.mem_map.1 hname
  obtain ⟨hmem, hsome⟩ := List.mem_filter.1 hs
  refine ⟨⟨hhere, hup, Nat.not_lt.2 hshort⟩, ?_, ?_, ?_⟩
  · intro hempty
    rw [← String.toList_eq_nil_iff, String.toList_ofList] at hempty
    simp [hempty] at hsome
  · rw [String.toList_ofList]
    exact Path.notMem_of_mem_segments hmem
  · intro hzero
    rw [String.toList_ofList] at hzero
    have hpath := subset_unsegments hmem hzero
    rw [Path.unsegments_segments] at hpath
    exact List.any_eq_false.1 h.noZero _ hpath (decide_eq_true rfl)

/-- Proper names lead by places with proper names. -/
theorem proper_placeFrom {names : List String} (hplace : ∀ name ∈ place, IsProper name)
    (hnames : ∀ name ∈ names, name ≠ "." → name ≠ ".." → IsProper name) :
    ∀ name ∈ placeFrom place names, IsProper name := by
  induction names generalizing place with
  | nil => exact hplace
  | cons first rest ih =>
      rw [List.forall_mem_cons] at hnames
      by_cases hhere : first = "."
      · rw [hhere, placeFrom_here]
        exact ih hplace hnames.2
      · by_cases hup : first = ".."
        · rw [hup, placeFrom_up]
          exact ih (fun name hname => hplace name (List.dropLast_subset _ hname)) hnames.2
        · rw [placeFrom_down hhere hup]
          refine ih ?_ hnames.2
          intro name hname
          rcases List.mem_append.1 hname with hname | hname
          · exact hplace name hname
          · obtain rfl := List.mem_singleton.1 hname
            exact hnames.1 hhere hup

/-! ## Places above a way -/

/-- Above where names lead from a place is a place that they lead by, or one above the first. -/
theorem placeFrom_of_prefix {names upper : List String} (h : upper <+: placeFrom place names) :
    upper <+: place ∨ ∃ front, front <+: names ∧ upper = placeFrom place front := by
  induction names generalizing place with
  | nil => exact .inl h
  | cons name rest ih =>
      have hmore : ∀ {start : List String},
          (∃ front, front <+: rest ∧ upper = placeFrom start front) →
          (∀ front, placeFrom place (name :: front) = placeFrom start front) →
          ∃ front, front <+: name :: rest ∧ upper = placeFrom place front := by
        rintro start ⟨front, hfront, hupper⟩ hsame
        refine ⟨name :: front, List.cons_prefix_cons.2 ⟨rfl, hfront⟩, ?_⟩
        exact hupper.trans (hsame front).symm
      by_cases hhere : name = "."
      · subst hhere
        rcases ih h with habove | hby
        · exact .inl habove
        · exact .inr (hmore hby (placeFrom_here place))
      · by_cases hup : name = ".."
        · subst hup
          rw [placeFrom_up] at h
          rcases ih h with habove | hby
          · exact .inl (habove.trans (List.dropLast_prefix place))
          · exact .inr (hmore hby (placeFrom_up place))
        · rw [placeFrom_down hhere hup] at h
          rcases ih h with habove | hby
          · -- the name itself leads by a place of its own
            rcases List.prefix_concat_iff.1 habove with hsame | habove
            · refine .inr ⟨[name], List.cons_prefix_cons.2 ⟨rfl, List.nil_prefix⟩, ?_⟩
              rw [hsame, placeFrom_down hhere hup, placeFrom]
            · exact .inl habove
          · exact .inr (hmore hby (placeFrom_down hhere hup place))

theorem onWay_of_prefix {upper : List String} (h : OnWay path home place)
    (hupper : upper <+: place) : OnWay path home upper ∨ upper <+: home := by
  obtain ⟨front, hfront, rfl⟩ := h
  rcases placeFrom_of_prefix hupper with habove | ⟨first, hfirst, rfl⟩
  · split at habove
    · -- above the root is the root, where the path starts
      rw [List.prefix_nil.1 habove]
      exact .inr List.nil_prefix
    · exact .inr habove
  · exact .inl ⟨first, hfirst.trans hfront, rfl⟩

/-- A file lies in the last directory on the way to it. -/
theorem onWay_of_placeIn {name : String} (hname : NamesFile path)
    (h : placeIn home path = place ++ [name]) : OnWay path home place := by
  obtain ⟨last, hlast, hdown⟩ := hname.last
  refine ⟨(FileSystem.names path).dropLast, List.prefix_refl _, ?_⟩
  have hnames : FileSystem.names path = (FileSystem.names path).dropLast ++ [last] :=
    (List.dropLast_append_getLast? last hlast).symm
  rw [placeIn, hnames, placeFrom_append, placeFrom_down hdown.notHere hdown.notUp, placeFrom] at h
  exact (List.append_inj_left' h rfl).symm

/-! ## The file system for some paths -/

/-- The places that a path comes by before its last name. -/
def wayTo (home : List String) (path : String) : List (List String) :=
  (names path).dropLast.inits.map (placeFrom (if Path.isAbsolute path then [] else home))

theorem mem_wayTo_iff : place ∈ wayTo home path ↔ OnWay path home place := by
  unfold wayTo OnWay
  simp only [List.mem_map, List.mem_inits]
  constructor
  · rintro ⟨front, hfront, rfl⟩
    exact ⟨front, hfront, rfl⟩
  · rintro ⟨front, hfront, rfl⟩
    exact ⟨front, hfront, rfl⟩

instance (path : String) (home place : List String) : Decidable (OnWay path home place) :=
  decidable_of_iff _ mem_wayTo_iff

instance (home paths : List String) : Decidable (Fits home paths) :=
  decidable_of_iff
    ((∀ name ∈ home, IsProper name) ∧ (∀ p ∈ paths, NamesFile p) ∧
      (∀ p ∈ paths, ∀ q ∈ paths, ¬OnWay q home (placeIn home p)) ∧
      ∀ p ∈ paths, ¬placeIn home p <+: home)
    ⟨fun h => ⟨h.1, h.2.1, h.2.2.1, h.2.2.2⟩, fun h => ⟨h.proper, h.names, h.apart, h.home⟩⟩

example : Fits ["home"] ["tcc.wasm", "out/a.out", "/out/elf.txt", "../home/tcc.wasm"] := by
  decide +kernel

example : ¬Fits ["home"] ["tcc.wasm", "tcc.wasm/a.out"] := by decide +kernel

/-- The directories that some paths need, and the working directory with those above it. -/
def grounds (home : List String) (paths : List String) : List (List String) :=
  home.inits ++ paths.flatMap (wayTo home)

theorem mem_grounds_iff :
    place ∈ grounds home paths ↔ place <+: home ∨ ∃ p ∈ paths, OnWay p home place := by
  simp only [grounds, List.mem_append, List.mem_inits, List.mem_flatMap, mem_wayTo_iff]

theorem mem_grounds_of_prefix {upper : List String} (h : place ∈ grounds home paths)
    (hupper : upper <+: place) : upper ∈ grounds home paths := by
  rw [mem_grounds_iff] at h ⊢
  rcases h with hhome | ⟨p, hp, hway⟩
  · exact .inl (hupper.trans hhome)
  · rcases onWay_of_prefix hway hupper with hway | hhome
    · exact .inr ⟨p, hp, hway⟩
    · exact .inl hhome

/-- The directories that some paths need, and the same content in the files of those that are
stored. -/
def laidOut (home : List String) (paths stored : List String) (content : ByteArray) :
    FileSystem where
  nodes := (grounds home paths).map (·, .directory) ++
    stored.map fun p => (placeIn home p, .file content)
  workingDirectory := home

/-- Where all values are one, to look a key up is to ask whether it is there. -/
theorem lookup_map_const {α κ ν : Type} [BEq κ] [LawfulBEq κ] (items : List α) (key : α → κ)
    (value : ν) (k : κ) :
    (items.map fun a => (key a, value)).lookup k =
      if k ∈ items.map key then some value else none := by
  induction items with
  | nil => rfl
  | cons b items ih =>
      rw [List.map_cons, List.lookup_cons, ih, List.map_cons]
      by_cases hb : k = key b
      · rw [hb, BEq.rfl, if_pos List.mem_cons_self]
      · have hmem : k ∈ key b :: items.map key ↔ k ∈ items.map key := by
          rw [List.mem_cons, or_iff_right hb]
        rw [beq_eq_false_iff_ne.2 hb]
        simp only [hmem]

theorem node?_laidOut_of_ground (h : place ∈ grounds home paths) :
    (laidOut home paths stored content).node? place = some .directory := by
  have hfound := lookup_map_const (grounds home paths) (fun place => place) Node.directory place
  rw [if_pos (by simpa using h)] at hfound
  rw [node?]
  split
  · rfl
  · rw [laidOut, List.lookup_append, hfound]
    rfl

theorem node?_laidOut_of_not_ground (h : place ∉ grounds home paths) :
    (laidOut home paths stored content).node? place =
      if place ∈ stored.map (placeIn home) then some (.file content) else none := by
  have hnone := lookup_map_const (grounds home paths) (fun place => place) Node.directory place
  rw [if_neg (by simpa using h)] at hnone
  have hroot : place ≠ [] := by
    rintro rfl
    exact h (mem_grounds_iff.2 (.inl List.nil_prefix))
  rw [node?, if_neg hroot, laidOut, List.lookup_append, hnone, Option.none_or,
    lookup_map_const]

/-! ## What it is good for -/

section Fitting

variable (h : Fits home paths)

include h

/-- No file is to stand where a directory is needed. -/
theorem Fits.notMem_grounds (hpath : path ∈ paths) : placeIn home path ∉ grounds home paths := by
  rw [mem_grounds_iff]
  rintro (hhome | ⟨q, hq, hway⟩)
  · exact h.home path hpath hhome
  · exact h.apart path hpath q hq hway

/-- All ways are open. -/
theorem ready_laidOut (hpath : path ∈ paths) : (laidOut home paths stored content).Ready path where
  way := fun place hplace =>
    node?_laidOut_of_ground (mem_grounds_iff.2 (.inr ⟨path, hpath, hplace⟩))
  free := by
    show (laidOut home paths stored content).node? (placeIn home path) ≠ _
    rw [node?_laidOut_of_not_ground (h.notMem_grounds hpath)]
    split
    · exact nofun
    · exact nofun

/-- What is stored is there. -/
theorem hasFile_laidOut (hpath : path ∈ paths) (hstored : path ∈ stored) :
    (laidOut home paths stored content).HasFile path content := by
  refine (ready_laidOut h hpath).hasFile (h.names path hpath) ?_
  show (laidOut home paths stored content).node? (placeIn home path) = _
  rw [node?_laidOut_of_not_ground (h.notMem_grounds hpath),
    if_pos (List.mem_map_of_mem hstored)]

/-- Wherever a part of a path leads, the names are proper. -/
theorem Fits.proper_placeFrom (hpath : path ∈ paths) {front : List String}
    (hfront : front ⊆ FileSystem.names path) :
    ∀ name ∈ placeFrom (if Path.isAbsolute path then [] else home) front, IsProper name := by
  refine FileSystem.proper_placeFrom ?_ fun name hname => (h.names path hpath).proper (hfront hname)
  split
  · exact nofun
  · exact h.proper

theorem standing_laidOut (hstored : stored ⊆ paths) :
    (laidOut home paths stored content).Standing where
  proper := by
    intro place hnode
    by_cases hground : place ∈ grounds home paths
    · rcases mem_grounds_iff.1 hground with hhome | ⟨p, hp, front, hfront, rfl⟩
      · exact fun name hname => h.proper name (hhome.subset hname)
      · exact h.proper_placeFrom hp (List.Subset.trans hfront.subset (List.dropLast_subset _))
    · rw [node?_laidOut_of_not_ground hground] at hnode
      split at hnode
      · rename_i hfile
        obtain ⟨p, hp, rfl⟩ := List.mem_map.1 hfile
        exact h.proper_placeFrom (hstored hp) (List.Subset.refl _)
      · exact absurd rfl hnode
  home := node?_laidOut_of_ground (mem_grounds_iff.2 (.inl (List.prefix_refl home)))
  inside := by
    intro place name hnode
    refine node?_laidOut_of_ground ?_
    by_cases hground : place ++ [name] ∈ grounds home paths
    · exact mem_grounds_of_prefix hground (List.prefix_append place [name])
    · -- what stands there can only be a file, which lies in the last directory on its way
      rw [node?_laidOut_of_not_ground hground] at hnode
      split at hnode
      · rename_i hfile
        obtain ⟨p, hp, hplace⟩ := List.mem_map.1 hfile
        have hpath := hstored hp
        exact mem_grounds_iff.2 (.inr ⟨p, hpath, onWay_of_placeIn (h.names p hpath) hplace⟩)
      · exact absurd rfl hnode

end Fitting

end FileSystem

end CompilerHost
