import CompilerHost.Proofs.Deposits
import Mathlib.Data.List.Infix

/-! # Ways to files

A file can be read or written where its path leads through directories, and not to one. Whether a
file system can have files at several paths at once is settled by the paths and by the working
directory: no file may stand where another path, or the working directory, needs a directory.

* `FileSystem.NamesFile`, `FileSystem.Fits`: the condition on paths;
* `FileSystem.Fits.of_hasFiles`: files that are there fit;
* `FileSystem.Ready`: the way to a path is open, so that a file can be put there, which
  `Deposit.deliver_of_ready` carries over to sinks.
-/

namespace CompilerHost

namespace FileSystem

variable {fs fs' : FileSystem} {path : String} {home : List String}

/-! ## The condition on paths -/

/-- Where a path leads, seen from a working directory. -/
def placeIn (home : List String) (path : String) : List String :=
  placeFrom (if Path.isAbsolute path then [] else home) (names path)

theorem placeOf_eq_placeIn (fs : FileSystem) (path : String) :
    fs.placeOf path = placeIn fs.workingDirectory path := rfl

/-- A name that something in a directory can have. -/
structure IsProper (name : String) : Prop extends IsName name where
  nonempty : name ≠ ""
  noSlash : '/' ∉ name.toList
  noZero : '\x00' ∉ name.toList

/-- A path that a file can have: it can be followed, and its last name is one of a file. -/
structure NamesFile (path : String) : Prop where
  noZero : path.toList.any (· = '\x00') = false
  short : path.utf8ByteSize ≤ maxPathBytes
  names : ∀ name ∈ names path, name.utf8ByteSize ≤ maxNameBytes
  last : ∃ name, (FileSystem.names path).getLast? = some name ∧ IsName name
  plain : endsInSlash path = false

instance (name : String) : Decidable (IsName name) :=
  decidable_of_iff (name ≠ "." ∧ name ≠ ".." ∧ ¬maxNameBytes < name.utf8ByteSize)
    ⟨fun ⟨hhere, hup, hshort⟩ => ⟨hhere, hup, hshort⟩,
      fun h => ⟨h.notHere, h.notUp, h.short⟩⟩

instance (name : String) : Decidable (IsProper name) :=
  decidable_of_iff (IsName name ∧ name ≠ "" ∧ '/' ∉ name.toList ∧ '\x00' ∉ name.toList)
    ⟨fun ⟨hname, hsome, hslash, hzero⟩ => ⟨hname, hsome, hslash, hzero⟩,
      fun h => ⟨h.toIsName, h.nonempty, h.noSlash, h.noZero⟩⟩

instance (path : String) : Decidable (NamesFile path) :=
  decidable_of_iff
    (path.toList.any (· = '\x00') = false ∧ path.utf8ByteSize ≤ maxPathBytes ∧
      (∀ name ∈ names path, name.utf8ByteSize ≤ maxNameBytes) ∧
      (∃ name ∈ (names path).getLast?, IsName name) ∧ endsInSlash path = false)
    ⟨fun ⟨hzero, hshort, hnames, hlast, hplain⟩ => ⟨hzero, hshort, hnames, hlast, hplain⟩,
      fun h => ⟨h.noZero, h.short, h.names, h.last, h.plain⟩⟩

/-- Whether all of some paths can be files', for those who are at home in a place: none of the files
stands on the way to another, or to that place. -/
structure Fits (home : List String) (paths : List String) : Prop where
  proper : ∀ name ∈ home, IsProper name
  names : ∀ p ∈ paths, NamesFile p
  apart : ∀ p ∈ paths, ∀ q ∈ paths, ¬OnWay q home (placeIn home p)
  home : ∀ p ∈ paths, ¬placeIn home p <+: home

/-! ## Walks among directories -/

theorem placeFrom_here (place rest : List String) :
    placeFrom place ("." :: rest) = placeFrom place rest := rfl

theorem placeFrom_up (place rest : List String) :
    placeFrom place (".." :: rest) = placeFrom place.dropLast rest := rfl

theorem placeFrom_down {name : String} (hhere : name ≠ ".") (hup : name ≠ "..")
    (place rest : List String) :
    placeFrom place (name :: rest) = placeFrom (place ++ [name]) rest := by
  rw [placeFrom, if_neg hhere, if_neg hup]

/-- All places from the root down to one are directories. -/
def Grounded (fs : FileSystem) (place : List String) : Prop :=
  ∀ upper, upper <+: place → fs.node? upper = some .directory

theorem Grounded.dropLast {place : List String} (h : fs.Grounded place) :
    fs.Grounded place.dropLast :=
  fun upper hupper => h upper (hupper.trans (List.dropLast_prefix place))

theorem Grounded.concat {place : List String} {name : String} (h : fs.Grounded place)
    (hnode : fs.node? (place ++ [name]) = some .directory) : fs.Grounded (place ++ [name]) := by
  intro upper hupper
  rcases List.prefix_concat_iff.1 hupper with rfl | hupper
  · exact hnode
  · exact h upper hupper

theorem grounded_nil (fs : FileSystem) : fs.Grounded [] := by
  intro upper hupper
  rw [List.prefix_nil.1 hupper]
  rfl

theorem grounded_origin (h : fs.Grounded fs.workingDirectory) (path : String) :
    fs.Grounded (fs.origin path) := by
  unfold origin
  split
  · exact fs.grounded_nil
  · exact h

theorem Grounded.of_keepsDirectories {place : List String} (h : fs.Grounded place)
    (hkeeps : fs'.KeepsDirectories fs) : fs'.Grounded place :=
  fun upper hupper => hkeeps.directory upper (h upper hupper)

theorem prefix_dropLast_cons {name first : String} {rest front : List String} :
    first :: front <+: (name :: rest).dropLast ↔
      first = name ∧ rest ≠ [] ∧ front <+: rest.dropLast := by
  cases rest with
  | nil =>
      constructor
      · intro h
        cases List.prefix_nil.1 h
      · rintro ⟨_, hrest, _⟩
        exact absurd rfl hrest
  | cons next rest =>
      rw [List.dropLast_cons_of_ne_nil (List.cons_ne_nil next rest), List.cons_prefix_cons]
      constructor
      · rintro ⟨hfirst, hfront⟩
        exact ⟨hfirst, List.cons_ne_nil _ _, hfront⟩
      · rintro ⟨hfirst, _, hfront⟩
        exact ⟨hfirst, hfront⟩

/-- A walk that starts among directories and comes to something free has come by directories. The
induction is on the walk, and all places above the one that it has come to are directories. -/
theorem Leads.directory_of_isFree {place names front : List String} {d : Destination}
    (h : Leads fs place names d) (hfree : d.IsFree) (hplace : fs.Grounded place)
    (hfront : front <+: names.dropLast) :
    fs.node? (placeFrom place front) = some .directory := by
  induction h generalizing front with
  | arrived place => exact absurd rfl hfree
  | here _ ih =>
      cases front with
      | nil => exact hplace _ (List.prefix_refl _)
      | cons first front =>
          obtain ⟨rfl, _, hfront⟩ := prefix_dropLast_cons.1 hfront
          rw [placeFrom_here]
          exact ih hfree hplace hfront
  | up _ ih =>
      cases front with
      | nil => exact hplace _ (List.prefix_refl _)
      | cons first front =>
          obtain ⟨rfl, _, hfront⟩ := prefix_dropLast_cons.1 hfront
          rw [placeFrom_up]
          exact ih hfree hplace.dropLast hfront
  | down hname hnode _ ih =>
      cases front with
      | nil => exact hplace _ (List.prefix_refl _)
      | cons first front =>
          obtain ⟨rfl, _, hfront⟩ := prefix_dropLast_cons.1 hfront
          rw [placeFrom_down hname.notHere hname.notUp]
          exact ih hfree (hplace.concat hnode) hfront
  | file _ _ | vacant _ _ =>
      -- there is no name before the last
      obtain rfl := List.prefix_nil.1 hfront
      exact hplace _ (List.prefix_refl _)

theorem Leads.short {place names : List String} {d : Destination} (h : Leads fs place names d) :
    ∀ name ∈ names, name.utf8ByteSize ≤ maxNameBytes := by
  induction h with
  | arrived place => exact nofun
  | here _ ih => exact List.forall_mem_cons.2 ⟨by decide, ih⟩
  | up _ ih => exact List.forall_mem_cons.2 ⟨by decide, ih⟩
  | down hname _ _ ih => exact List.forall_mem_cons.2 ⟨Nat.not_lt.1 hname.short, ih⟩
  | file hname _ | vacant hname _ =>
      exact List.forall_mem_singleton.2 (Nat.not_lt.1 hname.short)

/-- Where all places on the way are directories, and the last is none, the walk comes to something
free. The induction is on the names. -/
theorem exists_leads {place names : List String}
    (hway : ∀ front, front <+: names.dropLast →
      fs.node? (placeFrom place front) = some .directory)
    (hshort : ∀ name ∈ names, name.utf8ByteSize ≤ maxNameBytes)
    (hlast : ∃ name, names.getLast? = some name ∧ IsName name)
    (hnode : fs.node? (placeFrom place names) ≠ some .directory) :
    ∃ d, Leads fs place names d ∧ d.IsFree := by
  induction names generalizing place with
  | nil =>
      obtain ⟨name, hname, _⟩ := hlast
      cases hname
  | cons name rest ih =>
      rw [List.forall_mem_cons] at hshort
      by_cases hrest : rest = []
      · subst hrest
        obtain ⟨last, hname, hdown⟩ := hlast
        obtain rfl : name = last := Option.some.inj hname
        rw [placeFrom_down hdown.notHere hdown.notUp, placeFrom] at hnode
        cases hfound : fs.node? (place ++ [name]) with
        | none => exact ⟨_, .vacant hdown hfound, Destination.isFree_vacant _⟩
        | some node =>
            cases node with
            | directory => exact absurd hfound hnode
            | file content => exact ⟨_, .file hdown hfound, Destination.isFree_file _ _⟩
      · -- the way goes on behind the name, wherever that leads
        have hon : ∀ front, front <+: rest.dropLast →
            fs.node? (placeFrom place (name :: front)) = some .directory :=
          fun front hfront => hway _ (prefix_dropLast_cons.2 ⟨rfl, hrest, hfront⟩)
        have hend : ∃ last, rest.getLast? = some last ∧ IsName last := by
          rwa [List.getLast?_cons_of_ne_nil hrest] at hlast
        by_cases hhere : name = "."
        · subst hhere
          obtain ⟨d, hleads, hfree⟩ := ih hon hshort.2 hend hnode
          exact ⟨d, .here hleads, hfree⟩
        · by_cases hup : name = ".."
          · subst hup
            simp only [placeFrom_up] at hon hnode
            obtain ⟨d, hleads, hfree⟩ := ih hon hshort.2 hend hnode
            exact ⟨d, .up hleads, hfree⟩
          · have hdirectory := hon [] List.nil_prefix
            simp only [placeFrom_down hhere hup] at hon hdirectory hnode
            obtain ⟨d, hleads, hfree⟩ := ih hon hshort.2 hend hnode
            exact ⟨d, .down ⟨hhere, hup, Nat.not_lt.2 hshort.1⟩ hdirectory hleads, hfree⟩

/-- Where all places on the way are directories, the walk comes to one. -/
theorem leads_of_directories {place names : List String}
    (hway : ∀ front, front <+: names → fs.node? (placeFrom place front) = some .directory)
    (hshort : ∀ name ∈ names, name.utf8ByteSize ≤ maxNameBytes) :
    Leads fs place names (.directory (placeFrom place names)) := by
  induction names generalizing place with
  | nil => exact .arrived place
  | cons name rest ih =>
      rw [List.forall_mem_cons] at hshort
      have hon : ∀ front, front <+: rest →
          fs.node? (placeFrom place (name :: front)) = some .directory :=
        fun front hfront => hway _ (List.cons_prefix_cons.2 ⟨rfl, hfront⟩)
      by_cases hhere : name = "."
      · subst hhere
        exact .here (ih hon hshort.2)
      · by_cases hup : name = ".."
        · subst hup
          simp only [placeFrom_up] at hon ⊢
          exact .up (ih hon hshort.2)
        · have hdirectory := hon [] List.nil_prefix
          simp only [placeFrom_down hhere hup] at hon hdirectory ⊢
          exact .down ⟨hhere, hup, Nat.not_lt.2 hshort.1⟩ hdirectory (ih hon hshort.2)

/-! ## Files that are there -/

/-- What is looked at before a path is followed. -/
theorem usable_of_resolve {d : Destination} (h : fs.resolve path = .ok d) :
    path.toList.any (· = '\x00') = false ∧ path ≠ "" ∧ path.utf8ByteSize ≤ maxPathBytes := by
  unfold resolve follow at h
  split at h
  · cases h
  · rename_i hzero
    split at h
    · cases h
    · rename_i hempty
      split at h
      · cases h
      · rename_i hlong
        exact ⟨Bool.eq_false_iff.2 hzero, hempty, Nat.not_lt.1 hlong⟩

theorem resolve_of_leads {d : Destination} (hzero : path.toList.any (· = '\x00') = false)
    (hempty : path ≠ "") (hshort : path.utf8ByteSize ≤ maxPathBytes)
    (h : Leads fs (fs.origin path) (names path) d) : fs.resolve path = .ok d := by
  have hnone : ¬path.toList.any (· = '\x00') = true := by rw [hzero]; exact Bool.false_ne_true
  rw [resolve, follow, if_neg hnone, if_neg hempty, if_neg (Nat.not_lt.2 hshort)]
  exact walk_of_leads h

theorem HasFile.namesFile {content : ByteArray} (h : fs.HasFile path content) :
    NamesFile path := by
  obtain ⟨hzero, _, hshort⟩ := usable_of_resolve h.resolve
  have hleads := leads_of_resolve h.resolve
  obtain ⟨hlast, _, _⟩ := hleads.last_of_isFree (Destination.isFree_file _ _)
  exact ⟨hzero, hshort, hleads.short, hlast, h.plain⟩

/-- All places on the way to a file are directories. -/
theorem HasFile.way {content : ByteArray} (h : fs.HasFile path content)
    (hhome : fs.Grounded fs.workingDirectory) {place : List String}
    (hplace : OnWay path fs.workingDirectory place) : fs.node? place = some .directory := by
  obtain ⟨front, hfront, rfl⟩ := hplace
  exact (leads_of_resolve h.resolve).directory_of_isFree (Destination.isFree_file _ _)
    (grounded_origin hhome path) hfront

/-- Files that are there fit. -/
theorem Fits.of_hasFiles {paths : List String}
    (hproper : ∀ name ∈ fs.workingDirectory, IsProper name)
    (hhome : fs.Grounded fs.workingDirectory)
    (h : ∀ p ∈ paths, ∃ content, fs.HasFile p content) : Fits fs.workingDirectory paths := by
  -- a place with a file is none with a directory
  have hfile : ∀ p ∈ paths, fs.node? (placeIn fs.workingDirectory p) ≠ some .directory := by
    intro p hp hdirectory
    obtain ⟨content, hcontent⟩ := h p hp
    obtain ⟨_, hnode⟩ := node?_of_isFree hcontent.resolve (Destination.isFree_file _ _)
    rw [placeOf_eq_placeIn, hdirectory] at hnode
    cases hnode
  refine ⟨hproper, ?_, ?_, ?_⟩
  · intro p hp
    obtain ⟨content, hcontent⟩ := h p hp
    exact hcontent.namesFile
  · intro p hp q hq hway
    obtain ⟨content, hcontent⟩ := h q hq
    exact hfile p hp (hcontent.way hhome hway)
  · intro p hp hprefix
    exact hfile p hp (hhome _ hprefix)

/-! ## Ways that are open -/

/-- The way to a path goes through directories, and not to one. -/
structure Ready (fs : FileSystem) (path : String) : Prop where
  way : ∀ place, OnWay path fs.workingDirectory place → fs.node? place = some .directory
  free : fs.node? (fs.placeOf path) ≠ some .directory

theorem NamesFile.ne_empty (h : NamesFile path) : path ≠ "" := by
  rintro rfl
  obtain ⟨name, hname, _⟩ := h.last
  cases hname

section Ready

variable (hname : NamesFile path) (h : fs.Ready path)

include hname h

theorem Ready.resolve : ∃ d, fs.resolve path = .ok d ∧ d.IsFree := by
  have hway : ∀ front, front <+: (names path).dropLast →
      fs.node? (placeFrom (fs.origin path) front) = some .directory :=
    fun front hfront => h.way _ ⟨front, hfront, rfl⟩
  obtain ⟨d, hleads, hfree⟩ := exists_leads hway hname.names hname.last h.free
  exact ⟨d, resolve_of_leads hname.noZero hname.ne_empty hname.short hleads, hfree⟩

theorem Ready.write (content : ByteArray) :
    write path content fs = ⟨.ok (), fs.put (fs.placeOf path) (.file content), []⟩ := by
  obtain ⟨d, hresolve, hfree⟩ := h.resolve hname
  have hplace := place_of_resolve hresolve
  have htarget : fs.resolveToWrite path = .ok d := by
    rw [resolveToWrite, namesDirectory, hname.plain]
    exact hresolve
  rw [FileSystem.write, Action.get_bind_apply, htarget, ← hplace]
  cases d with
  | directory place => exact absurd rfl hfree
  | file place old => rfl
  | vacant place => rfl

theorem Ready.hasFile {content : ByteArray}
    (hnode : fs.node? (fs.placeOf path) = some (.file content)) : fs.HasFile path content := by
  obtain ⟨d, hresolve, hfree⟩ := h.resolve hname
  exact hasFile_of_put hresolve hfree hname.plain ⟨rfl, fun _ hdirectory => hdirectory⟩ hnode

/-- A path above, as far as it is written like the one that it is above, leads to a directory. -/
theorem Ready.resolve_above {upper : String} (hchars : upper.toList <+: path.toList)
    (hempty : upper ≠ "") (hstart : Path.isAbsolute upper = Path.isAbsolute path)
    (hway : names upper <+: (names path).dropLast) :
    fs.resolve upper = .ok (.directory (fs.placeOf upper)) := by
  obtain ⟨rest, hrest⟩ := hchars
  refine resolve_of_leads ?_ hempty ?_ ?_
  · have hzero := hname.noZero
    rw [← hrest, List.any_append, Bool.or_eq_false_iff] at hzero
    exact hzero.1
  · have hsize : path = upper ++ String.ofList rest := by
      rw [← String.toList_inj, String.toList_append, String.toList_ofList, hrest]
    have hshort := hname.short
    rw [hsize, String.utf8ByteSize_append] at hshort
    omega
  · refine leads_of_directories ?_ ?_
    · intro front hfront
      refine h.way _ ⟨front, hfront.trans hway, ?_⟩
      rw [origin, hstart]
    · intro name hmem
      exact hname.names name (List.dropLast_subset _ (hway.subset hmem))

end Ready

/-- A file that is put where no directory stands is in nobody's way. -/
theorem Ready.put {other : String} (h : fs.Ready path)
    (hother : fs.node? (fs.placeOf other) ≠ some .directory) (content : ByteArray) :
    (fs.put (fs.placeOf other) (.file content)).Ready path where
  way := by
    intro place hplace
    exact (keepsDirectories_put content hother).directory place (h.way place hplace)
  free := by
    have hroot : fs.placeOf other ≠ [] := by
      intro hroot
      rw [hroot] at hother
      exact hother rfl
    show (fs.put (fs.placeOf other) (.file content)).node? (fs.placeOf path) ≠ some .directory
    by_cases hsame : fs.placeOf path = fs.placeOf other
    · rw [hsame, node?_put_self fs _ hroot]
      exact nofun
    · rw [node?_put_other fs _ hsame]
      exact h.free

/-- A directory that is there need not be made. -/
theorem makeDirectories_of_directory {place : List String} (hempty : path ≠ "")
    (h : fs.resolve path = .ok (.directory place)) :
    makeDirectories path fs = ⟨.ok (), fs, []⟩ := by
  have hmake : makeDirectory path fs = ⟨.error .alreadyExists, fs, []⟩ := by
    rw [makeDirectory, Action.get_bind_apply, h]
    rfl
  have haccept : acceptDirectory path .alreadyExists fs = ⟨.ok (), fs, []⟩ := by
    have hdirectory : fs.isDirectory path = true := by
      rw [isDirectory, h]
    rw [acceptDirectory, Action.get_bind_apply, if_pos hdirectory]
    rfl
  rw [makeDirectories, Path.ancestors, makeFirst, if_neg hempty,
    Action.tryCatch_of_error _ (congrArg Ended.result hmake), hmake, if_neg (by decide), haccept]
  rfl

theorem makeDirectories_empty (fs : FileSystem) : makeDirectories "" fs = ⟨.ok (), fs, []⟩ := rfl

end FileSystem

/-! ## Paths that begin alike -/

namespace Path

/-- Fewer texts with slashes between them are the beginning of more. -/
theorem unsegments_prefix {segs others : List (List Char)} (h : segs <+: others) :
    unsegments segs <+: unsegments others := by
  induction segs generalizing others with
  | nil => exact List.nil_prefix
  | cons s segs ih =>
      obtain ⟨rest, rfl⟩ := h
      cases segs with
      | nil =>
          cases rest with
          | nil => exact List.prefix_refl _
          | cons t rest => exact List.prefix_append s _
      | cons t segs =>
          have hrest := ih (List.prefix_append (t :: segs) rest)
          exact (List.prefix_append_right_inj s).2 (List.cons_prefix_cons.2 ⟨rfl, hrest⟩)

/-- A path is cut at its slashes and put together again. -/
theorem unsegments_segments (cs : List Char) : unsegments (segments cs) = cs := by
  induction cs with
  | nil => rfl
  | cons c cs ih =>
      obtain ⟨first, rest, hsegments⟩ := List.exists_cons_of_ne_nil (segments_ne_nil cs)
      rw [hsegments] at ih
      by_cases hc : c = '/'
      · have hcut : unsegments ([] :: first :: rest) = '/' :: unsegments (first :: rest) := rfl
        rw [hc, segments_slash, hsegments, hcut, ih]
      · rw [segments_cons_of_ne hc hsegments, ← ih]
        cases rest with
        | nil => rfl
        | cons t rest => rfl

theorem Anchored.eq_append {cs start body : List Char} (h : Anchored cs start body) :
    cs = start ++ body := by
  cases h with
  | root rest => rfl
  | dot => rfl
  | dotted rest => rfl
  | bare cs hcs => rfl

/-- The parent of a path is the beginning of it. -/
theorem parent_prefix {path parent : String} (h : parent? path = some parent) :
    parent.toList <+: path.toList := by
  rcases parent_eq h with ⟨_, rfl⟩ | ⟨kept, hkept, _, rfl⟩
  · exact List.nil_prefix
  · have hbody := unsegments_prefix (isPrefix_of_kept (segments (anchor path.toList).2))
    rw [hkept, unsegments_segments] at hbody
    obtain ⟨rest, hrest⟩ := hbody
    rw [String.toList_ofList]
    refine ⟨rest, ?_⟩
    rw [List.append_assoc, hrest]
    exact (anchored path.toList).eq_append.symm

theorem join_prefix {base path : String} (hrelative : isAbsolute path = false) :
    base.toList <+: (join base path).toList := by
  rw [join, hrelative]
  split
  · contradiction
  · split
    · rw [String.toList_append]
      exact List.prefix_append _ _
    · rw [String.toList_append, String.toList_append, List.append_assoc]
      exact List.prefix_append _ _

end Path

/-! ## Deliveries -/

namespace Deposit

open FileSystem (NamesFile Ready makeDirectories makeParents)

variable {d : Deposit} {fs : FileSystem}

/-- With the way open there is nothing to make before a delivery. -/
theorem prepare_of_ready (hnamed : ¬d.Misnamed) (hname : NamesFile d.target)
    (h : fs.Ready d.target) : d.outlet.prepare fs = ⟨.ok (), fs, []⟩ := by
  obtain ⟨outlet, name, bytes⟩ := d
  cases outlet with
  | file directory =>
      simp only [Misnamed, not_or] at hnamed
      obtain ⟨hempty, _, _, hslash, _⟩ := hnamed
      show makeDirectories directory fs = _
      by_cases hhere : directory = ""
      · rw [hhere]
        exact FileSystem.makeDirectories_empty fs
      · refine FileSystem.makeDirectories_of_directory hhere
          (h.resolve_above hname ?_ hhere ?_ ?_)
        · exact Path.join_prefix (FileSystem.isAbsolute_of_notMem hslash)
        · have hrelative := FileSystem.isAbsolute_of_notMem hslash
          exact (FileSystem.isAbsolute_join_of_relative directory hrelative).symm
        · show FileSystem.names directory <+:
            (FileSystem.names (Path.join directory name)).dropLast
          rw [FileSystem.names_join directory hslash hempty, List.dropLast_concat]
  | mirror path =>
      show makeParents path fs = _
      rw [FileSystem.makeParents]
      cases hparent : Path.parent? path with
      | none => rfl
      | some parent =>
          by_cases hempty : parent = ""
          · rw [hempty]
            rfl
          · obtain ⟨hstart, hway⟩ := Path.above_of_parent hparent
            have habove := h.resolve_above hname (Path.parent_prefix hparent) hempty hstart hway
            have hmade := FileSystem.makeDirectories_of_directory hempty habove
            simpa [hempty] using hmade

/-- Where the way is open a delivery is accepted, and all that it does is to put its file. -/
theorem deliver_of_ready (hnamed : ¬d.Misnamed) (hname : NamesFile d.target)
    (h : fs.Ready d.target) :
    d.IsAccepted fs ∧ (d.deliver fs).state = fs.put (fs.placeOf d.target) (.file d.content) := by
  obtain ⟨upper, hdeliver⟩ := deliver_of_named hnamed fs
  have hprepare := prepare_of_ready hnamed hname h
  have hmapped := Action.mapFault_of_ok (SinkFault.io upper) (congrArg Ended.result hprepare)
  have hwrite := h.write hname d.content
  rw [Action.bind_of_ok _ (congrArg Ended.result hmapped), hmapped, hprepare,
    Action.mapFault_of_ok _ (congrArg Ended.result hwrite), hwrite] at hdeliver
  rw [IsAccepted, hdeliver]
  exact ⟨rfl, rfl⟩

end Deposit

end CompilerHost
