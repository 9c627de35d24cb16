import CompilerHost.FileSystem.Basic
import CompilerHost.Proofs.Sequencing

/-! # Files that stay

What is written to a file is read from it until it is written again. There are no links, so where a
path leads is settled by its names, and directories that are made later are in nobody's way.

* `FileSystem.Leads`: the ways that a walk can take and succeed;
* `FileSystem.placeOf`: where a path leads, whether there is anything or not;
* `FileSystem.adds_makeFirst`: making directories leaves all that there is, and adds no more;
* `FileSystem.hasFile_of_write`, `FileSystem.HasFile.of_write`: what a path leads to behind a write,
  to it or to another.
-/

namespace CompilerHost

namespace FileSystem

variable {fs fs' fs'' : FileSystem} {path : String}

/-! ## Walks -/

/-- A name that leads down. -/
structure IsName (name : String) : Prop where
  notHere : name ≠ "."
  notUp : name ≠ ".."
  short : ¬maxNameBytes < name.utf8ByteSize

/-- The ways of a walk that succeeds. -/
inductive Leads (fs : FileSystem) : List String → List String → Destination → Prop where
  | arrived (place : List String) : Leads fs place [] (.directory place)
  | here {place rest : List String} {d : Destination} (hrest : Leads fs place rest d) :
      Leads fs place ("." :: rest) d
  | up {place rest : List String} {d : Destination} (hrest : Leads fs place.dropLast rest d) :
      Leads fs place (".." :: rest) d
  | down {place rest : List String} {name : String} {d : Destination} (hname : IsName name)
      (hnode : fs.node? (place ++ [name]) = some .directory)
      (hrest : Leads fs (place ++ [name]) rest d) : Leads fs place (name :: rest) d
  | file {place : List String} {name : String} {content : ByteArray} (hname : IsName name)
      (hnode : fs.node? (place ++ [name]) = some (.file content)) :
      Leads fs place [name] (.file (place ++ [name]) content)
  | vacant {place : List String} {name : String} (hname : IsName name)
      (hnode : fs.node? (place ++ [name]) = none) :
      Leads fs place [name] (.vacant (place ++ [name]))

theorem leads_of_walk {place names : List String} {d : Destination}
    (h : fs.walk place names = .ok d) : Leads fs place names d := by
  fun_induction walk fs place names with
  | case1 place =>
      obtain rfl := Except.ok.inj h
      exact .arrived place
  | case2 place rest ih => exact .here (ih h)
  | case3 place rest hnotHere ih => exact .up (ih h)
  | case4 => cases h
  | case5 place name rest hnotHere hnotUp hshort hnode ih =>
      exact .down ⟨hnotHere, hnotUp, hshort⟩ hnode (ih h)
  | case6 place name hnotHere hnotUp hshort content hnode =>
      obtain rfl := Except.ok.inj h
      exact .file ⟨hnotHere, hnotUp, hshort⟩ hnode
  | case7 => cases h
  | case8 place name hnotHere hnotUp hshort hnode =>
      obtain rfl := Except.ok.inj h
      exact .vacant ⟨hnotHere, hnotUp, hshort⟩ hnode
  | case9 => cases h

theorem walk_of_leads {place names : List String} {d : Destination} (h : Leads fs place names d) :
    fs.walk place names = .ok d := by
  induction h with
  | arrived place => rfl
  | here _ ih => simpa [walk] using ih
  | up _ ih => simpa [walk] using ih
  | down hname hnode _ ih => simpa [walk, hname.notHere, hname.notUp, hname.short, hnode] using ih
  | file hname hnode => simp [walk, hname.notHere, hname.notUp, hname.short, hnode]
  | vacant hname hnode => simp [walk, hname.notHere, hname.notUp, hname.short, hnode]

/-! ## Places -/

/-- Where names lead from a place, whether there is anything or not. -/
def placeFrom (place : List String) : List String → List String
  | [] => place
  | name :: rest =>
    if name = "." then placeFrom place rest
    else if name = ".." then placeFrom place.dropLast rest
    else placeFrom (place ++ [name]) rest

/-- The place that a path starts from. -/
def origin (fs : FileSystem) (path : String) : List String :=
  if Path.isAbsolute path then [] else fs.workingDirectory

/-- Where a path leads, whether there is anything or not. -/
def placeOf (fs : FileSystem) (path : String) : List String :=
  placeFrom (fs.origin path) (names path)

namespace Destination

/-- The place of a destination. -/
def place : Destination → List String
  | .directory place | .file place _ | .vacant place => place

/-- What stands at a destination. -/
def node? : Destination → Option Node
  | .directory _ => some .directory
  | .file _ content => some (.file content)
  | .vacant _ => none

/-- Whether a file can be put at a destination. -/
def IsFree (d : Destination) : Prop := d.node? ≠ some .directory

theorem isFree_file (place : List String) (content : ByteArray) :
    (Destination.file place content).IsFree := nofun

theorem isFree_vacant (place : List String) : (Destination.vacant place).IsFree := nofun

end Destination

/-- There being no links, names alone say where a walk ends. -/
theorem Leads.place_eq {place names : List String} {d : Destination} (h : Leads fs place names d) :
    d.place = placeFrom place names := by
  induction h with
  | arrived place => rfl
  | here _ ih => simpa [placeFrom] using ih
  | up _ ih => simpa [placeFrom] using ih
  | down hname _ _ ih => simpa [placeFrom, hname.notHere, hname.notUp] using ih
  | file hname _ => simp [placeFrom, hname.notHere, hname.notUp, Destination.place]
  | vacant hname _ => simp [placeFrom, hname.notHere, hname.notUp, Destination.place]

/-- Where a file can be put, the last name on the way leads down, and there is what the walk
tells. -/
theorem Leads.last_of_isFree {place names : List String} {d : Destination}
    (h : Leads fs place names d) (hfree : d.IsFree) :
    (∃ name, names.getLast? = some name ∧ IsName name) ∧ d.place ≠ [] ∧
      fs.node? d.place = d.node? := by
  have hlast : ∀ {first : String} {rest : List String} {name : String},
      rest.getLast? = some name → (first :: rest).getLast? = some name := by
    intro first rest name hrest
    rw [List.getLast?_cons, hrest]
    rfl
  induction h with
  | arrived place => exact absurd rfl hfree
  | here _ ih | up _ ih | down _ _ _ ih =>
      obtain ⟨⟨name, hname, hdown⟩, hplace, hnode⟩ := ih hfree
      exact ⟨⟨name, hlast hname, hdown⟩, hplace, hnode⟩
  | file hname hnode => exact ⟨⟨_, rfl, hname⟩, by simp [Destination.place], hnode⟩
  | vacant hname hnode => exact ⟨⟨_, rfl, hname⟩, by simp [Destination.place], hnode⟩

/-! ## Growth -/

/-- Everything in one file system stands in another, at its place. -/
structure Extends (fs' fs : FileSystem) : Prop where
  workingDirectory : fs'.workingDirectory = fs.workingDirectory
  node : ∀ place node, fs.node? place = some node → fs'.node? place = some node

/-- All directories of one file system are directories of another. -/
structure KeepsDirectories (fs' fs : FileSystem) : Prop where
  workingDirectory : fs'.workingDirectory = fs.workingDirectory
  directory : ∀ place, fs.node? place = some .directory → fs'.node? place = some .directory

theorem KeepsDirectories.refl (fs : FileSystem) : fs.KeepsDirectories fs := ⟨rfl, fun _ => id⟩

theorem KeepsDirectories.trans (h' : fs''.KeepsDirectories fs') (h : fs'.KeepsDirectories fs) :
    fs''.KeepsDirectories fs :=
  ⟨h'.workingDirectory.trans h.workingDirectory,
    fun place hplace => h'.directory place (h.directory place hplace)⟩

theorem Extends.keepsDirectories (h : fs'.Extends fs) : fs'.KeepsDirectories fs :=
  ⟨h.workingDirectory, fun place => h.node place .directory⟩

/-- A walk to a file goes the same way among more directories. -/
theorem Leads.of_keepsDirectories {place names : List String} {d : Destination}
    {content : ByteArray} (h : Leads fs place names d) (hfree : d.IsFree)
    (hkeeps : fs'.KeepsDirectories fs) (hnode : fs'.node? d.place = some (.file content)) :
    Leads fs' place names (.file d.place content) := by
  -- only the last step looks at what is no directory, and finds a file there either way
  induction h with
  | arrived place => exact absurd rfl hfree
  | here _ ih => exact .here (ih hfree hnode)
  | up _ ih => exact .up (ih hfree hnode)
  | down hname hdirectory _ ih =>
      exact .down hname (hkeeps.directory _ hdirectory) (ih hfree hnode)
  | file hname _ => exact .file hname hnode
  | vacant hname _ => exact .file hname hnode

/-! ## Filling places -/

/-- Entries with what stands at a place replaced. -/
def refilled (place : List String) (node : Node) (nodes : List (List String × Node)) :
    List (List String × Node) :=
  nodes.map fun entry => if entry.1 = place then (place, node) else entry

theorem lookup_refilled_self {place : List String} (node : Node)
    {nodes : List (List String × Node)} (hany : nodes.any (·.1 = place) = true) :
    (refilled place node nodes).lookup place = some node := by
  induction nodes with
  | nil => cases hany
  | cons entry nodes ih =>
      obtain ⟨first, old⟩ := entry
      by_cases hfirst : first = place
      · simp [refilled, hfirst]
      · have hbeq : (place == first) = false := beq_eq_false_iff_ne.2 (Ne.symm hfirst)
        have hrest := ih (by simpa [hfirst] using hany)
        simpa [refilled, hfirst, List.lookup_cons, hbeq] using hrest

theorem lookup_refilled_other {place other : List String} (node : Node)
    (nodes : List (List String × Node)) (hother : other ≠ place) :
    (refilled place node nodes).lookup other = nodes.lookup other := by
  have hplace : (other == place) = false := beq_eq_false_iff_ne.2 hother
  induction nodes with
  | nil => rfl
  | cons entry nodes ih =>
      obtain ⟨first, old⟩ := entry
      by_cases hfirst : first = place
      · subst hfirst
        simpa [refilled, List.lookup_cons, hplace] using ih
      · cases hbeq : other == first with
        | true => simp [refilled, hfirst, List.lookup_cons, hbeq]
        | false => simpa [refilled, hfirst, List.lookup_cons, hbeq] using ih

theorem node?_put_self (fs : FileSystem) {place : List String} (node : Node)
    (hplace : place ≠ []) : (fs.put place node).node? place = some node := by
  rw [node?, if_neg hplace, put]
  split
  · rename_i hany
    exact lookup_refilled_self node hany
  · -- nothing stood there: the new entry comes last, behind all others
    rename_i hany
    have hnone : fs.nodes.lookup place = none := by
      rw [List.lookup_eq_none_iff]
      intro entry hentry
      simp only [Bool.not_eq_true, List.any_eq_false, decide_eq_true_eq] at hany
      exact bne_iff_ne.2 (Ne.symm (hany entry hentry))
    simp [List.lookup_append, hnone]

theorem node?_put_other (fs : FileSystem) {place other : List String} (node : Node)
    (hother : other ≠ place) : (fs.put place node).node? other = fs.node? other := by
  rw [node?, node?]
  split
  · rfl
  · rw [put]
    split
    · exact lookup_refilled_other node fs.nodes hother
    · have hbeq : (other == place) = false := beq_eq_false_iff_ne.2 hother
      simp [List.lookup_append, List.lookup_cons, hbeq]

/-- A file that is put where no directory stood leaves all directories. -/
theorem keepsDirectories_put {place : List String} (content : ByteArray)
    (hfree : fs.node? place ≠ some .directory) :
    (fs.put place (.file content)).KeepsDirectories fs where
  workingDirectory := rfl
  directory := by
    intro other hother
    have hsame : other ≠ place := by
      rintro rfl
      exact hfree hother
    rw [node?_put_other fs _ hsame, hother]

/-! ## Making directories -/

/-- All that one file system has and another has not are directories, at some places. Which places
those are goes by the working directory, which is the same. -/
structure Adds (new : List String → List String → Prop) (fs fs' : FileSystem) : Prop where
  workingDirectory : fs'.workingDirectory = fs.workingDirectory
  node : ∀ place, fs'.node? place = fs.node? place ∨
    (fs.node? place = none ∧ fs'.node? place = some .directory ∧ new fs.workingDirectory place)

section Adding

variable {new : List String → List String → Prop}

instance : Std.Refl (Adds new) := ⟨fun _ => ⟨rfl, fun _ => .inl rfl⟩⟩

theorem Adds.trans (h : fs.Adds new fs') (h' : fs'.Adds new fs'') : fs.Adds new fs'' where
  workingDirectory := h'.workingDirectory.trans h.workingDirectory
  node := by
    intro place
    rcases h.node place with hsame | ⟨hvacant, hmade, hnew⟩
    · rcases h'.node place with hsame' | ⟨hvacant', hmade', hnew'⟩
      · exact .inl (hsame'.trans hsame)
      · refine .inr ⟨hsame.symm.trans hvacant', hmade', ?_⟩
        rwa [h.workingDirectory] at hnew'
    · -- what was made stays, as it is vacant no more
      rcases h'.node place with hsame' | ⟨hvacant', _⟩
      · exact .inr ⟨hvacant, hsame'.trans hmade, hnew⟩
      · rw [hmade] at hvacant'
        cases hvacant'

instance : Trans (Adds new) (Adds new) (Adds new) := ⟨Adds.trans⟩

theorem Adds.extends (h : fs.Adds new fs') : fs'.Extends fs where
  workingDirectory := h.workingDirectory
  node := by
    intro place node hnode
    rcases h.node place with hsame | ⟨hvacant, _⟩
    · exact hsame.trans hnode
    · rw [hnode] at hvacant
      cases hvacant

/-- A directory that is made where nothing stood is all that is new. -/
theorem adds_put {place : List String} (hvacant : fs.node? place = none) (hplace : place ≠ [])
    (hnew : new fs.workingDirectory place) : fs.Adds new (fs.put place .directory) where
  workingDirectory := rfl
  node := by
    intro other
    by_cases hsame : other = place
    · rw [hsame]
      exact .inr ⟨hvacant, node?_put_self fs _ hplace, hnew⟩
    · exact .inl (node?_put_other fs _ hsame)

end Adding

theorem leads_of_resolve {d : Destination} (h : fs.resolve path = .ok d) :
    Leads fs (fs.origin path) (names path) d := by
  unfold resolve follow at h
  split at h
  · cases h
  · split at h
    · cases h
    · split at h
      · cases h
      · exact leads_of_walk h

section Making

open CompilerHost.Action (Respects)

variable {new : List String → List String → Prop}

theorem adds_makeDirectory (hnew : ∀ fs : FileSystem, new fs.workingDirectory (fs.placeOf path)) :
    Respects (Adds new) (makeDirectory path) := by
  refine .get_bind fun fs => ?_
  cases hresolve : fs.resolve path with
  | error e => exact Std.Refl.refl fs
  | ok d =>
      cases d with
      | directory place => exact Std.Refl.refl fs
      | file place content => exact Std.Refl.refl fs
      | vacant place =>
          have hleads := leads_of_resolve hresolve
          obtain ⟨_, hplace, hnode⟩ := hleads.last_of_isFree (Destination.isFree_vacant _)
          have hled : place = fs.placeOf path := hleads.place_eq
          exact adds_put hnode hplace (hled ▸ hnew fs)

theorem adds_acceptDirectory (path : String) (e : OsError) :
    Respects (Adds new) (acceptDirectory path e) := by
  refine .get_bind fun fs => ?_
  split
  · exact Std.Refl.refl fs
  · exact Std.Refl.refl fs

/-- The induction is on the directories that are still to be tried. -/
theorem adds_makeFirst {paths : List String}
    (hnew : ∀ path ∈ paths, ∀ fs : FileSystem, new fs.workingDirectory (fs.placeOf path)) :
    Respects (Adds new) (makeFirst paths) := by
  induction paths with
  | nil => exact .throw _
  | cons path above ih =>
      have hmake := adds_makeDirectory (hnew path List.mem_cons_self)
      have habove := ih fun p hp => hnew p (List.mem_cons_of_mem _ hp)
      unfold makeFirst
      split
      · exact .pure ()
      · refine .tryCatch hmake fun e => ?_
        split
        · -- the directory above it was missing, and is made first
          exact .bind habove fun _ => .tryCatch hmake (adds_acceptDirectory path)
        · exact adds_acceptDirectory path e

theorem adds_makeParents
    (hnew : ∀ parent, Path.parent? path = some parent →
      Respects (Adds new) (makeDirectories parent)) :
    Respects (Adds new) (makeParents path) := by
  unfold makeParents
  split
  · rename_i parent hparent
    split
    · exact .pure ()
    · exact hnew parent hparent
  · exact .pure ()

end Making

/-! ## Writing and reading -/

theorem placeOf_eq_of_workingDirectory (path : String)
    (h : fs'.workingDirectory = fs.workingDirectory) : fs'.placeOf path = fs.placeOf path := by
  rw [placeOf, placeOf, origin, origin, h]

/-- Of a path that is not refused, all that matters is the walk. -/
theorem resolve_of_walk {d d' : Destination} (h : fs.resolve path = .ok d)
    (hwalk : fs'.walk (fs'.origin path) (names path) = .ok d') : fs'.resolve path = .ok d' := by
  unfold resolve follow at h ⊢
  split at h
  · cases h
  · rename_i hzero
    rw [if_neg hzero]
    split at h
    · cases h
    · rename_i hempty
      rw [if_neg hempty]
      split at h
      · cases h
      · rename_i hlong
        rw [if_neg hlong]
        exact hwalk

/-- A path leads to a file and does not take it for a directory. -/
structure HasFile (fs : FileSystem) (path : String) (content : ByteArray) : Prop where
  resolve : fs.resolve path = .ok (.file (fs.placeOf path) content)
  plain : endsInSlash path = false

theorem place_of_resolve {d : Destination} (h : fs.resolve path = .ok d) :
    d.place = fs.placeOf path := (leads_of_resolve h).place_eq

/-- To have a file is to read it. -/
theorem hasFile_iff {content : ByteArray} :
    fs.HasFile path content ↔ fs.read path = .ok content := by
  constructor
  · intro h
    simp [read, h.resolve, h.plain]
  · intro h
    unfold read at h
    split at h
    · cases h
    · cases h
    · cases h
    · rename_i place found hresolve
      split at h
      · cases h
      · rename_i hplain
        obtain rfl := Except.ok.inj h
        have hplace := place_of_resolve hresolve
        refine ⟨?_, by simpa using hplain⟩
        rw [hresolve, ← hplace]
        rfl

/-- Where something free is found to write to, the path says of no name that it is a directory's. -/
theorem resolve_of_resolveToWrite {d : Destination} (h : fs.resolveToWrite path = .ok d)
    (hfree : d.IsFree) : namesDirectory path = false ∧ fs.resolve path = .ok d := by
  unfold resolveToWrite at h
  split at h
  · split at h
    · cases h
    · obtain rfl := Except.ok.inj h
      exact absurd rfl hfree
    · cases h
    · cases h
  · rename_i hnames
    exact ⟨by simpa using hnames, h⟩

/-- A write that succeeds finds a place that is free, under a path that does not take it for a
directory, and fills it. -/
theorem filled_of_write {content : ByteArray} (h : (write path content fs).result = .ok ()) :
    ∃ d, fs.resolve path = .ok d ∧ d.IsFree ∧ endsInSlash path = false ∧
      (write path content fs).state = fs.put (fs.placeOf path) (.file content) := by
  have htarget : ∃ d, fs.resolveToWrite path = .ok d ∧ d.IsFree ∧
      (write path content fs).state = fs.put d.place (.file content) := by
    rw [write, Action.get_bind_apply] at h ⊢
    cases hresolve : fs.resolveToWrite path with
    | error e =>
        rw [hresolve] at h
        cases h
    | ok d =>
        cases d with
        | directory place =>
            rw [hresolve] at h
            cases h
        | file place old => exact ⟨_, rfl, Destination.isFree_file place old, rfl⟩
        | vacant place => exact ⟨_, rfl, Destination.isFree_vacant place, rfl⟩
  obtain ⟨d, hresolve, hfree, hstate⟩ := htarget
  obtain ⟨hnames, hresolve⟩ := resolve_of_resolveToWrite hresolve hfree
  obtain ⟨⟨name, hlast, hname⟩, _, _⟩ := (leads_of_resolve hresolve).last_of_isFree hfree
  refine ⟨d, hresolve, hfree, ?_, by rw [hstate, place_of_resolve hresolve]⟩
  -- the last name leads down, so that a slash behind it would make it a directory's
  simpa [namesDirectory, hlast, hname.notHere, hname.notUp] using hnames

/-- A write that fails changes nothing. -/
theorem state_of_failed_write {content : ByteArray} {e : OsError}
    (h : (write path content fs).result = .error e) : (write path content fs).state = fs := by
  rw [write, Action.get_bind_apply] at h ⊢
  cases hresolve : fs.resolveToWrite path with
  | error e => rfl
  | ok d =>
      rw [hresolve] at h
      cases d with
      | directory place => rfl
      | file place old => cases h
      | vacant place => cases h

section Written

variable {other : String} {content written : ByteArray}

theorem hasFile_of_put {d : Destination} (hresolve : fs.resolve path = .ok d) (hfree : d.IsFree)
    (hplain : endsInSlash path = false) (hkeeps : fs'.KeepsDirectories fs)
    (hnode : fs'.node? (fs.placeOf path) = some (.file content)) : fs'.HasFile path content where
  resolve := by
    have horigin : fs'.origin path = fs.origin path := by
      rw [origin, origin, hkeeps.workingDirectory]
    rw [placeOf_eq_of_workingDirectory path hkeeps.workingDirectory, ← place_of_resolve hresolve]
    refine resolve_of_walk hresolve (walk_of_leads ?_)
    rw [horigin]
    rw [← place_of_resolve hresolve] at hnode
    exact (leads_of_resolve hresolve).of_keepsDirectories hfree hkeeps hnode
  plain := hplain

/-- The place of a destination that is free is none of a directory's. -/
theorem node?_of_isFree {d : Destination} (hresolve : fs.resolve path = .ok d) (hfree : d.IsFree) :
    fs.placeOf path ≠ [] ∧ fs.node? (fs.placeOf path) = d.node? := by
  obtain ⟨_, hplace, hnode⟩ := (leads_of_resolve hresolve).last_of_isFree hfree
  rw [place_of_resolve hresolve] at hplace hnode
  exact ⟨hplace, hnode⟩

/-- What was written is there. -/
theorem hasFile_of_write (h : (write path content fs).result = .ok ()) :
    (write path content fs).state.HasFile path content := by
  obtain ⟨d, hresolve, hfree, hplain, hstate⟩ := filled_of_write h
  obtain ⟨hplace, hnode⟩ := node?_of_isFree hresolve hfree
  rw [hstate]
  exact hasFile_of_put hresolve hfree hplain (keepsDirectories_put content (hnode ▸ hfree))
    (node?_put_self fs _ hplace)

/-- A file that is there can be written again. -/
theorem HasFile.write_ok (h : fs.HasFile path content) (written : ByteArray) :
    (write path written fs).result = .ok () := by
  have hresolve : fs.resolveToWrite path = .ok (.file (fs.placeOf path) content) := by
    rw [resolveToWrite, namesDirectory, h.plain]
    exact h.resolve
  rw [write, Action.get_bind_apply, hresolve]
  rfl

/-- A file stays where a file system only grows. -/
theorem HasFile.of_extends (h : fs.HasFile path content) (hext : fs'.Extends fs) :
    fs'.HasFile path content := by
  obtain ⟨_, hnode⟩ := node?_of_isFree h.resolve (Destination.isFree_file _ _)
  exact hasFile_of_put h.resolve (Destination.isFree_file _ _) h.plain hext.keepsDirectories
    (hext.node _ _ hnode)

/-- Behind a write to another path a file is as before if the path leads elsewhere, and what was
written if it leads to the same place. -/
theorem HasFile.of_write (h : fs.HasFile path content)
    (hwrite : (write other written fs).result = .ok ()) :
    (write other written fs).state.HasFile path
      (if fs.placeOf path = fs.placeOf other then written else content) := by
  obtain ⟨d, hresolve, hfree, _, hstate⟩ := filled_of_write hwrite
  obtain ⟨hplace, hother⟩ := node?_of_isFree hresolve hfree
  obtain ⟨_, hnode⟩ := node?_of_isFree h.resolve (Destination.isFree_file _ _)
  rw [hstate]
  -- the way to the file is open still, so all that matters is what stands at its end
  refine hasFile_of_put h.resolve (Destination.isFree_file _ _) h.plain
    (keepsDirectories_put written (hother ▸ hfree)) ?_
  split
  · rename_i hsame
    rw [hsame]
    exact node?_put_self fs _ hplace
  · rename_i hsame
    rw [node?_put_other fs _ hsame, hnode]
    rfl

end Written

end FileSystem

end CompilerHost
