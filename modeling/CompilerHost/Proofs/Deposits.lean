import CompilerHost.Proofs.Escaping
import CompilerHost.Proofs.Paths
import Mathlib.Data.List.Induction

/-! # Deposits

Files and mirrors share one tree, and deliveries to any of them come in any order. What a place
holds behind all of them is what was put there last.

* `Deposit.Exact`: all that a delivery does, whether it is accepted or not;
* `FileSystem.node_after`: what stands at a place behind a sequence of deliveries;
* `FileSystem.deposits_exact`: each delivery of a sequence does what it should and nothing else, and
  behind them each target holds what was put there last.
-/

namespace CompilerHost

open FileSystem (Adds OnWay write makeDirectories makeParents)
open Sink (fileTarget escaped checkName restore)

/-! ## Mirrors -/

namespace Sink

/-- Escaped text is read as it was written, and what stands behind it is read as well. -/
theorem readText_of_hasFile {fs : FileSystem} {path : String} {bytes : ByteArray} (more : String)
    (h : fs.HasFile path (escaped bytes ++ more.toUTF8)) :
    fs.readText path = .ok (escapedText bytes ++ more) := by
  have htext : escaped bytes ++ more.toUTF8 = (escapedText bytes ++ more).toUTF8 :=
    ByteArray.ext rfl
  rw [FileSystem.readText, FileSystem.hasFile_iff.1 h, htext]
  simp only [Utf8.decode_toUTF8]

/-- A mirror is read back, whatever blanks stand at its end. -/
theorem restore_of_blanks {fs : FileSystem} {path : String} {bytes : ByteArray} {blanks : String}
    (h : fs.HasFile path (escaped bytes ++ blanks.toUTF8)) (hblanks : Text.isBlankText blanks) :
    restore fs path = .ok bytes := by
  rw [restore, readText_of_hasFile blanks h]
  simp only [Escape.trimmedEnd_append_blanks _ hblanks]
  rw [escapedText, Escape.trimmedEnd_encode]
  exact unescape_escapedText bytes

theorem hasFile_empty_behind {fs : FileSystem} {path : String} {content : ByteArray}
    (h : fs.HasFile path content) : fs.HasFile path (content ++ "".toUTF8) := by
  rw [String.toUTF8_eq_toByteArray, String.toByteArray_empty, ByteArray.append_empty]
  exact h

end Sink

/-! ## Outlets -/

/-- The sinks that keep files. -/
inductive Outlet where
  | file (directory : String)
  | mirror (path : String)
deriving DecidableEq

namespace Outlet

def sink : Outlet → Sink FileSystem
  | file directory => .file directory
  | mirror path => .mirror path

/-- The path that is written to. -/
def target : Outlet → String → String
  | file directory, name => fileTarget directory name
  | mirror path, _ => path

/-- What is written. -/
def content : Outlet → ByteArray → ByteArray
  | file _, bytes => bytes
  | mirror _, bytes => escaped bytes

/-- What is done before the target is written. -/
def prepare : Outlet → Action FileSystem OsError Unit
  | file directory => makeDirectories directory
  | mirror path => makeParents path

theorem deliver_eq (o : Outlet) (name : String) (bytes : ByteArray) :
    ∃ upper, o.sink.deliver name bytes =
      (checkName name >>= fun _ => o.prepare.mapFault (.io upper) >>= fun _ =>
        (write (o.target name) (o.content bytes)).mapFault (.io (o.target name))) := by
  cases o with
  | file directory => exact ⟨_, rfl⟩
  | mirror path => exact ⟨_, rfl⟩

end Outlet

/-- Something that is to be delivered. -/
structure Deposit where
  outlet : Outlet
  name : String
  bytes : ByteArray

namespace Deposit

def target (d : Deposit) : String := d.outlet.target d.name

def content (d : Deposit) : ByteArray := d.outlet.content d.bytes

def deliver (d : Deposit) : Action FileSystem SinkFault Unit := d.outlet.sink.deliver d.name d.bytes

/-- The names that an artifact must not have. -/
def Misnamed (d : Deposit) : Prop :=
  d.name = "" ∨ d.name = "." ∨ d.name = ".." ∨
    '/' ∈ d.name.toList ∨ '\\' ∈ d.name.toList ∨ '\x00' ∈ d.name.toList

/-- Whether the sink takes the artifact. -/
def IsAccepted (d : Deposit) (fs : FileSystem) : Prop := (d.deliver fs).result = .ok ()

instance (d : Deposit) (fs : FileSystem) : Decidable (d.IsAccepted fs) :=
  decidable_of_iff ((d.deliver fs).result.isOk = true) <| by
    unfold IsAccepted
    cases (d.deliver fs).result with
    | ok _ => exact iff_of_true rfl rfl
    | error e => exact iff_of_false Bool.false_ne_true nofun

theorem misnamed_iff (d : Deposit) : d.Misnamed ↔ isBareName d.name = false := by
  have hchars : (d.name.toList.all fun c => c ≠ '/' && c ≠ '\\' && c ≠ '\x00') = true ↔
      ¬('/' ∈ d.name.toList ∨ '\\' ∈ d.name.toList ∨ '\x00' ∈ d.name.toList) := by
    simp only [List.all_eq_true, Bool.and_eq_true, decide_eq_true_eq]
    constructor
    · rintro hall (hslash | hback | hzero)
      · exact (hall _ hslash).1.1 rfl
      · exact (hall _ hback).1.2 rfl
      · exact (hall _ hzero).2 rfl
    · intro hnone c hc
      refine ⟨⟨?_, ?_⟩, ?_⟩
      · rintro rfl
        exact hnone (.inl hc)
      · rintro rfl
        exact hnone (.inr (.inl hc))
      · rintro rfl
        exact hnone (.inr (.inr hc))
  rw [← Bool.not_eq_true, isBareName, Bool.and_eq_true, hchars]
  simp only [Misnamed, Bool.and_eq_true, decide_eq_true_eq]
  tauto

variable {d : Deposit} {fs : FileSystem}

theorem deliver_of_misnamed (h : d.Misnamed) (fs : FileSystem) :
    d.deliver fs = ⟨.error (.invalidName d.name), fs, []⟩ := by
  obtain ⟨upper, hdeliver⟩ := d.outlet.deliver_eq d.name d.bytes
  have hcheck : checkName (ω := FileSystem) d.name = throw (.invalidName d.name) := by
    rw [checkName, d.misnamed_iff.1 h]
    rfl
  rw [deliver, hdeliver, hcheck, Action.throw_bind_apply]

/-- A delivery with a good name is a preparation and a write. -/
theorem deliver_of_named (h : ¬d.Misnamed) (fs : FileSystem) :
    ∃ upper, d.deliver fs = (d.outlet.prepare.mapFault (.io upper) >>= fun _ =>
      (write d.target d.content).mapFault (.io d.target)) fs := by
  obtain ⟨upper, hdeliver⟩ := d.outlet.deliver_eq d.name d.bytes
  have hcheck : checkName (ω := FileSystem) d.name = pure () := by
    rw [checkName, if_pos (by simpa [misnamed_iff] using h)]
  refine ⟨upper, ?_⟩
  rw [deliver, hdeliver, hcheck, Action.pure_bind_apply]
  rfl

/-- Whatever it comes to, a delivery makes directories on the way to its target before it writes. -/
theorem adds_prepare (h : ¬d.Misnamed) :
    Action.Respects (Adds (OnWay d.target)) d.outlet.prepare := by
  obtain ⟨outlet, name, bytes⟩ := d
  simp only [Misnamed, not_or] at h
  cases outlet with
  | file directory => exact FileSystem.adds_makeDirectories_join h.2.2.2.1 h.1
  | mirror path => exact FileSystem.adds_makeParents_onWay path

/-- The courses of a delivery. -/
inductive Course (d : Deposit) (fs : FileSystem) : Prop where
  | misnamed (hname : d.Misnamed) (hended : d.deliver fs = ⟨.error (.invalidName d.name), fs, []⟩)
  /-- Directories may have been made by then. -/
  | failed (hname : ¬d.Misnamed) (before : FileSystem) (hadds : fs.Adds (OnWay d.target) before)
      (path : String) (e : OsError) (journal : Journal)
      (hended : d.deliver fs = ⟨.error (.io path e), before, journal⟩)
  | accepted (hname : ¬d.Misnamed) (before : FileSystem) (hadds : fs.Adds (OnWay d.target) before)
      (hwrite : (write d.target d.content before).result = .ok ()) (journal : Journal)
      (hended : d.deliver fs = ⟨.ok (), (write d.target d.content before).state, journal⟩)

theorem course (d : Deposit) (fs : FileSystem) : d.Course fs := by
  by_cases hname : d.Misnamed
  · exact .misnamed hname (deliver_of_misnamed hname fs)
  · obtain ⟨upper, hended⟩ := deliver_of_named hname fs
    have hadds := adds_prepare hname fs
    cases hprepare : (d.outlet.prepare fs).result with
    | error e =>
        have hmapped := Action.mapFault_of_error (SinkFault.io upper) hprepare
        rw [Action.bind_of_error _ (congrArg Ended.result hmapped), hmapped] at hended
        exact .failed hname _ hadds upper e _ hended
    | ok _ =>
        have hmapped := Action.mapFault_of_ok (SinkFault.io upper) hprepare
        rw [Action.bind_of_ok _ (congrArg Ended.result hmapped), hmapped] at hended
        cases hwrite : (write d.target d.content (d.outlet.prepare fs).state).result with
        | ok _ =>
            rw [Action.mapFault_of_ok _ hwrite] at hended
            exact .accepted hname _ hadds hwrite _ hended
        | error e =>
            rw [Action.mapFault_of_error _ hwrite,
              FileSystem.state_of_failed_write hwrite] at hended
            exact .failed hname _ hadds d.target e _ hended

/-- All that a delivery does. -/
structure Exact (d : Deposit) (fs : FileSystem) : Prop where
  refused : (d.deliver fs).result = .error (.invalidName d.name) ↔ d.Misnamed
  /-- The name is looked at before anything is done. -/
  untouched : d.Misnamed → (d.deliver fs).state = fs
  /-- A file lies in the directory of its sink, and nowhere below or above it. -/
  inside : ¬d.Misnamed → ∀ directory, d.outlet = .file directory →
    fs.placeOf d.target = fs.placeOf directory ++ [d.name]
  /-- What was accepted is there, and nothing of what was there before. -/
  written : d.IsAccepted fs →
    (d.deliver fs).state.read d.target = .ok d.content ∧
      (d.deliver fs).state.node? (fs.placeOf d.target) = some (.file d.content)
  /-- Everywhere else all is as it was, but for directories on the way that were missing. -/
  others : ∀ place, (d.IsAccepted fs → place ≠ fs.placeOf d.target) →
    (d.deliver fs).state.node? place = fs.node? place ∨
      (fs.node? place = none ∧ (d.deliver fs).state.node? place = some .directory ∧
        OnWay d.target fs.workingDirectory place)
  workingDirectory : (d.deliver fs).state.workingDirectory = fs.workingDirectory

theorem placeOf_of_adds {new : List String → List String → Prop} {before : FileSystem}
    (hadds : fs.Adds new before) (path : String) : before.placeOf path = fs.placeOf path :=
  FileSystem.placeOf_eq_of_workingDirectory path hadds.workingDirectory

theorem inside_of_named (h : ¬d.Misnamed) (fs : FileSystem) {directory : String}
    (houtlet : d.outlet = .file directory) :
    fs.placeOf d.target = fs.placeOf directory ++ [d.name] := by
  simp only [Misnamed, not_or] at h
  obtain ⟨hempty, hhere, hup, hslash, _⟩ := h
  rw [target, houtlet]
  exact FileSystem.placeOf_join directory fs hslash hempty hhere hup

theorem not_isAccepted {fault : SinkFault} (h : (d.deliver fs).result = .error fault) :
    ¬d.IsAccepted fs := by
  intro haccepted
  cases h.symm.trans haccepted

/-- The cases are those of the courses that a delivery may take. -/
theorem exact_deliver (d : Deposit) (fs : FileSystem) : d.Exact fs := by
  cases d.course fs with
  | misnamed hname hended =>
      refine ⟨?_, ?_, ?_, ?_, ?_, ?_⟩
      · rw [hended]
        exact iff_of_true rfl hname
      · intro _
        rw [hended]
      · intro hnamed
        exact absurd hname hnamed
      · intro haccepted
        exact absurd haccepted (not_isAccepted (by rw [hended]))
      · intro place _
        rw [hended]
        exact .inl rfl
      · rw [hended]
  | failed hname before hadds path e journal hended =>
      refine ⟨?_, ?_, ?_, ?_, ?_, ?_⟩
      · rw [hended]
        exact iff_of_false (by nofun) hname
      · intro hmisnamed
        exact absurd hmisnamed hname
      · intro _ directory houtlet
        exact inside_of_named hname fs houtlet
      · intro haccepted
        exact absurd haccepted (not_isAccepted (by rw [hended]))
      · intro place _
        rw [hended]
        exact hadds.node place
      · rw [hended]
        exact hadds.workingDirectory
  | accepted hname before hadds hwrite journal hended =>
      obtain ⟨found, hresolve, hfree, _, hstate⟩ := FileSystem.filled_of_write hwrite
      obtain ⟨hplace, _⟩ := FileSystem.node?_of_isFree hresolve hfree
      -- the directories that were made by then have not moved the target
      have hsame := placeOf_of_adds hadds d.target
      have haccepted : d.IsAccepted fs := by rw [IsAccepted, hended]
      refine ⟨?_, ?_, ?_, ?_, ?_, ?_⟩
      · rw [hended]
        exact iff_of_false (by nofun) hname
      · intro hmisnamed
        exact absurd hmisnamed hname
      · intro _ directory houtlet
        exact inside_of_named hname fs houtlet
      · intro _
        rw [hended]
        refine ⟨FileSystem.hasFile_iff.1 (FileSystem.hasFile_of_write hwrite), ?_⟩
        rw [hstate, ← hsame]
        exact FileSystem.node?_put_self before _ hplace
      · intro place hother
        rw [hended, hstate, hsame, FileSystem.node?_put_other before _ (hother haccepted)]
        exact hadds.node place
      · rw [hended, hstate]
        exact hadds.workingDirectory

/-- No delivery puts anything in the place of a directory. -/
theorem keepsDirectories_deliver (d : Deposit) (fs : FileSystem) :
    (d.deliver fs).state.KeepsDirectories fs := by
  rcases d.course fs with ⟨_, hended⟩ | ⟨_, before, hadds, path, e, journal, hended⟩ |
    ⟨_, before, hadds, hwrite, journal, hended⟩
  · rw [hended]
    exact .refl fs
  · rw [hended]
    exact hadds.extends.keepsDirectories
  · obtain ⟨found, hresolve, hfree, _, hstate⟩ := FileSystem.filled_of_write hwrite
    have hplace : before.node? (before.placeOf d.target) ≠ some .directory := by
      rw [(FileSystem.node?_of_isFree hresolve hfree).2]
      exact hfree
    have hput := FileSystem.keepsDirectories_put d.content hplace
    rw [hended, hstate]
    exact hput.trans hadds.extends.keepsDirectories

/-- What a path had before a delivery it has behind it, unless that was accepted for the place where
the path leads. -/
theorem hasFile_deliver {path : String} {content : ByteArray} (d : Deposit)
    (h : fs.HasFile path content) :
    (d.deliver fs).state.HasFile path
      (if d.IsAccepted fs ∧ fs.placeOf d.target = fs.placeOf path then d.content else content) := by
  cases d.course fs with
  | misnamed hname hended =>
      have hnot : ¬d.IsAccepted fs := not_isAccepted (by rw [hended])
      rw [if_neg fun h => hnot h.1, hended]
      exact h
  | failed hname before hadds path e journal hended =>
      have hnot : ¬d.IsAccepted fs := not_isAccepted (by rw [hended])
      rw [if_neg fun h => hnot h.1, hended]
      exact h.of_extends hadds.extends
  | accepted hname before hadds hwrite journal hended =>
      have haccepted : d.IsAccepted fs := by rw [IsAccepted, hended]
      have hkept := (h.of_extends hadds.extends).of_write hwrite
      rw [placeOf_of_adds hadds, placeOf_of_adds hadds] at hkept
      rw [hended]
      by_cases hsame : fs.placeOf path = fs.placeOf d.target
      · rw [if_pos hsame] at hkept
        rw [if_pos ⟨haccepted, hsame.symm⟩]
        exact hkept
      · rw [if_neg hsame] at hkept
        rw [if_neg fun h => hsame h.2.symm]
        exact hkept

/-- Of two deliveries the second is what it should be, and so is the first unless it was written
over. -/
theorem hasFile_of_both (first second : Deposit) (hfirst : first.IsAccepted fs)
    (hsecond : second.IsAccepted (first.deliver fs).state) :
    (second.deliver (first.deliver fs).state).state.HasFile second.target second.content ∧
      (second.deliver (first.deliver fs).state).state.HasFile first.target
        (if fs.placeOf first.target = fs.placeOf second.target then second.content
          else first.content) := by
  have hexact := first.exact_deliver fs
  have hlast := (second.exact_deliver (first.deliver fs).state).written hsecond
  refine ⟨FileSystem.hasFile_iff.2 hlast.1, ?_⟩
  have hstays := second.hasFile_deliver (FileSystem.hasFile_iff.2 (hexact.written hfirst).1)
  rw [FileSystem.placeOf_eq_of_workingDirectory _ hexact.workingDirectory,
    FileSystem.placeOf_eq_of_workingDirectory _ hexact.workingDirectory] at hstays
  by_cases hsame : fs.placeOf first.target = fs.placeOf second.target
  · rw [if_pos ⟨hsecond, hsame.symm⟩] at hstays
    rw [if_pos hsame]
    exact hstays
  · rw [if_neg fun h => hsame h.2.symm] at hstays
    rw [if_neg hsame]
    exact hstays

end Deposit

/-! ## Sequences -/

namespace FileSystem

/-- The file system behind some deliveries. -/
def after (fs : FileSystem) (ds : List Deposit) : FileSystem :=
  ds.foldl (fun fs d => (d.deliver fs).state) fs

/-- The deliveries that are accepted, in order. -/
def accepted (fs : FileSystem) : List Deposit → List Deposit
  | [] => []
  | d :: rest =>
    (if d.IsAccepted fs then [d] else []) ++ accepted (d.deliver fs).state rest

/-- The last delivery that was accepted for a place. -/
def latest (fs : FileSystem) (ds : List Deposit) (place : List String) : Option Deposit :=
  ((fs.accepted ds).filter fun d => fs.placeOf d.target = place).getLast?

theorem after_concat (fs : FileSystem) (ds : List Deposit) (d : Deposit) :
    fs.after (ds ++ [d]) = (d.deliver (fs.after ds)).state := by
  rw [after, List.foldl_append]
  rfl

theorem accepted_concat (fs : FileSystem) (ds : List Deposit) (d : Deposit) :
    fs.accepted (ds ++ [d]) =
      fs.accepted ds ++ if d.IsAccepted (fs.after ds) then [d] else [] := by
  induction ds generalizing fs with
  | nil => exact List.append_nil _
  | cons first ds ih =>
      rw [List.cons_append, accepted, accepted, ih, List.append_assoc]
      rfl

theorem latest_nil (fs : FileSystem) (place : List String) : fs.latest [] place = none := rfl

/-- A delivery is the last for its place if it is accepted, and for no other. -/
theorem latest_concat (fs : FileSystem) (ds : List Deposit) (d : Deposit) (place : List String) :
    fs.latest (ds ++ [d]) place =
      if d.IsAccepted (fs.after ds) ∧ fs.placeOf d.target = place then some d
      else fs.latest ds place := by
  rw [latest, accepted_concat]
  by_cases hok : d.IsAccepted (fs.after ds)
  · rw [if_pos hok, List.filter_append]
    by_cases hplace : fs.placeOf d.target = place
    · have hlast : [d].filter (fun d => fs.placeOf d.target = place) = [d] :=
        List.filter_cons_of_pos (by simpa using hplace)
      rw [hlast, List.getLast?_concat, if_pos ⟨hok, hplace⟩]
    · have hnone : [d].filter (fun d => fs.placeOf d.target = place) = [] :=
        List.filter_cons_of_neg (by simpa using hplace)
      rw [hnone, List.append_nil, if_neg fun h => hplace h.2, latest]
  · rw [if_neg hok, List.append_nil, if_neg fun h => hok h.1, latest]

theorem workingDirectory_after (fs : FileSystem) (ds : List Deposit) :
    (fs.after ds).workingDirectory = fs.workingDirectory := by
  induction ds using List.reverseRecOn with
  | nil => rfl
  | append_singleton ds d ih =>
      rw [after_concat]
      exact (d.exact_deliver (fs.after ds)).workingDirectory.trans ih

theorem placeOf_after (fs : FileSystem) (ds : List Deposit) (path : String) :
    (fs.after ds).placeOf path = fs.placeOf path :=
  placeOf_eq_of_workingDirectory path (fs.workingDirectory_after ds)

/-- A place to which nothing was delivered is as it was, unless it was missing on the way to a
target: then it may have become a directory. -/
def Untouched (fs : FileSystem) (ds : List Deposit) (place : List String) : Prop :=
  (fs.after ds).node? place = fs.node? place ∨
    (fs.node? place = none ∧ (fs.after ds).node? place = some .directory ∧
      ∃ d ∈ ds, OnWay d.target fs.workingDirectory place)

theorem Untouched.concat {fs : FileSystem} {ds : List Deposit} {d : Deposit} {place : List String}
    (h : fs.Untouched ds place)
    (hlast : (d.deliver (fs.after ds)).state.node? place = (fs.after ds).node? place ∨
      ((fs.after ds).node? place = none ∧
        (d.deliver (fs.after ds)).state.node? place = some .directory ∧
        OnWay d.target (fs.after ds).workingDirectory place)) :
    fs.Untouched (ds ++ [d]) place := by
  have hgrow : (∃ e ∈ ds, OnWay e.target fs.workingDirectory place) →
      ∃ e ∈ ds ++ [d], OnWay e.target fs.workingDirectory place := by
    rintro ⟨e, he, hway⟩
    exact ⟨e, List.mem_append_left [d] he, hway⟩
  unfold Untouched at h ⊢
  rw [after_concat]
  rcases hlast with hsame | ⟨hvacant, hmade, hway⟩
  · rcases h with h | ⟨hvacant, hmade, hway⟩
    · exact .inl (hsame.trans h)
    · exact .inr ⟨hvacant, hsame.trans hmade, hgrow hway⟩
  · rcases h with h | ⟨_, hdirectory, _⟩
    · rw [workingDirectory_after] at hway
      exact .inr ⟨h.symm.trans hvacant, hmade, d, List.mem_append_right ds List.mem_cons_self, hway⟩
    · rw [hdirectory] at hvacant
      cases hvacant

/-- What stands at a place behind a sequence of deliveries. The induction is from the end of the
sequence, as the last delivery has the last word. -/
theorem node_after (fs : FileSystem) (ds : List Deposit) (place : List String) :
    match fs.latest ds place with
    | some last => (fs.after ds).node? place = some (.file last.content)
    | none => fs.Untouched ds place := by
  induction ds using List.reverseRecOn with
  | nil => exact .inl rfl
  | append_singleton ds d ih =>
      have hexact := d.exact_deliver (fs.after ds)
      have hother : ¬(d.IsAccepted (fs.after ds) ∧ fs.placeOf d.target = place) →
          d.IsAccepted (fs.after ds) → place ≠ (fs.after ds).placeOf d.target := by
        rintro hnot hok rfl
        exact hnot ⟨hok, (fs.placeOf_after ds d.target).symm⟩
      rw [latest_concat]
      split
      · rename_i last hlast
        by_cases haccepted : d.IsAccepted (fs.after ds) ∧ fs.placeOf d.target = place
        · rw [if_pos haccepted] at hlast
          obtain rfl := Option.some.inj hlast
          obtain ⟨hok, rfl⟩ := haccepted
          rw [after_concat, ← fs.placeOf_after ds]
          exact (hexact.written hok).2
        · -- the place has a file by now, so that no directory can be made there
          rw [if_neg haccepted] at hlast
          rw [hlast] at ih
          rw [after_concat]
          rcases hexact.others place (hother haccepted) with hsame | ⟨hvacant, _⟩
          · exact hsame.trans ih
          · rw [ih] at hvacant
            cases hvacant
      · rename_i hlast
        by_cases haccepted : d.IsAccepted (fs.after ds) ∧ fs.placeOf d.target = place
        · rw [if_pos haccepted] at hlast
          cases hlast
        · rw [if_neg haccepted] at hlast
          rw [hlast] at ih
          exact ih.concat (hexact.others place (hother haccepted))

/-- What was delivered to a target is read from it until something else is delivered to the same
place. -/
theorem hasFile_after {fs : FileSystem} {ds : List Deposit} {d : Deposit}
    (h : d ∈ fs.accepted ds) :
    ∃ last, fs.latest ds (fs.placeOf d.target) = some last ∧
      (fs.after ds).HasFile d.target last.content := by
  induction ds using List.reverseRecOn with
  | nil => cases h
  | append_singleton ds e ih =>
      rw [accepted_concat, List.mem_append] at h
      rw [latest_concat, after_concat]
      rcases h with h | h
      · obtain ⟨last, hlatest, hfile⟩ := ih h
        have hkept := e.hasFile_deliver hfile
        rw [placeOf_after, placeOf_after] at hkept
        split
        · rename_i hover
          rw [if_pos hover] at hkept
          exact ⟨e, rfl, hkept⟩
        · rename_i hother
          rw [if_neg hother] at hkept
          exact ⟨last, hlatest, hkept⟩
      · split at h
        · rename_i haccepted
          obtain rfl := List.mem_singleton.1 h
          have hread := ((d.exact_deliver (fs.after ds)).written haccepted).1
          exact ⟨d, if_pos ⟨haccepted, rfl⟩, hasFile_iff.2 hread⟩
        · cases h

/-! ## Mirrors behind a sequence -/

/-- Puts something behind what a file has. -/
def append (path : String) (more : ByteArray) : Action FileSystem OsError Unit := do
  let fs ← Action.get
  match fs.read path with
  | .error e => throw e
  | .ok content => write path (content ++ more)

theorem hasFile_append {fs : FileSystem} {path : String} {content : ByteArray}
    (h : fs.HasFile path content) (more : ByteArray) :
    (append path more fs).result = .ok () ∧
      (append path more fs).state.HasFile path (content ++ more) := by
  have happend : append path more fs = write path (content ++ more) fs := by
    rw [append, Action.get_bind_apply, hasFile_iff.1 h]
  rw [happend]
  exact ⟨h.write_ok _, hasFile_of_write (h.write_ok _)⟩

/-- The last delivery that a sink accepted. -/
def lastTo (fs : FileSystem) (ds : List Deposit) (outlet : Outlet) : Option Deposit :=
  ((fs.accepted ds).filter fun d => d.outlet = outlet).getLast?

/-- No other sink had an artifact accepted for the place where a mirror lies. -/
def MirrorsAlone (fs : FileSystem) (ds : List Deposit) (path : String) : Prop :=
  ∀ d ∈ fs.accepted ds, d.outlet ≠ .mirror path → fs.placeOf d.target ≠ fs.placeOf path

theorem latest_of_mirrorsAlone {fs : FileSystem} {ds : List Deposit} {path : String}
    (h : fs.MirrorsAlone ds path) :
    fs.latest ds (fs.placeOf path) = fs.lastTo ds (.mirror path) := by
  have hfilter : ((fs.accepted ds).filter fun d => fs.placeOf d.target = fs.placeOf path) =
      (fs.accepted ds).filter fun d => d.outlet = .mirror path := by
    refine List.filter_congr ?_
    intro d hd
    refine decide_eq_decide.2 ⟨?_, ?_⟩
    · intro hplace
      by_contra hother
      exact h d hd hother hplace
    · intro houtlet
      rw [Deposit.target, houtlet]
      rfl
  rw [latest, lastTo, hfilter]

/-- A mirror is read back as what it accepted last, whatever blanks were put behind it since. -/
theorem restored_after {fs : FileSystem} {ds : List Deposit} {path : String} {last : Deposit}
    (halone : fs.MirrorsAlone ds path) (hlast : fs.lastTo ds (.mirror path) = some last) :
    restore (fs.after ds) path = .ok last.bytes ∧
      ∀ blanks : String, Text.isBlankText blanks →
        (append path blanks.toUTF8 (fs.after ds)).result = .ok () ∧
          restore (append path blanks.toUTF8 (fs.after ds)).state path = .ok last.bytes := by
  have hmem := List.mem_of_getLast? hlast
  rw [List.mem_filter, decide_eq_true_eq] at hmem
  obtain ⟨haccepted, houtlet⟩ := hmem
  have htarget : last.target = path := by
    rw [Deposit.target, houtlet]
    rfl
  have hcontent : last.content = escaped last.bytes := by
    rw [Deposit.content, houtlet]
    rfl
  obtain ⟨found, hfound, hfile⟩ := hasFile_after haccepted
  rw [htarget, latest_of_mirrorsAlone halone, hlast] at hfound
  obtain rfl := Option.some.inj hfound
  rw [htarget, hcontent] at hfile
  refine ⟨Sink.restore_of_blanks (Sink.hasFile_empty_behind hfile) rfl, ?_⟩
  intro blanks hblanks
  obtain ⟨hresult, hmore⟩ := hasFile_append hfile blanks.toUTF8
  exact ⟨hresult, Sink.restore_of_blanks hmore hblanks⟩

/-! ## Deposits -/

/-- What a file system holds behind a sequence of deliveries. -/
structure HoldsLatest (fs : FileSystem) (ds : List Deposit) : Prop where
  /-- A place to which something was delivered is a file with the last of it, and nothing else. -/
  node : ∀ place,
    match fs.latest ds place with
    | some last => (fs.after ds).node? place = some (.file last.content)
    | none => fs.Untouched ds place
  target : ∀ d ∈ fs.accepted ds, ∃ last,
    fs.latest ds (fs.placeOf d.target) = some last ∧
      (fs.after ds).read d.target = .ok last.content
  restored : ∀ path last, fs.MirrorsAlone ds path → fs.lastTo ds (.mirror path) = some last →
    restore (fs.after ds) path = .ok last.bytes ∧
      ∀ blanks : String, Text.isBlankText blanks →
        (append path blanks.toUTF8 (fs.after ds)).result = .ok () ∧
          restore (append path blanks.toUTF8 (fs.after ds)).state path = .ok last.bytes

/-- Whatever is delivered to files and mirrors in any order, each delivery does what it should and
nothing else, and behind all of them each target holds what was accepted for it last. -/
theorem deposits_exact (fs : FileSystem) (ds : List Deposit) :
    (∀ front d back, ds = front ++ d :: back → d.Exact (fs.after front)) ∧ fs.HoldsLatest ds := by
  refine ⟨?_, ?_, ?_, ?_⟩
  · intro front d _ _
    exact d.exact_deliver (fs.after front)
  · exact fs.node_after ds
  · intro d hd
    obtain ⟨last, hlast, hfile⟩ := hasFile_after hd
    exact ⟨last, hlast, hasFile_iff.1 hfile⟩
  · intro path last halone hlast
    exact restored_after halone hlast

/-- A file is written twice, by different paths, and a mirror once; one name is refused. -/
def someDeposits : List Deposit :=
  [⟨.file "out", "a", ⟨#[1, 2, 3]⟩⟩, ⟨.mirror "out/text/m", "a", ⟨#[7]⟩⟩,
    ⟨.file "out", "../a", ⟨#[9]⟩⟩, ⟨.file "out/text/..", "a", ⟨#[4]⟩⟩]

example : ((empty []).accepted someDeposits).map Deposit.bytes =
    [⟨#[1, 2, 3]⟩, ⟨#[7]⟩, ⟨#[4]⟩] := by decide +kernel

example : ((empty []).latest someDeposits ["out", "a"]).map Deposit.content = some ⟨#[4]⟩ := by
  decide +kernel

end FileSystem

end CompilerHost
