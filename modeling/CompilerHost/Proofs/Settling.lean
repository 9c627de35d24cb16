import CompilerHost.Proofs.Naming
import CompilerHost.Proofs.Resolving

/-! # Paths that are settled

A path that is empty or absolute is settled: it stays as it is from wherever it is seen. Any other
path becomes settled once it is seen from an absolute base, and stays unsettled from any other. None
of that matters to the validation of a configuration, which is why it may come after.

* `Config.isSettled_resolvePath_iff`: what one base does to one path;
* `Config.fixed_iff`: the configurations that are the same from everywhere;
* `Config.loadValid_eq`: a file is judged by what is written in it;
* `Config.resolution_stable`: all bases, one after the other.
-/

namespace CompilerHost

theorem Path.join_ne_empty (base : String) {path : String} (hne : path ≠ "") :
    Path.join base path ≠ "" := by
  unfold Path.join
  split
  · exact hne
  · split
    · exact fun h => hne (String.append_eq_empty_iff.1 h).2
    · exact fun h => hne (String.append_eq_empty_iff.1 h).2

namespace Config

/-! ## One path -/

/-- A path that is not seen from anywhere. -/
def IsSettled (path : String) : Prop := path = "" ∨ Path.isAbsolute path = true

variable {base path : String} {c : Config}

theorem resolvePath_eq_empty_iff : resolvePath base path = "" ↔ path = "" := by
  unfold resolvePath
  split
  · rfl
  · rename_i hne
    exact iff_of_false (Path.join_ne_empty base hne) hne

theorem resolvePath_of_settled (h : IsSettled path) (base : String) :
    resolvePath base path = path := by
  unfold resolvePath
  split
  · rfl
  · rename_i hne
    rw [Path.join, if_pos (h.resolve_left hne)]

/-- What is seen from a base is settled if the base is absolute, and otherwise only if it was. -/
theorem isSettled_resolvePath_iff :
    IsSettled (resolvePath base path) ↔ Path.isAbsolute base = true ∨ IsSettled path := by
  by_cases hsettled : IsSettled path
  · rw [resolvePath_of_settled hsettled]
    exact iff_of_true hsettled (.inr hsettled)
  · obtain ⟨hne, hrelative⟩ := not_or.1 hsettled
    have hstart := FileSystem.isAbsolute_join_of_relative base (Bool.eq_false_iff.2 hrelative)
    have hjoin := Path.join_ne_empty base hne
    rw [resolvePath, if_neg hne, IsSettled, hstart]
    simp [hjoin, hsettled]

/-- Only settled paths are the same from everywhere: the root settles all. -/
theorem isSettled_iff : IsSettled path ↔ ∀ base, resolvePath base path = path := by
  constructor
  · exact resolvePath_of_settled
  · intro hsame
    rw [← hsame "/"]
    exact isSettled_resolvePath_iff.2 (.inl (by decide))

/-! ## All paths of a configuration -/

/-- A configuration stays as it is if its paths do: the rest of it is not looked at. -/
theorem resolvePaths_eq_self_iff :
    c.resolvePaths base = c ↔ ∀ p ∈ c.paths, resolvePath base p = p := by
  constructor
  · intro hsame
    have hpaths := paths_resolvePaths base c
    rw [hsame] at hpaths
    exact List.map_inj_left.1 (hpaths.symm.trans (List.map_id c.paths).symm)
  · intro hall
    simp only [paths, List.mem_cons, List.mem_append, Option.mem_toList] at hall
    have hmodule : resolvePath base c.module = c.module := hall _ (.inl rfl)
    have hdirectory : resolvePath base c.directory = c.directory := hall _ (.inr (.inr (.inl rfl)))
    have himage : c.image.map (resolvePath base) = c.image :=
      (Option.map_congr fun p hp => hall p (.inr (.inl hp))).trans (Option.map_id_apply ..)
    have hmirror : c.mirror.map (resolvePath base) = c.mirror :=
      (Option.map_congr fun p hp => hall p (.inr (.inr (.inr hp)))).trans (Option.map_id_apply ..)
    rw [resolvePaths, hmodule, hdirectory, himage, hmirror]

/-- The configurations that are the same from everywhere have settled paths. -/
theorem fixed_iff : (∀ base, c.resolvePaths base = c) ↔ ∀ p ∈ c.paths, IsSettled p := by
  simp only [resolvePaths_eq_self_iff, isSettled_iff]
  exact ⟨fun h p hp base => h base p hp, fun h base p hp => h p hp base⟩

theorem isSettled_paths_resolvePaths_iff :
    (∀ p ∈ (c.resolvePaths base).paths, IsSettled p) ↔
      Path.isAbsolute base = true ∨ ∀ p ∈ c.paths, IsSettled p := by
  rw [paths_resolvePaths, List.forall_mem_map]
  simp only [isSettled_resolvePath_iff]
  by_cases hbase : Path.isAbsolute base = true
  · simp [hbase]
  · simp [hbase]

/-- What one base leaves as it is, many do. -/
theorem resolvedFrom_of_fixed (h : ∀ base, c.resolvePaths base = c) (bases : List String) :
    c.resolvedFrom bases = c := by
  induction bases with
  | nil => rfl
  | cons base bases ih =>
      show (c.resolvePaths base).resolvedFrom bases = c
      rw [h base, ih]

/-! ## Validation -/

/-- Of the paths, validation looks at one, and only at whether it is empty. -/
theorem validate_resolvePaths (base : String) (c : Config) :
    (c.resolvePaths base).validate = c.validate := by
  have hmodule : (c.resolvePaths base).checkModule = c.checkModule := by
    have hempty : (c.resolvePaths base).module = "" ↔ c.module = "" := resolvePath_eq_empty_iff
    unfold checkModule
    simp only [hempty]
  rw [validate, validate, hmodule]
  rfl

theorem validate_resolvedFrom (bases : List String) (c : Config) :
    (c.resolvedFrom bases).validate = c.validate := by
  induction bases generalizing c with
  | nil => rfl
  | cons base bases ih => exact (ih (c.resolvePaths base)).trans (validate_resolvePaths base c)

/-- A file that can be read is judged by what is written in it, wherever it is. -/
theorem loadValid_eq {fs : FileSystem} {file text : String} {written : Config}
    (htext : fs.readText file = .ok text) (hparse : parse? text = some written) :
    ∃ seen, load fs file = .ok seen ∧
      loadValid fs file = written.validate.map fun _ => seen := by
  have hjudged : ∀ seen, load fs file = .ok seen → seen.validate = written.validate →
      loadValid fs file = written.validate.map fun _ => seen := by
    intro seen hload hvalidate
    rw [loadValid, hload, ← hvalidate]
    rfl
  cases hparent : Path.parent? file with
  | none =>
      have hload : load fs file = .ok written := by simp only [load, htext, hparse, hparent]
      exact ⟨written, hload, hjudged written hload rfl⟩
  | some base =>
      have hload : load fs file = .ok (written.resolvePaths base) := by
        simp only [load, htext, hparse, hparent]
      exact ⟨_, hload, hjudged _ hload (validate_resolvePaths base written)⟩

/-- A configuration gets the same verdict from wherever its paths are seen, base after base. Seen from
an absolute base, its paths then stay as they are from all others and from that one again. Seen from
any other base they do not, unless they were settled before. -/
theorem resolution_stable (c : Config) :
    (∀ bases, (c.resolvedFrom bases).validate = c.validate) ∧
      ∀ base, (∀ others, (c.resolvePaths base).resolvedFrom others = c.resolvePaths base) ↔
        Path.isAbsolute base = true ∨ ∀ p ∈ c.paths, IsSettled p := by
  refine ⟨fun bases => validate_resolvedFrom bases c, ?_⟩
  intro base
  rw [← isSettled_paths_resolvePaths_iff, ← fixed_iff]
  constructor
  · intro hstays other
    exact hstays [other]
  · exact resolvedFrom_of_fixed

end Config

end CompilerHost
