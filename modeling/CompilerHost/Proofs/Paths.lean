import CompilerHost.Proofs.Files

/-! # Names on a path

A path goes by the names between its slashes. To put a path behind another is to put its names
there, and the path above another one has its names but for the last.

* `Path.segments_append_slash`: a slash is where the texts of a path are cut;
* `FileSystem.placeOf_join_of_relative`: what is joined to a base leads where it leads from there;
* `Path.Above`, `Path.above_of_parent`: a path above another starts where that does, and goes a part
  of its way;
* `FileSystem.OnWay`: the places that a path comes by.
-/

namespace CompilerHost

namespace Path

/-! ## Segments -/

theorem segments_ne_nil (cs : List Char) : segments cs ≠ [] := by
  cases cs with
  | nil => exact List.cons_ne_nil _ _
  | cons c cs =>
      unfold segments
      split
      · exact List.cons_ne_nil _ _
      · split
        · exact List.cons_ne_nil _ _
        · exact List.cons_ne_nil _ _

theorem segments_cons_of_ne {c : Char} {cs first : List Char} {rest : List (List Char)}
    (hc : c ≠ '/') (h : segments cs = first :: rest) :
    segments (c :: cs) = (c :: first) :: rest := by
  rw [segments, if_neg hc, h]

theorem segments_slash (cs : List Char) : segments ('/' :: cs) = [] :: segments cs := rfl

/-- A slash is where the texts are cut. The induction is on what is before it. -/
theorem segments_append_slash (cs ds : List Char) :
    segments (cs ++ '/' :: ds) = segments cs ++ segments ds := by
  induction cs with
  | nil => rfl
  | cons c cs ih =>
      by_cases hc : c = '/'
      · rw [hc, List.cons_append, segments_slash, segments_slash, ih, List.cons_append]
      · obtain ⟨first, rest, hsegments⟩ := List.exists_cons_of_ne_nil (segments_ne_nil cs)
        have hrest : segments (cs ++ '/' :: ds) = first :: (rest ++ segments ds) := by
          rw [ih, hsegments, List.cons_append]
        rw [List.cons_append, segments_cons_of_ne hc hrest, segments_cons_of_ne hc hsegments,
          List.cons_append]

theorem segments_of_notMem {s : List Char} (h : '/' ∉ s) : segments s = [s] := by
  induction s with
  | nil => rfl
  | cons c cs ih =>
      have hc : c ≠ '/' := fun hslash => h (hslash ▸ List.mem_cons_self)
      exact segments_cons_of_ne hc (ih fun hmem => h (List.mem_cons_of_mem c hmem))

theorem notMem_of_mem_segments {cs s : List Char} (h : s ∈ segments cs) : '/' ∉ s := by
  induction cs generalizing s with
  | nil =>
      obtain rfl := List.mem_singleton.1 h
      exact List.not_mem_nil
  | cons c cs ih =>
      by_cases hc : c = '/'
      · rw [hc, segments_slash, List.mem_cons] at h
        rcases h with rfl | h
        · exact List.not_mem_nil
        · exact ih h
      · obtain ⟨first, rest, hsegments⟩ := List.exists_cons_of_ne_nil (segments_ne_nil cs)
        rw [segments_cons_of_ne hc hsegments, List.mem_cons] at h
        rcases h with rfl | h
        · have hfirst := ih (s := first) (by rw [hsegments]; exact List.mem_cons_self)
          rw [List.mem_cons, not_or]
          exact ⟨Ne.symm hc, hfirst⟩
        · exact ih (by rw [hsegments]; exact List.mem_cons_of_mem first h)

/-- The texts that are names. -/
def steps (cs : List Char) : List (List Char) := (segments cs).filter (· ≠ [])

theorem steps_append_slash (cs ds : List Char) :
    steps (cs ++ '/' :: ds) = steps cs ++ steps ds := by
  rw [steps, segments_append_slash, List.filter_append]
  rfl

/-- Texts with slashes between them are the texts that they were, but for the empty ones. -/
theorem steps_unsegments {segs : List (List Char)} (h : ∀ s ∈ segs, '/' ∉ s) :
    steps (unsegments segs) = segs.filter (· ≠ []) := by
  induction segs with
  | nil => rfl
  | cons s segs ih =>
      have hs := h s List.mem_cons_self
      cases segs with
      | nil => rw [unsegments, steps, segments_of_notMem hs]
      | cons t rest =>
          have hrest := ih fun u hu => h u (List.mem_cons_of_mem s hu)
          have hcut : unsegments (s :: t :: rest) = s ++ '/' :: unsegments (t :: rest) := rfl
          rw [hcut, steps_append_slash, hrest, steps, segments_of_notMem hs, ← List.filter_append]
          rfl

/-! ## Parents -/

/-- One path is above another: it starts from the same place and has some of the names on the way,
from the first on. -/
structure Above (upper path : String) : Prop where
  start : isAbsolute upper = isAbsolute path
  way : FileSystem.names upper <+: FileSystem.names path

theorem Above.refl (path : String) : Above path path := ⟨rfl, List.prefix_refl _⟩

theorem Above.trans {upper middle path : String} (h : Above upper middle) (h' : Above middle path) :
    Above upper path := ⟨h.start.trans h'.start, h.way.trans h'.way⟩

theorem names_eq (path : String) :
    FileSystem.names path = (steps path.toList).map String.ofList := rfl

theorem dropTrivialEnd_isPrefix (segs : List (List Char)) : dropTrivialEnd segs <+: segs := by
  have hsuffix := List.dropWhile_suffix isTrivial (l := segs.reverse)
  rw [← List.reverse_prefix, List.reverse_reverse] at hsuffix
  exact hsuffix

/-- The last text that is kept leads somewhere. -/
theorem isTrivial_getLast_dropTrivialEnd {segs : List (List Char)} {last : List Char}
    (h : (dropTrivialEnd segs).getLast? = some last) : isTrivial last = false := by
  rw [dropTrivialEnd, List.getLast?_reverse] at h
  have hhead := List.head?_dropWhile_not isTrivial segs.reverse
  rw [h] at hhead
  simpa using hhead

/-- What is kept of some texts in the parent of a path is the beginning of them, and less than all
names among them. -/
theorem filter_isPrefix_of_kept {segs kept : List (List Char)} (hkept : dropTrivialEnd segs = kept)
    (hne : kept ≠ []) :
    (dropTrivialEnd kept.dropLast).filter (· ≠ []) <+: (segs.filter (· ≠ [])).dropLast := by
  obtain ⟨front, last, rfl⟩ := (List.eq_nil_or_concat kept).resolve_left hne
  rw [List.concat_eq_append] at hkept ⊢
  have hlast : last ≠ [] := by
    rintro rfl
    have htrivial := isTrivial_getLast_dropTrivialEnd
      (by rw [hkept, List.getLast?_concat] : (dropTrivialEnd segs).getLast? = some [])
    cases htrivial
  have hfront : (dropTrivialEnd front).filter (· ≠ []) <+: front.filter (· ≠ []) :=
    (dropTrivialEnd_isPrefix front).filter _
  obtain ⟨back, hback⟩ := dropTrivialEnd_isPrefix segs
  have hsegs : (segs.filter (· ≠ [])).dropLast =
      front.filter (· ≠ []) ++ (last :: back.filter (· ≠ [])).dropLast := by
    have hnamed : (last :: back).filter (· ≠ []) = last :: back.filter (· ≠ []) :=
      List.filter_cons_of_pos (by simpa using hlast)
    rw [← hback, hkept, List.append_assoc, List.filter_append, List.singleton_append, hnamed,
      List.dropLast_append_of_ne_nil (List.cons_ne_nil _ _)]
  rw [List.dropLast_concat, hsegs]
  exact hfront.trans (List.prefix_append _ _)

/-- The ways in which a path may start before its first name. -/
inductive Anchored : List Char → List Char → List Char → Prop where
  | root (rest : List Char) : Anchored ('/' :: rest) ['/'] rest
  | dot : Anchored ['.'] ['.'] []
  | dotted (rest : List Char) : Anchored ('.' :: '/' :: rest) ['.'] ('/' :: rest)
  | bare (cs : List Char) (hcs : cs.head? ≠ some '/') : Anchored cs [] cs

theorem anchored (cs : List Char) : Anchored cs (anchor cs).1 (anchor cs).2 := by
  unfold anchor
  split
  · exact .root _
  · exact .dot
  · exact .dotted _
  · rename_i hroot hdot hdotted
    refine .bare cs ?_
    intro hslash
    obtain ⟨rest, rfl⟩ := List.head?_eq_some_iff.1 hslash
    exact hroot rest rfl

theorem parent_eq {path parent : String} (h : parent? path = some parent) :
    ((anchor path.toList).1 = ['.'] ∧ parent = "") ∨
      ∃ kept, dropTrivialEnd (segments (anchor path.toList).2) = kept ∧ kept ≠ [] ∧
        parent = String.ofList
          ((anchor path.toList).1 ++ unsegments (dropTrivialEnd kept.dropLast)) := by
  unfold parent? at h
  simp only at h
  split at h
  · split at h
    · rename_i hdot
      exact .inl ⟨hdot, (Option.some.inj h).symm⟩
    · cases h
  · rename_i kept hne
    exact .inr ⟨_, rfl, hne, (Option.some.inj h).symm⟩

/-- What is kept of the texts of a path with no slash at its start has none either. -/
theorem head_unsegments {cs : List Char} {segs : List (List Char)} (h : segs <+: segments cs)
    (hcs : cs.head? ≠ some '/') : (unsegments segs).head? ≠ some '/' := by
  have hfirst : ∀ {s : List Char} {rest : List (List Char)}, s.head? ≠ some '/' →
      (s = [] → rest = []) → (unsegments (s :: rest)).head? ≠ some '/' := by
    intro s rest hs hnil
    cases rest with
    | nil => exact hs
    | cons t rest =>
        cases s with
        | nil => cases hnil rfl
        | cons c s => exact hs
  cases segs with
  | nil => exact nofun
  | cons s rest =>
      cases cs with
      | nil =>
          obtain ⟨rfl, hrest⟩ := List.cons_prefix_cons.1 h
          exact hfirst nofun fun _ => List.prefix_nil.1 hrest
      | cons c cs =>
          have hc : c ≠ '/' := fun hslash => hcs (by rw [hslash]; rfl)
          obtain ⟨first, others, hsegments⟩ := List.exists_cons_of_ne_nil (segments_ne_nil cs)
          rw [segments_cons_of_ne hc hsegments] at h
          obtain ⟨rfl, _⟩ := List.cons_prefix_cons.1 h
          exact hfirst hcs nofun

/-- Behind a leading dot stand the names, if there are any. -/
theorem steps_dot_unsegments {rest : List Char} {segs kept : List (List Char)}
    (hsegs : segs <+: segments ('/' :: rest)) (hkept : dropTrivialEnd kept = segs) :
    steps ('.' :: unsegments segs) = ['.'] :: segs.filter (· ≠ []) := by
  cases segs with
  | nil => rfl
  | cons s others =>
      obtain ⟨rfl, hothers⟩ := List.cons_prefix_cons.1 hsegs
      cases others with
      | nil =>
          -- a text that leads nowhere would not have been kept
          have hlast := isTrivial_getLast_dropTrivialEnd
            (by rw [hkept]; rfl : (dropTrivialEnd kept).getLast? = some [])
          cases hlast
      | cons t others =>
          have hslashed : ∀ u ∈ t :: others, '/' ∉ u := fun u hu =>
            notMem_of_mem_segments (hothers.subset hu)
          have hcut : '.' :: unsegments ([] :: t :: others) =
              ['.'] ++ '/' :: unsegments (t :: others) := rfl
          rw [hcut, steps_append_slash, steps_unsegments hslashed]
          rfl

theorem filter_ne_nil_of_kept {segs : List (List Char)} (h : dropTrivialEnd segs ≠ []) :
    segs.filter (· ≠ []) ≠ [] := by
  obtain ⟨last, hlast⟩ := Option.isSome_iff_exists.1 (List.getLast?_isSome.2 h)
  have hkept := isTrivial_getLast_dropTrivialEnd hlast
  have hmem : last ∈ segs := (dropTrivialEnd_isPrefix segs).subset (List.mem_of_getLast? hlast)
  refine List.ne_nil_of_mem (List.mem_filter.2 ⟨hmem, ?_⟩)
  refine decide_eq_true ?_
  rintro rfl
  cases hkept

theorem isPrefix_of_kept (segs : List (List Char)) :
    dropTrivialEnd (dropTrivialEnd segs).dropLast <+: segs :=
  (dropTrivialEnd_isPrefix _).trans ((List.dropLast_prefix _).trans (dropTrivialEnd_isPrefix segs))

/-- A path whose end is left out starts as it did, and has fewer names. -/
theorem steps_of_anchored {cs start body : List Char} (hanchored : Anchored cs start body)
    (hne : dropTrivialEnd (segments body) ≠ []) :
    ((start ++ unsegments (dropTrivialEnd (dropTrivialEnd (segments body)).dropLast)).head? =
        some '/' ↔ cs.head? = some '/') ∧
      steps (start ++ unsegments (dropTrivialEnd (dropTrivialEnd (segments body)).dropLast)) <+:
        (steps cs).dropLast := by
  have hkept := isPrefix_of_kept (segments body)
  have hnames := filter_isPrefix_of_kept rfl hne
  have hslashless : ∀ s ∈ dropTrivialEnd (dropTrivialEnd (segments body)).dropLast, '/' ∉ s :=
    fun s hs => notMem_of_mem_segments (hkept.subset hs)
  rw [← steps_unsegments hslashless] at hnames
  cases hanchored with
  | root rest => exact ⟨Iff.rfl, hnames⟩
  | dot => exact absurd rfl hne
  | dotted rest =>
      have hsteps : steps ('.' :: '/' :: rest) = ['.'] :: steps ('/' :: rest) := rfl
      have hsome : steps ('/' :: rest) ≠ [] := filter_ne_nil_of_kept hne
      refine ⟨by simp, ?_⟩
      rw [List.singleton_append, steps_dot_unsegments hkept rfl, ← steps_unsegments hslashless,
        hsteps, List.dropLast_cons_of_ne_nil hsome]
      exact List.cons_prefix_cons.2 ⟨rfl, hnames⟩
  | bare cs hcs => exact ⟨iff_of_false (head_unsegments hkept hcs) hcs, hnames⟩

/-- The parent of a path starts where the path does, and has its first names, but not the last. -/
theorem above_of_parent {path parent : String} (h : parent? path = some parent) :
    isAbsolute parent = isAbsolute path ∧
      FileSystem.names parent <+: (FileSystem.names path).dropLast := by
  rcases parent_eq h with ⟨hdot, rfl⟩ | ⟨kept, rfl, hne, rfl⟩
  · refine ⟨?_, List.nil_prefix⟩
    -- a path that starts with a dot is as little absolute as the empty one
    have hanchored := anchored path.toList
    have hhead : path.toList.head? ≠ some '/' := by
      rw [hdot] at hanchored
      generalize path.toList = cs at hanchored ⊢
      cases hanchored with
      | dot => nofun
      | dotted rest => nofun
    exact (decide_eq_false hhead).symm
  · obtain ⟨hstart, hnames⟩ := steps_of_anchored (anchored path.toList) hne
    rw [isAbsolute, isAbsolute, names_eq, names_eq, ← List.map_dropLast, String.toList_ofList]
    exact ⟨decide_eq_decide.2 hstart, hnames.map _⟩

/-- All paths above one are above it. The induction is on how many of them are looked at. -/
theorem above_of_mem_ancestors {path upper : String} {n : Nat} (h : upper ∈ ancestors path n) :
    Above upper path := by
  induction n generalizing path with
  | zero => cases h
  | succ n ih =>
      rcases List.mem_cons.1 h with rfl | h
      · exact .refl upper
      · cases hparent : parent? path with
        | none =>
            rw [hparent] at h
            cases h
        | some parent =>
            rw [hparent] at h
            obtain ⟨hstart, hway⟩ := above_of_parent hparent
            exact (ih h).trans ⟨hstart, hway.trans (List.dropLast_prefix _)⟩

end Path

namespace FileSystem

/-! ## Paths behind a base -/

theorem placeFrom_append (place front back : List String) :
    placeFrom place (front ++ back) = placeFrom (placeFrom place front) back := by
  induction front generalizing place with
  | nil => rfl
  | cons name front ih =>
      simp only [List.cons_append, placeFrom]
      split
      · exact ih _
      · split
        · exact ih _
        · exact ih _

section Join

variable {path name : String} (base : String)

/-- A relative path behind a base has the names of both. -/
theorem names_join_of_relative (hrelative : Path.isAbsolute path = false) :
    names (Path.join base path) = names base ++ names path := by
  have hnames : ∀ cs, (Path.steps (cs ++ '/' :: path.toList)).map String.ofList =
      (Path.steps cs).map String.ofList ++ names path := by
    intro cs
    rw [Path.steps_append_slash, List.map_append, Path.names_eq]
  rw [Path.names_eq, Path.names_eq base, ← hnames, Path.join, hrelative]
  split
  · contradiction
  · split
    · rename_i hend
      rw [String.toList_append]
      rcases hend with hnil | hend
      · rw [List.getLast?_eq_none_iff.1 hnil]
        rfl
      · -- the slash at the end of the base is the one behind it
        obtain ⟨front, hfront⟩ := List.getLast?_eq_some_iff.1 hend
        rw [hfront, List.append_assoc, List.append_assoc, List.singleton_append,
          List.singleton_append, Path.steps_append_slash, Path.steps_append_slash]
        rfl
    · rw [String.toList_append, String.toList_append, List.append_assoc]
      rfl

/-- A relative path behind a base starts where the base does. -/
theorem isAbsolute_join_of_relative (hrelative : Path.isAbsolute path = false) :
    Path.isAbsolute (Path.join base path) = Path.isAbsolute base := by
  unfold Path.join
  rw [hrelative]
  split
  · contradiction
  · split
    · cases hlist : base.toList with
      | nil =>
          rw [String.toList_eq_nil_iff.1 hlist, String.empty_append, hrelative]
          rfl
      | cons c cs =>
          rw [Path.isAbsolute, Path.isAbsolute, String.toList_append, hlist]
          rfl
    · rename_i hend
      cases hlist : base.toList with
      | nil => exact absurd (.inl (by rw [hlist]; rfl)) hend
      | cons c cs =>
          rw [Path.isAbsolute, Path.isAbsolute, String.toList_append, String.toList_append, hlist]
          rfl

/-- A relative path behind a base leads where it leads from there. -/
theorem placeOf_join_of_relative (fs : FileSystem) (hrelative : Path.isAbsolute path = false) :
    fs.placeOf (Path.join base path) = placeFrom (fs.placeOf base) (names path) := by
  rw [placeOf, placeOf, names_join_of_relative base hrelative, placeFrom_append, origin, origin,
    isAbsolute_join_of_relative base hrelative]

/-! ## Names behind a base -/

theorem isAbsolute_of_notMem (hslash : '/' ∉ name.toList) : Path.isAbsolute name = false := by
  refine decide_eq_false ?_
  intro hhead
  exact hslash (List.mem_of_head? hhead)

/-- A name is the only one of the path that it is. -/
theorem names_of_notMem (hslash : '/' ∉ name.toList) (hne : name ≠ "") : names name = [name] := by
  have hlist : name.toList ≠ [] := fun hnil => hne (String.toList_eq_nil_iff.1 hnil)
  have hsteps : Path.steps name.toList = [name.toList] := by
    rw [Path.steps, Path.segments_of_notMem hslash]
    exact List.filter_cons_of_pos (by simpa using hlist)
  rw [Path.names_eq, hsteps, List.map_singleton, String.ofList_toList]

/-- A name behind a path is one name more. -/
theorem names_join (hslash : '/' ∉ name.toList) (hne : name ≠ "") :
    names (Path.join base name) = names base ++ [name] := by
  rw [names_join_of_relative base (isAbsolute_of_notMem hslash), names_of_notMem hslash hne]

/-- A name that leads down leads from where a path leads into what is there. -/
theorem placeOf_join (fs : FileSystem) (hslash : '/' ∉ name.toList) (hne : name ≠ "")
    (hhere : name ≠ ".") (hup : name ≠ "..") :
    fs.placeOf (Path.join base name) = fs.placeOf base ++ [name] := by
  rw [placeOf_join_of_relative base fs (isAbsolute_of_notMem hslash), names_of_notMem hslash hne,
    placeFrom, if_neg hhere, if_neg hup, placeFrom]

end Join

/-! ## Directories on the way -/

open CompilerHost.Action (Respects)

/-- The places that a path comes by before its last name, whatever its names are. -/
def OnWay (path : String) (workingDirectory place : List String) : Prop :=
  ∃ front, front <+: (names path).dropLast ∧
    place = placeFrom (if Path.isAbsolute path then [] else workingDirectory) front

/-- To make directories above a path is to make some that it comes by. -/
theorem adds_makeDirectories {path target : String}
    (hstart : Path.isAbsolute path = Path.isAbsolute target)
    (hway : names path <+: (names target).dropLast) :
    Respects (Adds (OnWay target)) (makeDirectories path) := by
  refine adds_makeFirst ?_
  intro upper hupper fs
  have habove := Path.above_of_mem_ancestors hupper
  refine ⟨names upper, habove.way.trans hway, ?_⟩
  rw [placeOf, origin, habove.start, hstart]

theorem adds_makeParents_onWay (path : String) :
    Respects (Adds (OnWay path)) (makeParents path) := by
  refine adds_makeParents ?_
  intro parent hparent
  obtain ⟨hstart, hway⟩ := Path.above_of_parent hparent
  exact adds_makeDirectories hstart hway

theorem adds_makeDirectories_join {base name : String} (hslash : '/' ∉ name.toList)
    (hne : name ≠ "") :
    Respects (Adds (OnWay (Path.join base name))) (makeDirectories base) := by
  have hrelative := isAbsolute_of_notMem hslash
  refine adds_makeDirectories (isAbsolute_join_of_relative base hrelative).symm ?_
  exact ⟨[], by rw [List.append_nil, names_join base hslash hne, List.dropLast_concat]⟩

end FileSystem

end CompilerHost
