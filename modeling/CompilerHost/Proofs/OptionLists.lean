import CompilerHost.Proofs.JsonTexts

/-! # Lists of options

Options are made of entries and travel to the guest as a JSON text. Neither step loses or adds
anything that matters: an entry is kept but for the blanks around it, unless there is nothing but
blanks, and every decoder of JSON gives the entries back.

* `Text.trims_iff`: trimming leaves what stands between the blanks at both ends;
* `Options.keeps_iff`: which entries are kept, and as what;
* `Options.wire_form_faithful`: the options that entries make, and their way through JSON.
-/

namespace CompilerHost

namespace Text

/-! ## Trimming -/

/-- A text begins and ends with something that is not blank, if it is not empty. -/
structure IsBare (cs : List Char) : Prop where
  first : ∀ c, cs.head? = some c → isBlank c = false
  last : ∀ c, cs.getLast? = some c → isBlank c = false

/-- What is left of a text without the blanks around it. -/
structure Trims (text core : String) : Prop where
  bare : IsBare core.toList
  blanks : ∃ front back, text.toList = front ++ core.toList ++ back ∧
    ∀ c ∈ front ++ back, isBlank c = true

theorem trimEnd_eq_self {cs : List Char} (h : ∀ c, cs.getLast? = some c → isBlank c = false) :
    trimEnd cs = cs := by
  have hreverse : trimStart cs.reverse = cs.reverse := by
    refine trimStart_eq_self ?_
    intro c hc
    rw [List.head?_reverse] at hc
    exact h c hc
  rw [trimEnd_eq, hreverse, List.reverse_reverse]

theorem isBare_trim (cs : List Char) : IsBare (trim cs) where
  first := by
    intro c hc
    obtain ⟨t, ht⟩ := trimEnd_prefix (trimStart cs)
    have hhead : (trimStart cs).head? = some c := by
      change (trimEnd (trimStart cs)).head? = some c at hc
      rw [← ht, List.head?_append, hc]
      rfl
    exact isBlank_head_trimStart hhead
  last := by
    intro c hc
    rw [trim, trimEnd_eq, List.getLast?_reverse] at hc
    exact isBlank_head_trimStart hc

/-- Blanks at the front and at the back are all that goes. -/
theorem exists_blanks_trim (cs : List Char) :
    ∃ front back, cs = front ++ trim cs ++ back ∧ ∀ c ∈ front ++ back, isBlank c = true := by
  have hfront : cs = cs.takeWhile isBlank ++ trimStart cs := List.takeWhile_append_dropWhile.symm
  have hback : trimStart cs =
      trim cs ++ ((trimStart cs).reverse.takeWhile isBlank).reverse := by
    rw [trim, trimEnd, ← List.reverse_append, List.takeWhile_append_dropWhile,
      List.reverse_reverse]
  refine ⟨cs.takeWhile isBlank, ((trimStart cs).reverse.takeWhile isBlank).reverse, ?_, ?_⟩
  · rw [List.append_assoc, ← hback]
    exact hfront
  · intro c hc
    rcases List.mem_append.1 hc with hc | hc
    · exact List.mem_takeWhile_imp hc
    · exact List.mem_takeWhile_imp (List.mem_reverse.1 hc)

/-- Blanks that are put around a bare text are trimmed off again. -/
theorem trim_of_isBare {front core back : List Char} (hcore : IsBare core)
    (hblanks : ∀ c ∈ front ++ back, isBlank c = true) : trim (front ++ core ++ back) = core := by
  have hfront : ∀ c ∈ front, isBlank c = true := fun c hc =>
    hblanks c (List.mem_append_left back hc)
  have hback : ∀ c ∈ back.reverse, isBlank c = true := fun c hc =>
    hblanks c (List.mem_append_right front (List.mem_reverse.1 hc))
  have hstart : trimStart (front ++ core ++ back) = trimStart (core ++ back) := by
    rw [List.append_assoc, trimStart, List.dropWhile_append_of_pos hfront]
    rfl
  have hend : trimEnd (core ++ back) = trimEnd core := by
    rw [trimEnd, List.reverse_append, List.dropWhile_append_of_pos hback]
    rfl
  cases hempty : core with
  | nil =>
      -- there are nothing but blanks, and the first trimming takes them all
      have hnil : trimStart back = [] :=
        List.dropWhile_eq_nil_iff.2 fun c hc => hblanks c (List.mem_append_right front hc)
      rw [hempty, List.nil_append] at hstart
      rw [trim, hstart, hnil]
      rfl
  | cons c cs =>
      have hself : trimStart (core ++ back) = core ++ back := by
        refine trimStart_eq_self ?_
        intro d hd
        rw [hempty] at hd
        exact hcore.first d (by rw [hempty]; exact hd)
      rw [← hempty, trim, hstart, hself, hend, trimEnd_eq_self hcore.last]

/-- Trimming leaves what stands between the blanks at both ends. -/
theorem trims_iff {text core : String} : Trims text core ↔ trimmed text = core := by
  constructor
  · rintro ⟨hbare, front, back, htext, hblanks⟩
    rw [trimmed, htext, trim_of_isBare hbare hblanks, String.ofList_toList]
  · rintro rfl
    obtain ⟨front, back, htext, hblanks⟩ := exists_blanks_trim text.toList
    refine ⟨?_, front, back, ?_, hblanks⟩
    · rw [trimmed, String.toList_ofList]
      exact isBare_trim text.toList
    · rw [trimmed, String.toList_ofList]
      exact htext

end Text

namespace Options

open Text

/-! ## Entries -/

/-- Which entries are kept, and as what: those that do not trim to nothing, as what they trim to,
in their order. -/
inductive Keeps : List String → List String → Prop where
  | nil : Keeps [] []
  | blank {e : String} {entries kept : List String} (h : Trims e "") (hrest : Keeps entries kept) :
      Keeps (e :: entries) kept
  | flag {e core : String} {entries kept : List String} (h : Trims e core) (hne : core ≠ "")
      (hrest : Keeps entries kept) : Keeps (e :: entries) (core :: kept)

theorem ofEntries_cons_of_blank {e : String} (entries : List String) (h : trimmed e = "") :
    (ofEntries (e :: entries)).entries = (ofEntries entries).entries := by
  simp [ofEntries, h]

theorem ofEntries_cons_of_flag {e : String} (entries : List String) (h : trimmed e ≠ "") :
    (ofEntries (e :: entries)).entries = trimmed e :: (ofEntries entries).entries := by
  simp [ofEntries, h]

/-- The options that entries make are the entries that are kept. -/
theorem keeps_iff {entries kept : List String} :
    Keeps entries kept ↔ (ofEntries entries).entries = kept := by
  constructor
  · intro h
    induction h with
    | nil => rfl
    | blank hblank _ ih => rw [ofEntries_cons_of_blank _ (trims_iff.1 hblank), ih]
    | flag hcore hne _ ih =>
        obtain rfl := trims_iff.1 hcore
        rw [ofEntries_cons_of_flag _ hne, ih]
  · rintro rfl
    induction entries with
    | nil => exact .nil
    | cons e entries ih =>
        by_cases hblank : trimmed e = ""
        · rw [ofEntries_cons_of_blank _ hblank]
          exact .blank (trims_iff.2 hblank) ih
        · rw [ofEntries_cons_of_flag _ hblank]
          exact .flag (trims_iff.2 rfl) hblank ih

theorem ofEntries_append (a b : List String) :
    (ofEntries (a ++ b)).entries = (ofEntries a).entries ++ (ofEntries b).entries := by
  simp [ofEntries]

/-- Every entry that is kept is bare, and not empty. -/
theorem trims_of_mem {entries : List String} {e : String} (h : e ∈ (ofEntries entries).entries) :
    Trims e e ∧ e ≠ "" := by
  obtain ⟨htrimmed, hne⟩ := (ofEntries entries).trimmed_entries e h
  exact ⟨trims_iff.2 htrimmed, hne⟩

/-- Entries that were kept once are kept as they are. -/
theorem ofEntries_entries (o : Options) : ofEntries o.entries = o := by
  ext1
  have hkeeps : ∀ entries : List String, (∀ e ∈ entries, trimmed e = e ∧ e ≠ "") →
      Keeps entries entries := by
    intro entries h
    induction entries with
    | nil => exact .nil
    | cons e entries ih =>
        obtain ⟨htrimmed, hne⟩ := h e List.mem_cons_self
        exact .flag (trims_iff.2 htrimmed) hne (ih fun e he => h e (List.mem_cons_of_mem _ he))
  exact keeps_iff.1 (hkeeps o.entries o.trimmed_entries)

/-! ## The way through JSON -/

/-- The JSON text of options is an array of their entries. -/
theorem spellsArray_json (o : Options) :
    Json.SpellsArray o.json.toList (o.entries.map String.toList) := by
  rw [json, Json.print, String.toList_ofList]
  exact Json.spellsArray_printArray _

theorem decode_json {decode : String → Option (List String)} (h : Json.Conforming decode)
    (o : Options) : decode o.json = some o.entries :=
  h o.json o.entries o.spellsArray_json

/-- Options that travel as the same text are the same. -/
theorem json_injective {o p : Options} (h : o.json = p.json) : o = p := by
  have ho := decode_json Json.conforming_parse? o
  have hp := decode_json Json.conforming_parse? p
  rw [h, hp] at ho
  exact (ext (Option.some.inj ho)).symm

/-- Options are the entries that are kept of those that were given, in their order; making them of
their own entries changes nothing, and lists of entries may be put together before or after. Their
JSON text is an array of strings in which every conforming decoder finds the entries, so that they
can be made again from it and no other options travel as the same text. There are such decoders:
the reader is one. -/
theorem wire_form_faithful :
    (∀ entries kept, Keeps entries kept ↔ (ofEntries entries).entries = kept) ∧
    (∀ entries, ∀ e ∈ (ofEntries entries).entries, Trims e e ∧ e ≠ "") ∧
    (∀ o : Options, ofEntries o.entries = o) ∧
    (∀ a b, (ofEntries (a ++ b)).entries = (ofEntries a).entries ++ (ofEntries b).entries) ∧
    (∀ o : Options, Json.SpellsArray o.json.toList (o.entries.map String.toList) ∧
      ∀ decode, Json.Conforming decode →
        decode o.json = some o.entries ∧ (decode o.json).map ofEntries = some o) ∧
    (∀ o p : Options, o.json = p.json → o = p) ∧
    Json.Conforming Json.parse? := by
  refine ⟨fun _ _ => keeps_iff, fun _ _ => trims_of_mem, ofEntries_entries, ofEntries_append, ?_,
    fun _ _ => json_injective, Json.conforming_parse?⟩
  intro o
  refine ⟨o.spellsArray_json, ?_⟩
  intro decode hconforms
  have hdecode := decode_json hconforms o
  refine ⟨hdecode, ?_⟩
  rw [hdecode, Option.map_some, ofEntries_entries]

end Options

end CompilerHost
