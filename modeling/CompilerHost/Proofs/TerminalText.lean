import CompilerHost.Proofs.LogUse

/-! # Text for terminals

A terminal is shown a block as its text with a line end behind it, and a carriage return before each
line feed. That is one expansion, of the text with one more line feed. It is taken back by dropping
the carriage return right before each line feed, and no other: what the text itself has of them
stands farther off, or before no line feed at all.

* `Terminal.contract_expand` and `Terminal.expand_contract`: taking back what was put in, and
  putting in what was taken back;
* `Terminal.exists_terminalText_iff`: which texts are shown;
* `Terminal.terminalText_intercalate`: lines are shown alike together and one by one;
* `Log.journal_oneByOne_cons`: the blocks that a log makes of texts that it gets one by one;
* `Log.terminalText_lossless`: all of it, of texts and of logs.
-/

namespace CompilerHost

namespace Terminal

/-! ## Expansion -/

/-- The end of a line on a terminal. -/
def lineEnd : List Char := ['\r', '\n']

/-- Characters as a terminal wants them. -/
def expand (cs : List Char) : List Char := cs.flatMap fun c => if c = '\n' then lineEnd else [c]

theorem expand_lineFeed (cs : List Char) : expand ('\n' :: cs) = '\r' :: '\n' :: expand cs := rfl

theorem expand_cons_of_ne {c : Char} (hc : c ≠ '\n') (cs : List Char) :
    expand (c :: cs) = c :: expand cs := by
  rw [expand, List.flatMap_cons, if_neg hc]
  rfl

theorem expand_append (cs ds : List Char) : expand (cs ++ ds) = expand cs ++ expand ds :=
  List.flatMap_append

/-- No expansion starts with a line feed. -/
theorem head_expand (cs : List Char) : (expand cs).head? ≠ some '\n' := by
  cases cs with
  | nil => exact nofun
  | cons c cs =>
      by_cases hc : c = '\n'
      · rw [hc, expand_lineFeed]
        intro h
        cases h
      · rw [expand_cons_of_ne hc]
        intro h
        exact hc (Option.some.inj h)

/-- The line end behind a text is the expansion of one more line feed. -/
theorem toList_terminalText (text : String) :
    (terminalText text).toList = expand (text.toList ++ ['\n']) := by
  rw [expand_append, terminalText, String.toList_append, String.toList_ofList]
  rfl

/-! ## Taking it back -/

/-- Characters without the carriage return before each line feed. -/
def contract : List Char → List Char
  | [] => []
  | '\r' :: '\n' :: cs => '\n' :: contract cs
  | c :: cs => c :: contract cs

theorem contract_cons {cs : List Char} (h : cs.head? ≠ some '\n') (c : Char) :
    contract (c :: cs) = c :: contract cs := by
  rw [contract]
  rintro rest - rfl
  exact h rfl

/-- An expansion is taken back whole, whatever carriage returns there are in the text: the one right
before a line feed was put there. -/
theorem contract_expand (cs : List Char) : contract (expand cs) = cs := by
  induction cs with
  | nil => rfl
  | cons c cs ih =>
      by_cases hc : c = '\n'
      · rw [hc, expand_lineFeed, contract, ih]
      · rw [expand_cons_of_ne hc, contract_cons (head_expand cs), ih]

/-! ## Expanded texts -/

/-- A carriage return stands right before each line feed. -/
def Returned (cs : List Char) : Prop :=
  ∀ before after, cs = before ++ '\n' :: after → before.getLast? = some '\r'

theorem returned_lineEnd_iff {cs : List Char} : Returned ('\r' :: '\n' :: cs) ↔ Returned cs := by
  constructor
  · intro h before after hcs
    have hlast := h ('\r' :: '\n' :: before) after (by rw [hcs]; rfl)
    -- a line feed right behind the line end has that one's line feed before it
    cases before with
    | nil => cases hlast
    | cons c before => exact hlast
  · intro h before after hcs
    -- the line feed that is meant is not at the front: it is that of the line end, or in the rest
    rcases before with _ | ⟨c, _ | ⟨d, before⟩⟩
    · cases hcs
    · obtain ⟨rfl, _⟩ := List.cons.inj hcs
      rfl
    · have hlast := h before after (List.cons.inj (List.cons.inj hcs).2).2
      rw [List.getLast?_cons, List.getLast?_cons, hlast]
      rfl

theorem returned_cons_iff {c : Char} {cs : List Char} (hhead : cs.head? ≠ some '\n') :
    Returned (c :: cs) ↔ c ≠ '\n' ∧ Returned cs := by
  constructor
  · intro h
    refine ⟨?_, ?_⟩
    · rintro rfl
      cases h [] cs rfl
    · intro before after hcs
      have hlast := h (c :: before) after (by rw [hcs]; rfl)
      cases before with
      | nil => exact absurd (congrArg List.head? hcs) hhead
      | cons d before => exact hlast
  · rintro ⟨hc, h⟩ before after hcs
    cases before with
    | nil => exact absurd (List.cons.inj hcs).1 hc
    | cons d before =>
        have hlast := h before after (List.cons.inj hcs).2
        rw [List.getLast?_cons, hlast]
        rfl

theorem returned_expand (cs : List Char) : Returned (expand cs) := by
  induction cs with
  | nil =>
      intro before after hcs
      cases before with
      | nil => cases hcs
      | cons c before => cases hcs
  | cons c cs ih =>
      by_cases hc : c = '\n'
      · rw [hc, expand_lineFeed]
        exact returned_lineEnd_iff.2 ih
      · rw [expand_cons_of_ne hc]
        exact (returned_cons_iff (head_expand cs)).2 ⟨hc, ih⟩

/-- Where a carriage return stands before each line feed, they can be dropped and put in again. The
cases are those of dropping them. -/
theorem expand_contract {cs : List Char} (h : Returned cs) : expand (contract cs) = cs := by
  fun_induction contract cs with
  | case1 => rfl
  | case2 cs ih => rw [expand_lineFeed, ih (returned_lineEnd_iff.1 h)]
  | case3 c cs hother ih =>
      -- no line feed comes next: it would have a carriage return here, and be of the other case
      have hhead : cs.head? ≠ some '\n' := by
        intro hhead
        obtain ⟨rest, rfl⟩ := List.head?_eq_some_iff.1 hhead
        have hreturn := h [c] rest rfl
        exact hother rest (Option.some.inj hreturn) rfl
      obtain ⟨hc, hcs⟩ := (returned_cons_iff hhead).1 h
      rw [expand_cons_of_ne hc, ih hcs]

/-- An expansion ends in a line end exactly if the text ends in a line feed. -/
theorem lineEnd_suffix_expand_iff {cs : List Char} :
    lineEnd <:+ expand cs ↔ ∃ ds, cs = ds ++ ['\n'] := by
  constructor
  · rintro ⟨front, hfront⟩
    rcases List.eq_nil_or_concat cs with rfl | ⟨ds, c, rfl⟩
    · cases front with
      | nil => cases hfront
      | cons d front => cases hfront
    · by_cases hc : c = '\n'
      · exact ⟨ds, by rw [hc, List.concat_eq_append]⟩
      · rw [List.concat_eq_append, expand_append, expand_cons_of_ne hc] at hfront
        have hlast := congrArg List.getLast? hfront
        simp [lineEnd, expand, Ne.symm hc] at hlast
  · rintro ⟨ds, rfl⟩
    rw [expand_append]
    exact ⟨expand ds, rfl⟩

/-- What a terminal is shown: the texts with a carriage return before each line feed that end in a
line end. -/
theorem exists_terminalText_iff {shown : String} :
    (∃ text, terminalText text = shown) ↔ Returned shown.toList ∧ lineEnd <:+ shown.toList := by
  constructor
  · rintro ⟨text, rfl⟩
    rw [toList_terminalText]
    exact ⟨returned_expand _, lineEnd_suffix_expand_iff.2 ⟨_, rfl⟩⟩
  · rintro ⟨hreturned, hend⟩
    rw [← expand_contract hreturned] at hend
    obtain ⟨cs, hcs⟩ := lineEnd_suffix_expand_iff.1 hend
    refine ⟨String.ofList cs, String.toList_injective ?_⟩
    rw [toList_terminalText, String.toList_ofList, ← hcs, expand_contract hreturned]

/-! ## Lines -/

theorem terminalText_injective : Function.Injective terminalText := by
  intro text other hsame
  have hexpanded := congrArg String.toList hsame
  rw [toList_terminalText, toList_terminalText] at hexpanded
  have hcontracted := congrArg contract hexpanded
  rw [contract_expand, contract_expand] at hcontracted
  exact String.toList_injective (List.append_cancel_right hcontracted)

/-- What stands before a line feed and what stands behind it may as well be shown by themselves. -/
theorem terminalText_append (text other : String) :
    terminalText (text ++ "\n" ++ other) = terminalText text ++ terminalText other := by
  refine String.toList_injective ?_
  have hfeed : "\n".toList = ['\n'] := rfl
  simp only [toList_terminalText, String.toList_append, expand_append, hfeed, List.append_assoc]

theorem terminalText_intercalate (first : String) (rest : List String) :
    terminalText ("\n".intercalate (first :: rest)) =
      String.join ((first :: rest).map terminalText) := by
  induction rest generalizing first with
  | nil => simp
  | cons second rest ih =>
      rw [String.intercalate_cons_cons, terminalText_append, ih, List.map_cons, List.map_cons,
        List.map_cons, String.join_cons, String.join_cons, String.join_cons]

end Terminal

/-! ## Lines of a log -/

/-- A surface that takes every text or none. -/
def Surface.Steady (s : Surface) : Prop :=
  ∀ texts others, (s.error? texts).isNone = (s.error? others).isNone

theorem Surface.TakesAll.steady {s : Surface} (h : s.TakesAll) : s.Steady := by
  intro texts others
  rw [h texts, h others]

theorem Surface.Steady.after {s : Surface} (h : s.Steady) (text : String) :
    (s.after text).Steady := by
  intro texts others
  rw [error?_after, error?_after]
  exact h _ _

theorem writtenOn_none (id : Nat) (blocks : List String) : writtenOn id none blocks = [] := by
  induction blocks with
  | nil => rfl
  | cons block rest ih => exact ih

theorem Surface.Steady.takenOn {s : Surface} (h : s.Steady) (id : Nat) (block : String) :
    takenOn id (some s) block =
      if s.id = id ∧ (s.error? []).isNone then [terminalText block] else [] := by
  have hfault : s.fault (terminalText block) = none ↔ (s.error? []).isNone = true := by
    rw [← Option.isNone_iff_eq_none, fault, h [terminalText block] []]
  exact if_congr (and_congr_right' hfault) rfl rfl

/-- On a surface that is steady, all blocks are written or none. -/
theorem Surface.Steady.writtenOn {s : Surface} (h : s.Steady) (id : Nat) (blocks : List String) :
    writtenOn id (some s) blocks =
      if s.id = id ∧ (s.error? []).isNone then blocks.map terminalText else [] := by
  induction blocks generalizing s with
  | nil => exact (ite_self _).symm
  | cons block rest ih =>
      have hlater : ((s.after (terminalText block)).error? []).isNone = (s.error? []).isNone := by
        rw [error?_after]
        exact h _ _
      have hrest := ih (h.after (terminalText block))
      rw [hlater] at hrest
      have hid : (s.after (terminalText block)).id = s.id := rfl
      rw [hid] at hrest
      show CompilerHost.takenOn id (some s) block ++
        CompilerHost.writtenOn id (some (s.after (terminalText block))) rest = _
      rw [h.takenOn, hrest]
      split
      · rfl
      · rfl

namespace Journal

/-- All that a surface is handed, as one text. -/
def handed (j : Journal) : String := String.join (j.blocks.map terminalText)

/-- All that is shown on a surface, as one text. -/
def textOn (j : Journal) (id : Nat) : String := String.join (j.shownOn id)

theorem shownOn_blocksReports (surface : Option Surface) (blocks : List String) (id : Nat) :
    Journal.shownOn (blocksReports surface blocks) id = writtenOn id surface blocks := by
  induction blocks generalizing surface with
  | nil => rfl
  | cons block rest ih =>
      rw [blocksReports, shownOn_append, shownOn_blockReports, ih, ← writtenOn_cons]

/-- Blocks that are one text on a terminal are so on every surface that is steady. -/
theorem textOn_congr {blocks others : List String}
    (h : String.join (blocks.map terminalText) = String.join (others.map terminalText))
    {surface : Option Surface} (hsteady : ∀ s, surface = some s → s.Steady) (id : Nat) :
    Journal.textOn (blocksReports surface blocks) id =
      Journal.textOn (blocksReports surface others) id := by
  rw [textOn, textOn, shownOn_blocksReports, shownOn_blocksReports]
  cases surface with
  | none => rw [writtenOn_none, writtenOn_none]
  | some s =>
      rw [(hsteady s rfl).writtenOn, (hsteady s rfl).writtenOn]
      split
      · exact h
      · rfl

end Journal

namespace Log

variable {ε : Type}

/-- Appends texts, each in a block of its own. -/
def oneByOne (texts : List String) : List Use :=
  texts.flatMap fun text => [.append text, .flush]

theorem journal_performAll_cons {use : Use} {gain : Gain} {log : Log}
    (h : (use.perform log : Ended Log ε Gain).result = .ok gain) (rest : List Use) :
    (performAll (use :: rest) log : Ended Log ε (List Gain)).journal =
      (use.perform log : Ended Log ε Gain).journal ++
        (performAll rest (use.perform log : Ended Log ε Gain).state :
          Ended Log ε (List Gain)).journal := by
  rw [performAll, Action.bind_of_ok _ h, bind_pure_comp, Action.map_apply]
  rfl

/-- A text in a block of its own has what was pending before it, and leaves nothing pending. -/
theorem journal_performAll_block (log : Log) (text : String) (rest : List Use) :
    (performAll (.append text :: .flush :: rest) log : Ended Log ε (List Gain)).journal =
      blockReports log.surface (log.pending ++ text) ++
        (performAll rest (log.append text).flushed : Ended Log ε (List Gain)).journal := by
  have happended : (Use.append text).perform log =
      (⟨.ok .nothing, log.append text, []⟩ : Ended Log ε Gain) := rfl
  have hflushed := perform_flush (ε := ε) (log.append text)
  rw [journal_performAll_cons (by rw [happended]), happended,
    journal_performAll_cons (by rw [hflushed]), hflushed]
  rfl

/-- With nothing pending, the texts are the blocks. The induction is on the texts, each of which
leaves nothing pending for the next. -/
theorem journal_oneByOne (texts : List String) {log : Log} (h : log.pending = "") :
    (performAll (oneByOne texts) log : Ended Log ε (List Gain)).journal =
      blocksReports log.surface texts := by
  induction texts generalizing log with
  | nil => rfl
  | cons text texts ih =>
      have hblock := journal_performAll_block (ε := ε) log text (oneByOne texts)
      rw [h, String.empty_append] at hblock
      have hsurface : (log.append text).flushed.surface = Surface.behind log.surface text := by
        rw [flushed, append, h, String.empty_append]
      have hrest : (performAll (oneByOne texts) (log.append text).flushed :
          Ended Log ε (List Gain)).journal =
          blocksReports (log.append text).flushed.surface texts := ih rfl
      rw [hsurface] at hrest
      exact hblock.trans (congrArg _ hrest)

/-- What was pending belongs to the first block. -/
theorem journal_oneByOne_cons (log : Log) (first : String) (rest : List String) :
    (performAll (oneByOne (first :: rest)) log : Ended Log ε (List Gain)).journal =
      blocksReports log.surface ((log.pending ++ first) :: rest) := by
  have hblock := journal_performAll_block (ε := ε) log first (oneByOne rest)
  exact hblock.trans (congrArg _ (journal_oneByOne rest rfl))

/-- In the text that a terminal is shown, a carriage return stands right before each line feed, and
a line end behind all. Different texts are shown differently, whatever carriage returns and line
ends they have themselves. What stands before a line feed and what stands behind it are shown as
they are by themselves; so a surface is handed the same, and shows the same if it takes all texts or
none, whether a log, whatever it has been used for before, gets lines in one block or each in a
block of its own. -/
theorem terminalText_lossless :
    (∀ text, Terminal.Returned (terminalText text).toList ∧
      Terminal.lineEnd <:+ (terminalText text).toList) ∧
    Function.Injective terminalText ∧
    (∀ text other, terminalText (text ++ "\n" ++ other) =
      terminalText text ++ terminalText other) ∧
    ∀ (log : Log) (first : String) (rest : List String),
      let together : Ended Log ε (List Gain) :=
        performAll [.append ("\n".intercalate (first :: rest)), .flush] log
      let apart : Ended Log ε (List Gain) := performAll (oneByOne (first :: rest)) log
      together.journal.handed = apart.journal.handed ∧
      ((∀ s, log.surface = some s → s.Steady) →
        ∀ id, together.journal.textOn id = apart.journal.textOn id) := by
  refine ⟨?_, Terminal.terminalText_injective, Terminal.terminalText_append, ?_⟩
  · intro text
    exact Terminal.exists_terminalText_iff.1 ⟨text, rfl⟩
  · intro log first rest together apart
    -- one block is a list of blocks too, and what was pending goes into its first line
    have htogether : together.journal = blocksReports log.surface
        ["\n".intercalate ((log.pending ++ first) :: rest)] := by
      rw [String.intercalate_cons_append]
      exact journal_oneByOne_cons log ("\n".intercalate (first :: rest)) []
    have hapart : apart.journal = blocksReports log.surface ((log.pending ++ first) :: rest) :=
      journal_oneByOne_cons log first rest
    have hsame : String.join
        (["\n".intercalate ((log.pending ++ first) :: rest)].map terminalText) =
        String.join (((log.pending ++ first) :: rest).map terminalText) := by
      rw [List.map_singleton, String.join_cons, String.join_nil, String.append_empty]
      exact Terminal.terminalText_intercalate (log.pending ++ first) rest
    rw [htogether, hapart]
    refine ⟨?_, ?_⟩
    · rw [Journal.handed, Journal.handed, Journal.blocks_blocksReports,
        Journal.blocks_blocksReports]
      exact hsame
    · intro hsteady id
      exact Journal.textOn_congr hsame hsteady id

end Log

end CompilerHost
