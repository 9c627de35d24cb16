import CompilerHost.Proofs.Attaching
import Mathlib.Data.List.DropRight
import Mathlib.Data.List.Induction

/-! # Uses of a log

A host may use a log in any order: it appends and flushes, attaches and detaches surfaces, and takes
the transcript away. What the log is behind all that is settled by the uses alone: what is pending
was appended since the last flush, a flush gives what was appended since the one before, and it is
shown where a surface was attached last.

* `Log.Keeps`: what a log has kept, given away and reported of its uses;
* `Log.Keeps.perform`: one use keeps it so, with a case for each kind of use;
* `Log.keeps_performAll`: and so do all of them, by induction from the end;
* `Log.performAll_faithful`: nothing that is appended to a fresh log is lost, repeated or moved.
-/

namespace CompilerHost.Log

/-! ## Uses -/

/-- What can be done with a log by itself. -/
inductive Use where
  | append (text : String)
  | flush
  | attach (s : Surface)
  | detach
  /-- Gives the completed blocks away. -/
  | takeTranscript

/-- Surfaces cannot be compared, but it is seen of a use whether it is a flush. -/
instance (use : Use) : Decidable (use = .flush) :=
  match use with
  | .flush => .isTrue rfl
  | .append _ => .isFalse nofun
  | .attach _ => .isFalse nofun
  | .detach => .isFalse nofun
  | .takeTranscript => .isFalse nofun

/-- What a use gives. -/
inductive Gain where
  | nothing
  | block (text : String)
  | surface (s : Option Surface)
  | transcript (blocks : List String)

variable {ε : Type}

/-- Does what a use asks for. -/
def Use.perform : Use → Action Log ε Gain
  | .append text => do
    Action.modify fun log => log.append text
    pure .nothing
  | .flush => .block <$> Log.flush
  | .attach s => do
    Action.modify fun log => log.attach s
    pure .nothing
  | .detach => do
    let log ← Action.get
    Action.set log.detach
    pure (.surface log.surface)
  | .takeTranscript => do
    let log ← Action.get
    Action.set log.clear
    pure (.transcript log.transcript)

/-- Uses a log in one way after the other. -/
def performAll : List Use → Action Log ε (List Gain)
  | [] => pure []
  | use :: rest => do
    let gain ← use.perform
    let gains ← performAll rest
    pure (gain :: gains)

theorem perform_flush (log : Log) :
    Use.flush.perform log =
      (⟨.ok (.block log.pending), log.flushed, log.delivery⟩ : Ended Log ε Gain) := by
  rw [Use.perform, Action.map_apply]
  rfl

/-! ## What uses come to -/

/-- The text that a use appends. -/
def Use.appended? : Use → Option String
  | .append text => some text
  | _ => none

/-- The block that a use gave. -/
def Gain.block? : Gain → Option String
  | .block text => some text
  | _ => none

/-- The blocks that a use gave away. -/
def Gain.transcript? : Gain → Option (List String)
  | .transcript blocks => some blocks
  | _ => none

/-- What a use says about the surface: that this one is attached from now on, or none. -/
def Use.surface? : Use → Option (Option Surface)
  | .attach s => some (some s)
  | .detach => some none
  | _ => none

/-- All texts that were appended. -/
def appended (uses : List Use) : List String := uses.filterMap Use.appended?

/-- What was appended since the last flush. -/
def sinceFlush (uses : List Use) : String := String.join (appended (uses.rtakeWhile (· ≠ .flush)))

/-- What was done before each flush. -/
def beforeFlushes : List Use → List (List Use)
  | [] => []
  | .flush :: rest => [] :: (beforeFlushes rest).map (.flush :: ·)
  | use :: rest => (beforeFlushes rest).map (use :: ·)

/-- Whether a use leaves the surface where it is. -/
def Use.keepsSurface (use : Use) : Bool := use.surface?.isNone

/-- The blocks that were completed since a surface was last attached or detached. -/
def sinceAttached (uses : List Use) : List String :=
  (beforeFlushes (uses.rtakeWhile Use.keepsSurface)).map fun before =>
    sinceFlush (uses.rdropWhile Use.keepsSurface ++ before)

/-- The surface that was attached last, and not detached since, behind the blocks that were written
to it; `surface` is that of the start. -/
def attached (surface : Option Surface) (uses : List Use) : Option Surface :=
  Surface.behindAll ((uses.reverse.findSome? Use.surface?).getD surface) (sinceAttached uses)

/-- All that flushes gave. -/
def Gain.blocks (gains : List Gain) : List String := gains.filterMap Gain.block?

/-- All that was given away, in order. -/
def Gain.transcripts (gains : List Gain) : List String :=
  (gains.filterMap Gain.transcript?).flatten

theorem filterMap_concat {α β : Type} (f : α → Option β) (xs : List α) (x : α) :
    (xs ++ [x]).filterMap f = xs.filterMap f ++ (f x).toList := by
  rw [List.filterMap_append]
  rfl

theorem join_toList (text : Option String) : String.join text.toList = text.getD "" := by
  cases text with
  | none => rfl
  | some text => simp

theorem appended_concat (uses : List Use) (use : Use) :
    appended (uses ++ [use]) = appended uses ++ use.appended?.toList :=
  filterMap_concat Use.appended? uses use

theorem sinceFlush_flush (uses : List Use) : sinceFlush (uses ++ [.flush]) = "" := by
  rw [sinceFlush, List.rtakeWhile_concat_neg _ _ _ (by simp)]
  rfl

/-- Where nothing is flushed, the text at hand goes on. -/
theorem sinceFlush_concat {use : Use} (h : use ≠ .flush) (uses : List Use) :
    sinceFlush (uses ++ [use]) = sinceFlush uses ++ use.appended?.getD "" := by
  rw [sinceFlush, List.rtakeWhile_concat_pos _ _ _ (by simpa using h), appended_concat, sinceFlush,
    String.join_append, join_toList]

theorem beforeFlushes_concat (uses : List Use) (use : Use) :
    beforeFlushes (uses ++ [use]) = beforeFlushes uses ++ if use = .flush then [uses] else [] := by
  induction uses with
  | nil => cases use <;> rfl
  | cons first rest ih =>
      have hrest : ∀ u : Use, (beforeFlushes (rest ++ [use])).map (u :: ·) =
          (beforeFlushes rest).map (u :: ·) ++ if use = .flush then [u :: rest] else [] := by
        intro u
        rw [ih, List.map_append]
        split <;> rfl
      cases first <;> simp [beforeFlushes, hrest]

theorem rdropWhile_append_rtakeWhile {α : Type} (p : α → Bool) (xs : List α) :
    xs.rdropWhile p ++ xs.rtakeWhile p = xs := by
  rw [List.rdropWhile, List.rtakeWhile, ← List.reverse_append, List.takeWhile_append_dropWhile,
    List.reverse_reverse]

theorem findSome?_concat (uses : List Use) (use : Use) :
    (uses ++ [use]).reverse.findSome? Use.surface? =
      use.surface?.or (uses.reverse.findSome? Use.surface?) := by
  rw [List.reverse_append, List.reverse_singleton, List.singleton_append, List.findSome?_cons]
  cases use.surface? with
  | none => rfl
  | some surface => rfl

/-- A flush is written to the surface that is attached. -/
theorem attached_flush (surface : Option Surface) (uses : List Use) :
    attached surface (uses ++ [.flush]) =
      Surface.behind (attached surface uses) (sinceFlush uses) := by
  have hkeeps : Use.flush.keepsSurface = true := rfl
  rw [attached, attached, findSome?_concat, sinceAttached, List.rtakeWhile_concat_pos _ _ _ hkeeps,
    List.rdropWhile_concat_pos _ _ _ hkeeps, beforeFlushes_concat, if_pos rfl, List.map_append,
    Surface.behindAll_append, List.map_singleton, rdropWhile_append_rtakeWhile]
  rfl

/-- Where nothing is flushed, nothing is written; a surface may be attached or detached. -/
theorem attached_concat {use : Use} (h : use ≠ .flush) (surface : Option Surface)
    (uses : List Use) :
    attached surface (uses ++ [use]) = use.surface?.getD (attached surface uses) := by
  rw [attached, attached, findSome?_concat, sinceAttached]
  cases hsurface : use.surface? with
  | none =>
      have hkeeps : use.keepsSurface = true := congrArg Option.isNone hsurface
      rw [List.rtakeWhile_concat_pos _ _ _ hkeeps, List.rdropWhile_concat_pos _ _ _ hkeeps,
        beforeFlushes_concat, if_neg h, List.append_nil]
      rfl
  | some other =>
      -- nothing was flushed since
      have hkeeps : ¬use.keepsSurface = true := by
        rw [Use.keepsSurface, hsurface]
        exact Bool.false_ne_true
      rw [List.rtakeWhile_concat_neg _ _ _ hkeeps]
      rfl

theorem Gain.blocks_concat (gains : List Gain) (gain : Gain) :
    Gain.blocks (gains ++ [gain]) = Gain.blocks gains ++ gain.block?.toList :=
  filterMap_concat Gain.block? gains gain

theorem Gain.transcripts_concat (gains : List Gain) (gain : Gain) :
    Gain.transcripts (gains ++ [gain]) = Gain.transcripts gains ++ gain.transcript?.getD [] := by
  rw [Gain.transcripts, Gain.transcripts, filterMap_concat, List.flatten_append]
  cases gain.transcript? with
  | none => rfl
  | some blocks => simp

/-! ## What a log keeps -/

/-- What a log has kept, given away and reported by the time that it was used so. -/
structure Keeps (surface : Option Surface) (uses : List Use) (gains : List Gain) (log : Log)
    (journal : Journal) : Prop where
  /-- What flushes gave, and then what is pending, is what was appended. -/
  conserved : String.join (Gain.blocks gains) ++ log.pending = String.join (appended uses)
  pending : log.pending = sinceFlush uses
  attachment : log.surface = attached surface uses
  /-- Each flush gave what was appended since the one before it. -/
  blocks : Gain.blocks gains = (beforeFlushes uses).map sinceFlush
  /-- What was given away, and then the transcript, is what flushes gave. -/
  transcripts : Gain.transcripts gains ++ log.transcript = Gain.blocks gains
  /-- The operator read each flush, and the surface was handed it that was attached then. -/
  reports : journal = (beforeFlushes uses).flatMap fun before =>
    blockReports (attached surface before) (sinceFlush before)

theorem keeps_fresh (surface : Option Surface) : Keeps surface [] [] (.fresh surface) [] where
  conserved := rfl
  pending := rfl
  attachment := rfl
  blocks := rfl
  transcripts := rfl
  reports := rfl

section Step

variable {surface : Option Surface} {uses : List Use} {gains : List Gain} {log : Log}
  {journal : Journal}

/-- A use that is no flush completes nothing. It may append, attach or give the transcript away. -/
theorem Keeps.unflushed (h : Keeps surface uses gains log journal) {use : Use} {gain : Gain}
    {next : Log} (huse : use ≠ .flush) (hgain : gain.block? = none)
    (hpending : next.pending = log.pending ++ use.appended?.getD "")
    (hsurface : next.surface = use.surface?.getD log.surface)
    (htranscript : gain.transcript?.getD [] ++ next.transcript = log.transcript) :
    Keeps surface (uses ++ [use]) (gains ++ [gain]) next journal where
  conserved := by
    rw [Gain.blocks_concat, hgain, Option.toList_none, List.append_nil, hpending,
      ← String.append_assoc, h.conserved, appended_concat, String.join_append, join_toList]
  pending := by rw [hpending, h.pending, sinceFlush_concat huse]
  attachment := by rw [hsurface, h.attachment, attached_concat huse]
  blocks := by
    rw [Gain.blocks_concat, hgain, Option.toList_none, List.append_nil, h.blocks,
      beforeFlushes_concat, if_neg huse, List.append_nil]
  transcripts := by
    rw [Gain.transcripts_concat, List.append_assoc, htranscript, h.transcripts,
      Gain.blocks_concat, hgain, Option.toList_none, List.append_nil]
  reports := by rw [h.reports, beforeFlushes_concat, if_neg huse, List.append_nil]

/-- A flush completes what is pending, delivers it and gives it back. -/
theorem Keeps.flush (h : Keeps surface uses gains log journal) :
    Keeps surface (uses ++ [.flush]) (gains ++ [.block log.pending]) log.flushed
      (journal ++ log.delivery) where
  conserved := by
    have hempty : log.flushed.pending = "" := rfl
    rw [Gain.blocks_concat, String.join_append, hempty, appended_concat, String.append_empty]
    simpa [Gain.block?, Use.appended?] using h.conserved
  pending := (sinceFlush_flush uses).symm
  attachment := by rw [attached_flush, ← h.attachment, ← h.pending, flushed]
  blocks := by
    rw [Gain.blocks_concat, h.blocks, beforeFlushes_concat, if_pos rfl, List.map_append, h.pending]
    rfl
  transcripts := by
    rw [Gain.transcripts_concat, Gain.blocks_concat, ← h.transcripts]
    simp [Gain.transcript?, Gain.block?, flushed]
  reports := by
    rw [beforeFlushes_concat, if_pos rfl, List.flatMap_append, ← h.reports, delivery_eq, h.pending,
      h.attachment, List.flatMap_singleton]

/-- One more use, whatever it is. -/
theorem Keeps.perform (h : Keeps surface uses gains log journal) (use : Use) :
    ∃ gain, (use.perform log : Ended Log ε Gain).result = .ok gain ∧
      Keeps surface (uses ++ [use]) (gains ++ [gain]) (use.perform log : Ended Log ε Gain).state
        (journal ++ (use.perform log : Ended Log ε Gain).journal) := by
  have hquiet : journal ++ [] = journal := List.append_nil journal
  cases use with
  | append text =>
      refine ⟨.nothing, rfl, ?_⟩
      show Keeps _ _ _ (log.append text) (journal ++ [])
      rw [hquiet]
      exact h.unflushed nofun rfl rfl rfl rfl
  | flush =>
      refine ⟨.block log.pending, rfl, ?_⟩
      rw [perform_flush]
      exact h.flush
  | attach s =>
      refine ⟨.nothing, rfl, ?_⟩
      show Keeps _ _ _ (log.attach s) (journal ++ [])
      rw [hquiet]
      exact h.unflushed nofun rfl (String.append_empty).symm rfl rfl
  | detach =>
      refine ⟨.surface log.surface, rfl, ?_⟩
      show Keeps _ _ _ log.detach (journal ++ [])
      rw [hquiet]
      exact h.unflushed nofun rfl (String.append_empty).symm rfl rfl
  | takeTranscript =>
      refine ⟨.transcript log.transcript, rfl, ?_⟩
      show Keeps _ _ _ log.clear (journal ++ [])
      rw [hquiet]
      exact h.unflushed nofun rfl (String.append_empty).symm rfl (List.append_nil _)

end Step

/-! ## All uses -/

theorem performAll_concat (uses : List Use) (use : Use) :
    (performAll (uses ++ [use]) : Action Log ε (List Gain)) = (do
      let gains ← performAll uses
      let gain ← use.perform
      pure (gains ++ [gain])) := by
  induction uses with
  | nil => simp only [List.nil_append, performAll, pure_bind]
  | cons first rest ih =>
      simp only [List.cons_append, performAll, ih, bind_assoc, pure_bind]

/-- However a fresh log is used, no use fails, and it keeps what it should. The induction is from
the end, where one more use meets the log that those before it have left. -/
theorem keeps_performAll (surface : Option Surface) (uses : List Use) :
    ∃ gains, (performAll uses (.fresh surface) : Ended Log ε (List Gain)).result = .ok gains ∧
      Keeps surface uses gains (performAll uses (.fresh surface) : Ended Log ε (List Gain)).state
        (performAll uses (.fresh surface) : Ended Log ε (List Gain)).journal := by
  induction uses using List.reverseRecOn with
  | nil => exact ⟨[], rfl, keeps_fresh surface⟩
  | append_singleton uses use ih =>
      obtain ⟨gains, hgains, hkeeps⟩ := ih
      obtain ⟨gain, hgain, hnext⟩ := hkeeps.perform (ε := ε) use
      rw [performAll_concat, Action.bind_of_ok _ hgains, Action.bind_of_ok _ hgain]
      refine ⟨gains ++ [gain], rfl, ?_⟩
      simpa [Ended.behind] using hnext

/-- Behind a flush nothing is pending, whatever was done before. -/
theorem pending_of_flush (surface : Option Surface) (before : List Use) :
    (performAll (before ++ [.flush]) (.fresh surface) : Ended Log ε (List Gain)).state.pending =
      "" := by
  obtain ⟨_, _, hkeeps⟩ := keeps_performAll (ε := ε) surface (before ++ [.flush])
  rw [hkeeps.pending, sinceFlush_flush]

/-- What is written on a surface are the flushes that were made while it was attached. -/
theorem Keeps.shownOn {surface : Option Surface} {uses : List Use} {gains : List Gain} {log : Log}
    {journal : Journal} (h : Keeps surface uses gains log journal) (id : Nat) :
    journal.shownOn id = (beforeFlushes uses).flatMap fun before =>
      writtenOn id (attached surface before) [sinceFlush before] := by
  rw [h.reports]
  refine Journal.shownOn_flatMap ?_
  intro before _
  exact Journal.shownOn_blockReports (attached surface before) (sinceFlush before) id

/-- A log that is fresh at first is faithful, however it is used. What flushes gave and what is
pending make up what was appended, and nothing is pending behind a flush. A flush gives what was
appended since the one before it, even if that is nothing. What was given away and what is left of
the transcript are the values of the flushes. The surface that is attached at a flush is handed its
text as a terminal wants it, and no other surface is. -/
theorem performAll_faithful (surface : Option Surface) (uses : List Use) :
    ∃ gains, (performAll uses (.fresh surface) : Ended Log ε (List Gain)).result = .ok gains ∧
      Keeps surface uses gains (performAll uses (.fresh surface) : Ended Log ε (List Gain)).state
        (performAll uses (.fresh surface) : Ended Log ε (List Gain)).journal ∧
      (∀ before,
        (performAll (before ++ [.flush]) (.fresh surface) : Ended Log ε (List Gain)).state.pending =
          "") ∧
      ∀ id, (performAll uses (.fresh surface) : Ended Log ε (List Gain)).journal.shownOn id =
        (beforeFlushes uses).flatMap fun before =>
          writtenOn id (attached surface before) [sinceFlush before] := by
  obtain ⟨gains, hgains, hkeeps⟩ := keeps_performAll (ε := ε) surface uses
  exact ⟨gains, hgains, hkeeps, pending_of_flush surface, hkeeps.shownOn⟩

end CompilerHost.Log
