import CompilerHost.Guest

/-! # What a guest says

A guest talks to its operator by calls to the host. What it says is a speech: texts in the order in
which they were written, and the ends of blocks between them. A speech falls into blocks whatever
the host does with it, so that it is a measure for the log:

* `Log.heard` is the log once a speech was heard, and `Log.heard_append` hears it in parts;
* `Journal.Delivers` says that a journal holds one delivery for each block of a list, in order;
* `Speech.join_blocks`: the blocks and what is left behind them are the whole text of the speech.
-/

namespace CompilerHost

/-- What one call to the host adds to a speech. -/
inductive Utterance where
  | words (text : String)
  | blockEnd
deriving DecidableEq, Repr

/-! ## Blocks -/

namespace Speech

/-- The blocks that a speech completes. What is said before its first block end goes on from
`pending`. -/
def blocks (pending : String) : List Utterance → List String
  | [] => []
  | .words text :: rest => blocks (pending ++ text) rest
  | .blockEnd :: rest => pending :: blocks "" rest

/-- What a speech leaves behind its last block end. -/
def remainder (pending : String) : List Utterance → String
  | [] => pending
  | .words text :: rest => remainder (pending ++ text) rest
  | .blockEnd :: rest => remainder "" rest

/-- The blocks of a speech that was broken off: what is left behind them is one more, unless it is
empty. -/
def brokenOff (pending : String) (speech : List Utterance) : List String :=
  blocks pending speech ++
    if remainder pending speech = "" then [] else [remainder pending speech]

/-- All that is written in a speech. -/
def text : List Utterance → String
  | [] => ""
  | .words text :: rest => text ++ Speech.text rest
  | .blockEnd :: rest => Speech.text rest

theorem blocks_append (pending : String) (a b : List Utterance) :
    blocks pending (a ++ b) = blocks pending a ++ blocks (remainder pending a) b := by
  induction a generalizing pending with
  | nil => rfl
  | cons u a ih =>
      cases u with
      | words text => exact ih (pending ++ text)
      | blockEnd => simp [blocks, remainder, ih]

theorem remainder_append (pending : String) (a b : List Utterance) :
    remainder pending (a ++ b) = remainder (remainder pending a) b := by
  induction a generalizing pending with
  | nil => rfl
  | cons u a ih =>
      cases u with
      | words text => exact ih (pending ++ text)
      | blockEnd => exact ih ""

/-- A speech is broken off behind its last complete block. -/
theorem brokenOff_eq (pending : String) (speech : List Utterance) :
    brokenOff pending speech = blocks pending speech ++ brokenOff (remainder pending speech) [] :=
  rfl

/-- Nothing that is written is lost, repeated or moved by falling into blocks. -/
theorem join_blocks (pending : String) (speech : List Utterance) :
    String.join (blocks pending speech) ++ remainder pending speech = pending ++ text speech := by
  induction speech generalizing pending with
  | nil => simp [blocks, remainder, text]
  | cons u speech ih =>
      cases u with
      | words t => simp [blocks, remainder, text, ih, String.append_assoc]
      | blockEnd => simp [blocks, remainder, text, ih, String.append_assoc]

theorem join_brokenOff (pending : String) (speech : List Utterance) :
    String.join (brokenOff pending speech) = pending ++ text speech := by
  rw [← join_blocks, brokenOff]
  by_cases hempty : remainder pending speech = ""
  · simp [hempty]
  · simp [hempty, String.join_append]

end Speech

/-! ## Hearing -/

namespace Surface

/-- The surface, if there is one, behind blocks that are written to it one after the other. -/
def behindAll (surface : Option Surface) (blocks : List String) : Option Surface :=
  blocks.foldl behind surface

@[simp] theorem behindAll_nil (surface : Option Surface) : behindAll surface [] = surface := rfl

@[simp] theorem behindAll_cons (surface : Option Surface) (block : String) (rest : List String) :
    behindAll surface (block :: rest) = behindAll (behind surface block) rest := rfl

theorem behindAll_append (surface : Option Surface) (a b : List String) :
    behindAll surface (a ++ b) = behindAll (behindAll surface a) b := List.foldl_append

/-- Writing to no surface leaves none. -/
@[simp] theorem behindAll_none (blocks : List String) : behindAll none blocks = none := by
  induction blocks with
  | nil => rfl
  | cons block rest ih => exact ih

end Surface

/-- The log once a speech was heard. -/
def Log.heard (log : Log) (speech : List Utterance) : Log where
  pending := Speech.remainder log.pending speech
  transcript := log.transcript ++ Speech.blocks log.pending speech
  surface := Surface.behindAll log.surface (Speech.blocks log.pending speech)

@[simp] theorem Log.heard_surface (log : Log) (speech : List Utterance) :
    (log.heard speech).surface =
      Surface.behindAll log.surface (Speech.blocks log.pending speech) := rfl

@[simp] theorem Log.heard_nil (log : Log) : log.heard [] = log := by
  simp [Log.heard, Speech.remainder, Speech.blocks]

theorem Log.heard_append (log : Log) (a b : List Utterance) :
    log.heard (a ++ b) = (log.heard a).heard b := by
  simp [Log.heard, Speech.remainder_append, Speech.blocks_append, Surface.behindAll_append]

theorem Log.heard_words (log : Log) (text : String) :
    log.heard [.words text] = log.append text := by
  simp [Log.heard, Log.append, Speech.remainder, Speech.blocks]

theorem Log.heard_blockEnd (log : Log) : log.heard [.blockEnd] = log.flushed := by
  simp [Log.heard, Log.flushed, Speech.remainder, Speech.blocks]

/-! ## Deliveries -/

/-- What a surface reports of a block, if there is a surface. -/
def shownBlock (surface : Option Surface) (block : String) : Journal :=
  match surface with
  | none => []
  | some s => s.show (terminalText block)

/-- The reports of one delivery. -/
def blockReports (surface : Option Surface) (block : String) : Journal :=
  .event (.guestLog block) :: shownBlock surface block

/-- What a surface reports of blocks that are written to it one after the other, if there is a
surface. -/
def shownBlocks : Option Surface → List String → Journal
  | _, [] => []
  | surface, block :: rest =>
    shownBlock surface block ++ shownBlocks (Surface.behind surface block) rest

theorem shownBlocks_none (blocks : List String) : shownBlocks none blocks = [] := by
  induction blocks with
  | nil => rfl
  | cons block rest ih => exact ih

/-- The reports of deliveries, one after the other. -/
def blocksReports : Option Surface → List String → Journal
  | _, [] => []
  | surface, block :: rest =>
    blockReports surface block ++ blocksReports (Surface.behind surface block) rest

@[simp] theorem blocksReports_nil (surface : Option Surface) : blocksReports surface [] = [] := rfl

theorem blocksReports_append (surface : Option Surface) (a b : List String) :
    blocksReports surface (a ++ b) =
      blocksReports surface a ++ blocksReports (Surface.behindAll surface a) b := by
  induction a generalizing surface with
  | nil => rfl
  | cons block rest ih =>
      rw [List.cons_append, blocksReports, blocksReports, ih, List.append_assoc]
      rfl

@[simp] theorem blocksReports_singleton (surface : Option Surface) (block : String) :
    blocksReports surface [block] = blockReports surface block := List.append_nil _

theorem Log.delivery_eq (log : Log) : log.delivery = blockReports log.surface log.pending := rfl

/-- Whether a surface makes such reports. -/
def Report.isFromSurface : Report → Bool
  | .shown _ _ => true
  | .event (.surfaceFailed _) => true
  | .event _ => false

/-- Whether the operator reads of such a report under the target of the guest's own log. -/
def Report.isFromGuest : Report → Bool
  | .event e => e.target = Event.guestTarget
  | .shown _ _ => false

/-- Nothing else is read under that target. -/
@[simp] theorem Report.isFromGuest_event (e : Event) :
    (Report.event e).isFromGuest = e.isGuestLog := by
  cases e <;> rfl

@[simp] theorem Report.isFromGuest_shown (surface : Nat) (text : String) :
    (Report.shown surface text).isFromGuest = false := rfl

/-- Whether deliveries of the log make such reports. -/
def Report.isOfLog (r : Report) : Bool := r.isFromGuest || r.isFromSurface

namespace Journal

/-- The part of a journal that comes from the log. -/
def ofLog (j : Journal) : Journal := j.filter Report.isOfLog

/-- What the operator reads under the target of the guest's own log. -/
def console (j : Journal) : Journal := j.filter Report.isFromGuest

/-- What comes from a surface. -/
def onSurface (j : Journal) : Journal := j.filter Report.isFromSurface

@[simp] theorem ofLog_nil : ofLog [] = [] := rfl

@[simp] theorem ofLog_append (a b : Journal) : ofLog (a ++ b) = ofLog a ++ ofLog b :=
  List.filter_append a b

@[simp] theorem console_append (a b : Journal) : console (a ++ b) = console a ++ console b :=
  List.filter_append a b

@[simp] theorem onSurface_append (a b : Journal) :
    onSurface (a ++ b) = onSurface a ++ onSurface b := List.filter_append a b

theorem ofLog_cons_of_other {e : Event} (j : Journal) (hother : (Report.event e).isOfLog = false) :
    ofLog (.event e :: j) = ofLog j :=
  List.filter_cons_of_neg (by simp [hother])

theorem console_ofLog (j : Journal) : console (ofLog j) = console j := by
  rw [console, ofLog, List.filter_filter]
  congr 1
  funext r
  cases hguest : r.isFromGuest <;> simp [Report.isOfLog, hguest]

theorem onSurface_ofLog (j : Journal) : onSurface (ofLog j) = onSurface j := by
  rw [onSurface, ofLog, List.filter_filter]
  congr 1
  funext r
  cases hsurface : r.isFromSurface <;> simp [Report.isOfLog, hsurface]

/-- A journal holds one delivery for each block, in order: the operator reads the block as the
guest's own, and the surface, if there is one, is handed it as a terminal wants it. What `others`
report for themselves comes behind that. -/
structure Delivers (j : Journal) (surface : Option Surface) (blocks : List String)
    (others : Journal) : Prop where
  console : j.console = blocks.map (fun block => .event (.guestLog block)) ++ others.console
  surface : j.onSurface = shownBlocks surface blocks ++ others.onSurface

end Journal

/-- What a surface reports is its own and not the guest's. -/
theorem onSurface_shownBlock (surface : Option Surface) (block : String) :
    Journal.onSurface (shownBlock surface block) = shownBlock surface block := by
  cases surface with
  | none => rfl
  | some s => cases hfault : s.fault (terminalText block) <;> simp [shownBlock, Surface.show,
      hfault, Journal.onSurface, Report.isFromSurface]

theorem console_shownBlock (surface : Option Surface) (block : String) :
    Journal.console (shownBlock surface block) = [] := by
  cases surface with
  | none => rfl
  | some s => cases hfault : s.fault (terminalText block) <;> simp [shownBlock, Surface.show,
      hfault, Journal.console, Event.isGuestLog]

theorem console_blockReports (surface : Option Surface) (block : String) :
    Journal.console (blockReports surface block) = [.event (.guestLog block)] := by
  have hshown := console_shownBlock surface block
  simp only [Journal.console] at hshown ⊢
  rw [blockReports, List.filter_cons_of_pos rfl, hshown]

theorem onSurface_blockReports (surface : Option Surface) (block : String) :
    Journal.onSurface (blockReports surface block) = shownBlock surface block := by
  have hshown := onSurface_shownBlock surface block
  simp only [Journal.onSurface] at hshown ⊢
  rw [blockReports, List.filter_cons_of_neg Bool.false_ne_true, hshown]

/-- Deliveries of the log are nothing but that. -/
theorem ofLog_blockReports (surface : Option Surface) (block : String) :
    Journal.ofLog (blockReports surface block) = blockReports surface block := by
  have hshown := onSurface_shownBlock surface block
  simp only [Journal.onSurface, List.filter_eq_self] at hshown
  rw [Journal.ofLog, List.filter_eq_self]
  intro r hr
  rcases List.mem_cons.1 hr with rfl | hr
  · rfl
  · simp [Report.isOfLog, hshown r hr]

theorem ofLog_blocksReports (surface : Option Surface) (blocks : List String) :
    Journal.ofLog (blocksReports surface blocks) = blocksReports surface blocks := by
  induction blocks generalizing surface with
  | nil => rfl
  | cons block rest ih => rw [blocksReports, Journal.ofLog_append, ofLog_blockReports, ih]

theorem console_blocksReports (surface : Option Surface) (blocks : List String) :
    Journal.console (blocksReports surface blocks) =
      blocks.map fun block => .event (.guestLog block) := by
  induction blocks generalizing surface with
  | nil => rfl
  | cons block rest ih =>
      rw [blocksReports, Journal.console_append, console_blockReports, ih]
      rfl

theorem onSurface_blocksReports (surface : Option Surface) (blocks : List String) :
    Journal.onSurface (blocksReports surface blocks) = shownBlocks surface blocks := by
  induction blocks generalizing surface with
  | nil => rfl
  | cons block rest ih =>
      rw [blocksReports, Journal.onSurface_append, onSurface_blockReports, ih, shownBlocks]

/-- A journal delivers blocks if that is all that comes from the log in it. -/
theorem Journal.Delivers.of_ofLog {j : Journal} {surface : Option Surface} {blocks : List String}
    {others : Journal} (h : j.ofLog = blocksReports surface blocks ++ others.ofLog) :
    j.Delivers surface blocks others where
  console := by
    rw [← Journal.console_ofLog j, ← Journal.console_ofLog others, h, Journal.console_append,
      console_blocksReports]
  surface := by
    rw [← Journal.onSurface_ofLog j, ← Journal.onSurface_ofLog others, h, Journal.onSurface_append,
      onSurface_blocksReports]

/-! ## Calls to the host -/

/-- What a call adds to the guest's speech, if it succeeds. Text that is not UTF-8 is repaired. -/
def HostCall.utterance? {σ : Type} (g : Guest σ) (live : Instance σ) : HostCall → Option Utterance
  | .flush => some .blockEnd
  | .write start length =>
    if g.exportsMemory then
      match live.memory.readTextLossy start length.toNat with
      | .ok (text, _) => some (.words text)
      | .error _ => none
    else none

theorem HostCall.utterance?_write {σ : Type} {g : Guest σ} {live : Instance σ} {start : Address}
    {length : UInt32} {text : String} {repaired : Bool} (hmemory : g.exportsMemory = true)
    (hread : live.memory.readTextLossy start length.toNat = .ok (text, repaired)) :
    (HostCall.write start length).utterance? g live = some (.words text) := by
  simp only [utterance?, hmemory, if_true, hread]

/-- What a guest says in calls that it makes one after the other. The first that fails is the last
that it makes. -/
def Guest.spoken {σ : Type} (g : Guest σ) : List (HostCall × Instance σ) → List Utterance
  | [] => []
  | (call, live) :: rest =>
    match call.utterance? g live with
    | some u => u :: g.spoken rest
    | none => []

/-- Calls that a guest makes one after the other, none of which fails, and what it says by them. -/
def Guest.Says {σ : Type} (g : Guest σ) (calls : List (HostCall × Instance σ))
    (speech : List Utterance) : Prop :=
  calls.map (fun c => c.1.utterance? g c.2) = speech.map some

namespace Guest.Says

variable {σ : Type} {g : Guest σ} {calls : List (HostCall × Instance σ)} {speech : List Utterance}

theorem snoc {call : HostCall} {live : Instance σ} {u : Utterance} (h : g.Says calls speech)
    (hu : call.utterance? g live = some u) :
    g.Says (calls ++ [(call, live)]) (speech ++ [u]) := by
  rw [Says, List.map_append, List.map_append, h]
  exact congrArg (List.map some speech ++ [·]) hu

theorem cons {c : HostCall × Instance σ} (h : g.Says (c :: calls) speech) :
    ∃ u rest, speech = u :: rest ∧ c.1.utterance? g c.2 = some u ∧ g.Says calls rest := by
  cases speech with
  | nil => cases h
  | cons u rest =>
      obtain ⟨hu, hrest⟩ := List.cons.inj h
      exact ⟨u, rest, rfl, hu, hrest⟩

end Guest.Says

end CompilerHost
