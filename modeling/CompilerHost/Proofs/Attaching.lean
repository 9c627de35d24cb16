import CompilerHost.Proofs.Surfaces
import CompilerHost.Proofs.Conservation

/-! # Attaching surfaces

A surface may be attached to a log before a run, and while a session lasts it may be attached and
detached at any time. Nobody notices but the surface: it is handed the blocks that are completed
while it is attached. Only if it cannot take them, the operator reads that of each.

* `Pipeline.run_showing`: a run, with a surface and without;
* `Session.performAll_showing`: a sequence of operations, with surfaces and without;
* `Surface.unnoticed`: what surfaces receive of both, and that nothing else is different.
-/

namespace CompilerHost

/-! ## Runs -/

/-- Where blocks are all that is delivered of a log, no surface has a part in it. -/
theorem Journal.quiet_of_ofLog {j : Journal} {texts : List String}
    (h : j.ofLog = blocksReports none texts) : j.blocks = texts ∧ j.onSurface = [] := by
  constructor
  · rw [← blocks_ofLog, h, blocks_blocksReports]
  · rw [← onSurface_ofLog, h, onSurface_blocksReports, shownBlocks_none]

namespace Pipeline

variable {σ ω : Type} {p : Pipeline σ} {request : Request} {log : Log}

/-- The blocks that a run completes: those in the guest's speech, and what is left behind them if
the guest fails while it compiles. -/
def flushes (p : Pipeline σ) (request : Request) (log : Log) : List String :=
  match (p.loaded.instantiate log ()).result, p.decoded request log with
  | .ok _, .error _ => Speech.brokenOff log.pending (p.speech request log)
  | _, _ => Speech.blocks log.pending (p.speech request log)

theorem flushes_of_not_opened {cause : GuestFault}
    (hopen : (p.loaded.instantiate log ()).result = .error cause) :
    p.flushes request log = Speech.blocks log.pending (p.speech request log) := by
  simp only [flushes, hopen]

theorem flushes_of_failed {session : Session σ} {cause : GuestFault}
    (hopen : (p.loaded.instantiate log ()).result = .ok session)
    (hfailed : p.decoded request log = .error cause) :
    p.flushes request log = Speech.brokenOff log.pending (p.speech request log) := by
  simp only [flushes, hopen, hfailed]

theorem flushes_of_decoded {outcome : Outcome} (hdecoded : p.decoded request log = .ok outcome) :
    p.flushes request log = Speech.blocks log.pending (p.speech request log) := by
  unfold flushes
  rw [hdecoded]
  split
  · rename_i heq
    cases heq
  · rfl

/-- What an ending is with a surface, where it is `quiet` without one: the surface echoes some
blocks, and what sinks report comes behind that as it does without. -/
inductive Echoes (surface : Option Surface) (blocks : List String)
    (quiet : Ended ω RunFault RunReport) : Ended ω RunFault RunReport → Prop where
  | behind {before after : Journal} (hblocks : before.blocks = blocks)
      (hquiet : before.onSurface = []) (hjournal : quiet.journal = before ++ after) :
      Echoes surface blocks quiet ⟨quiet.result, quiet.state, before.echoed surface ++ after⟩

/-- An ending without sinks is echoed as a whole. -/
theorem Echoes.whole (surface : Option Surface) {texts : List String}
    {quiet : Ended ω RunFault RunReport}
    (hreports : quiet.journal.ofLog = blocksReports none texts) :
    Echoes surface texts quiet ⟨quiet.result, quiet.state, quiet.journal.echoed surface⟩ := by
  obtain ⟨hblocks, hquiet⟩ := Journal.quiet_of_ofLog hreports
  have hechoes : Echoes surface texts quiet
      ⟨quiet.result, quiet.state, quiet.journal.echoed surface ++ []⟩ :=
    .behind hblocks hquiet (List.append_nil _).symm
  rwa [List.append_nil] at hechoes

/-! ### Sessions of runs -/

section Opened

variable {session : Session σ} (surface : Option Surface) (sinks : List (Sink ω)) (world : ω)

/-- The surface behind the start of a guest. -/
def surfaceOpened (p : Pipeline σ) (log : Log) (surface : Option Surface) : Option Surface :=
  Surface.behindAll surface (p.loaded.instantiate (log.showing none) ()).journal.blocks

/-- A guest that can be instantiated without a surface can be with one. -/
theorem opened_showing (hopen : (p.loaded.instantiate (log.showing none) ()).result = .ok session) :
    (p.loaded.instantiate (log.showing surface) ()).result =
      .ok (session.showing (p.surfaceOpened log surface)) := by
  rw [p.loaded.instantiate_showing, Loaded.echo, hopen]
  rfl

theorem showing_of_opened
    (hopen : (p.loaded.instantiate (log.showing none) ()).result = .ok session) :
    session.showing none = session := by
  have hnone := opened_showing none hopen
  rw [hopen, surfaceOpened, Surface.behindAll_none] at hnone
  exact (Except.ok.inj hnone).symm

theorem compileIn_showing (request : Request)
    (hopen : (p.loaded.instantiate (log.showing none) ()).result = .ok session) :
    p.compileIn request (session.showing surface) =
      Session.echo surface (p.compileIn request session) := by
  have hsame := (p.unaware_compileIn request).same session surface
  rwa [showing_of_opened hopen] at hsame

/-- What was reported by the end of the compile has nothing in it that comes of a sink. -/
theorem prologue_showing (request : Request)
    (hopen : (p.loaded.instantiate (log.showing none) ()).result = .ok session) :
    p.prologue request (log.showing surface) (session.showing (p.surfaceOpened log surface)) =
      (p.prologue request (log.showing none) session).echoed surface := by
  rw [prologue, prologue, p.loaded.instantiate_showing, compileIn_showing _ request hopen,
    Journal.echoed_cons, Journal.echoed_append]
  rfl

/-- The surface behind the compile is the one to which all blocks were written by then. -/
theorem behindAll_prologue (request : Request) (session : Session σ) :
    Surface.behindAll surface (p.prologue request (log.showing none) session).blocks =
      Surface.behindAll (p.surfaceOpened log surface)
        (p.compileIn request session).journal.blocks := by
  rw [prologue, Journal.blocks_cons, Journal.blocks_append, surfaceOpened,
    ← Surface.behindAll_append]
  rfl

/-- Giving up hands what is pending to the surface, too. -/
theorem abort_showing (log : Log) (cause : GuestFault) :
    abort (log.showing surface) cause world =
      ⟨(abort (log.showing none) cause world).result, (abort (log.showing none) cause world).state,
        (abort (log.showing none) cause world).journal.echoed surface⟩ := by
  have hjournal := Journal.echoed_append (blocksReports none (Speech.brokenOff log.pending []))
    [.event (.compileAborted cause.message
      (log.transcript ++ Speech.brokenOff log.pending []).length)] surface
  rw [Journal.echoed_blocksReports] at hjournal
  rw [abort_eq, abort_eq]
  exact congrArg (Ended.mk _ _) hjournal.symm

/-! ### Courses of runs -/

theorem echoes_of_not_opened {cause : GuestFault}
    (hopen : (p.loaded.instantiate (log.showing none) ()).result = .error cause) :
    Echoes surface (p.flushes request (log.showing none))
      (p.run request (log.showing none) sinks world)
      (p.run request (log.showing surface) sinks world) := by
  have hinstantiate := p.loaded.instantiate_showing log surface
  have hshown : (p.loaded.instantiate (log.showing surface) ()).result = .error cause := by
    rw [hinstantiate, Loaded.echo, hopen]
    rfl
  have hechoes := Echoes.whole surface
    (shows_of_not_opened request sinks world hopen).reports
  rw [run_eq_of_not_opened request sinks world hshown, hinstantiate, flushes_of_not_opened hopen]
  rw [run_eq_of_not_opened request sinks world hopen] at hechoes ⊢
  exact hechoes

theorem echoes_of_failed {cause : GuestFault}
    (hopen : (p.loaded.instantiate (log.showing none) ()).result = .ok session)
    (hresult : (p.compileIn request session).result = .error cause) :
    Echoes surface (p.flushes request (log.showing none))
      (p.run request (log.showing none) sinks world)
      (p.run request (log.showing surface) sinks world) := by
  have hfailed := (decoded_of_opened request hopen).trans hresult
  have hechoes := Echoes.whole surface
    (shows_of_failed request sinks world hopen hfailed).reports
  have hrun := run_eq_of_opened request sinks world hopen
  have hrunShown := run_eq_of_opened request sinks world (opened_showing surface hopen)
  -- the log that is closed has no surface where the run had none
  have hlog : (p.compileIn request session).state.log.showing none =
      (p.compileIn request session).state.log := by
    have hnone := (p.unaware_compileIn request).leaves_none session
    rw [showing_of_opened hopen] at hnone
    exact congrArg Session.log hnone
  let behind := Surface.behindAll (p.surfaceOpened log surface)
    (p.compileIn request session).journal.blocks
  have habort := abort_showing behind world (p.compileIn request session).state.log cause
  rw [hlog] at habort
  rw [compileIn_showing _ request hopen, prologue_showing surface request hopen] at hrunShown
  simp only [Session.echo, hresult] at hrunShown
  simp only [hresult] at hrun
  change _ = (abort ((p.compileIn request session).state.log.showing behind) cause world).behind _
    at hrunShown
  rw [hrun] at hechoes ⊢
  rw [hrunShown, habort, flushes_of_failed hopen hfailed]
  rwa [Ended.behind_journal, Journal.echoed_append, behindAll_prologue] at hechoes

theorem echoes_of_decoded {outcome : Outcome}
    (hopen : (p.loaded.instantiate (log.showing none) ()).result = .ok session)
    (hresult : (p.compileIn request session).result = .ok outcome) :
    Echoes surface (p.flushes request (log.showing none))
      (p.run request (log.showing none) sinks world)
      (p.run request (log.showing surface) sinks world) := by
  have hdecoded := (decoded_of_opened request hopen).trans hresult
  have hreports : (p.prologue request (log.showing none) session).ofLog =
      blocksReports none (Speech.blocks log.pending (p.speech request (log.showing none))) := by
    rw [prologue, Journal.ofLog_cons_of_other _ rfl, Journal.ofLog_append,
      reports_of_compiled request hopen]
    rfl
  obtain ⟨hblocks, hquiet⟩ := Journal.quiet_of_ofLog hreports
  have hrun := run_eq_of_opened request sinks world hopen
  have hrunShown := run_eq_of_opened request sinks world (opened_showing surface hopen)
  rw [compileIn_showing _ request hopen, prologue_showing surface request hopen] at hrunShown
  simp only [Session.echo, hresult] at hrunShown
  simp only [hresult] at hrun
  -- what a report is made of has nothing of the surface in it
  change _ = (p.conclude outcome (p.compileIn request session).state sinks world).behind _
    at hrunShown
  rw [hrun, hrunShown, flushes_of_decoded hdecoded]
  exact .behind hblocks hquiet rfl

/-- A run with a surface is the run without, but for what the surface reports of each block that
the run completes. -/
theorem run_showing (p : Pipeline σ) (request : Request) (log : Log) :
    Echoes surface (p.flushes request (log.showing none))
      (p.run request (log.showing none) sinks world)
      (p.run request (log.showing surface) sinks world) := by
  cases hopen : (p.loaded.instantiate (log.showing none) ()).result with
  | error cause => exact echoes_of_not_opened surface sinks world hopen
  | ok session =>
      cases hresult : (p.compileIn request session).result with
      | error cause => exact echoes_of_failed surface sinks world hopen hresult
      | ok outcome => exact echoes_of_decoded surface sinks world hopen hresult

end Opened

end Pipeline

/-! ## Sequences of operations -/

namespace Session

/-- What can be done with a session and its log from outside. -/
inductive Operation where
  | encode (text : String)
  | loadFilesystem (image : ByteArray)
  | prepareInputs (options : Options) (source : String)
  | entryForm
  | compile (options : Options) (source : String)
  | outcomeAt (a : Address)
  | append (text : String)
  | flush
  /-- Gives the completed blocks away. -/
  | takeTranscript
  | attach (s : Surface)
  | detach

/-- What an operation gives. -/
inductive Answer where
  | done
  | encoded (text : EncodedText)
  | region (r : Region)
  | inputs (options source : EncodedText)
  | form (f : EntryForm)
  | address (a : Address)
  | outcome (o : Outcome)
  | block (text : String)
  | blocks (texts : List String)

variable {σ : Type}

/-- Does something to the log that gives nothing. -/
def changeLog (f : Log → Log) : Action (Session σ) GuestFault Answer := do
  Action.modify fun s => { s with log := f s.log }
  pure .done

namespace Operation

/-- Carries an operation out. -/
def perform : Operation → Action (Session σ) GuestFault Answer
  | .encode text => .encoded <$> Session.encode text
  | .loadFilesystem image => .region <$> Session.loadFilesystem image
  | .prepareInputs options source =>
    (fun texts => .inputs texts.1 texts.2) <$> Session.prepareInputs options source
  | .entryForm => .form <$> Session.entryForm
  | .compile options source => .address <$> Session.compile options source
  | .outcomeAt a => .outcome <$> Session.outcomeAt a
  | .append text => changeLog (·.append text)
  | .flush => .block <$> onLog Log.flush
  | .takeTranscript => do
    let s ← Action.get
    let _ ← changeLog Log.clear
    pure (.blocks s.log.transcript)
  | .attach surface => changeLog (·.attach surface)
  | .detach => changeLog Log.detach

/-- The operation, where nothing may be attached. -/
def unattached : Operation → Operation
  | .attach _ => .detach
  | op => op

/-- The surface that is attached behind an operation, which may complete blocks. -/
def surfaceAfter (surface : Option Surface) (blocks : List String) : Operation → Option Surface
  | .attach s => some s
  | .detach => none
  | _ => Surface.behindAll surface blocks

/-- An operation comes to what it comes to without a surface, and leaves the one that it should. -/
theorem perform_showing (op : Operation) (s : Session σ) (surface : Option Surface) :
    op.perform (s.showing surface) =
        ⟨(op.unattached.perform (s.showing none)).result,
          (op.unattached.perform (s.showing none)).state.showing
            (op.surfaceAfter surface (op.unattached.perform (s.showing none)).journal.blocks),
          (op.unattached.perform (s.showing none)).journal.echoed surface⟩ ∧
      (op.unattached.perform (s.showing none)).journal.onSurface = [] := by
  -- what is done with a session does not notice the surface, and the rest only changes the log
  have hunaware : ∀ {x : Action (Session σ) GuestFault Answer}, Unaware x →
      x (s.showing surface) = echo surface (x (s.showing none)) ∧
        (x (s.showing none)).journal.onSurface = [] :=
    fun hx => ⟨hx.same s surface, hx.quiet s⟩
  cases op with
  | encode text => exact hunaware ((unaware_encode text).map _)
  | loadFilesystem image => exact hunaware ((unaware_loadFilesystem image).map _)
  | prepareInputs options source => exact hunaware ((unaware_prepareInputs options source).map _)
  | entryForm => exact hunaware (unaware_entryForm.map _)
  | compile options source => exact hunaware ((unaware_compile options source).map _)
  | outcomeAt a => exact hunaware ((unaware_outcomeAt a).map _)
  | append text => exact ⟨rfl, rfl⟩
  | flush => exact hunaware (unaware_flush.map _)
  | takeTranscript => exact ⟨rfl, rfl⟩
  | attach other => exact ⟨rfl, rfl⟩
  | detach => exact ⟨rfl, rfl⟩

end Operation

/-- Carries operations out one after the other, whatever faults there are, and gives what each
gives. -/
def performAll : List Operation → Action (Session σ) GuestFault (List (Except GuestFault Answer))
  | [] => pure []
  | op :: rest => do
    let answer ← Action.attempt op.perform
    let answers ← performAll rest
    pure (answer :: answers)

/-- What is reported of each operation where nothing may be attached, beside the surface that is
attached otherwise when the operation begins. -/
def segments (surface : Option Surface) (s : Session σ) :
    List Operation → List (Option Surface × Journal)
  | [] => []
  | op :: rest =>
    let quiet := op.unattached.perform s
    (surface, quiet.journal) ::
      segments (op.surfaceAfter surface quiet.journal.blocks) quiet.state rest

/-- The surface that is attached behind operations. -/
def lastSurface (surface : Option Surface) (s : Session σ) : List Operation → Option Surface
  | [] => surface
  | op :: rest =>
    let quiet := op.unattached.perform s
    lastSurface (op.surfaceAfter surface quiet.journal.blocks) quiet.state rest

theorem performAll_cons (op : Operation) (rest : List Operation) (s : Session σ) :
    performAll (op :: rest) s =
      ⟨(performAll rest (op.perform s).state).result.map ((op.perform s).result :: ·),
        (performAll rest (op.perform s).state).state,
        (op.perform s).journal ++ (performAll rest (op.perform s).state).journal⟩ := by
  simp only [performAll, Action.attempt_bind_apply, bind_pure_comp, Action.map_apply]
  rfl

/-- Without a surface, an operation that attaches none leaves none. -/
theorem showing_of_unattached (op : Operation) (s : Session σ) :
    (op.unattached.perform (s.showing none)).state.showing none =
      (op.unattached.perform (s.showing none)).state := by
  have hsame := (op.unattached.perform_showing s none).1
  have htwice : op.unattached.unattached = op.unattached := by cases op <;> rfl
  have hnone : ∀ blocks, op.unattached.surfaceAfter none blocks = none := by
    intro blocks
    cases op <;> first | rfl | exact Surface.behindAll_none blocks
  rw [htwice, hnone] at hsame
  exact (congrArg Ended.state hsame).symm

/-- Operations come to what they come to without surfaces, and each surface has its part of the
journal. The induction is on the operations; it carries the surface that is attached by then. -/
theorem performAll_showing (operations : List Operation) (s : Session σ)
    (surface : Option Surface) :
    performAll operations (s.showing surface) =
        ⟨(performAll (operations.map Operation.unattached) (s.showing none)).result,
          (performAll (operations.map Operation.unattached) (s.showing none)).state.showing
            (lastSurface surface (s.showing none) operations),
          (segments surface (s.showing none) operations).flatMap fun part =>
            part.2.echoed part.1⟩ ∧
      (performAll (operations.map Operation.unattached) (s.showing none)).journal =
        (segments surface (s.showing none) operations).flatMap Prod.snd ∧
      ∀ part ∈ segments surface (s.showing none) operations, part.2.onSurface = [] := by
  induction operations generalizing s surface with
  | nil =>
      refine ⟨rfl, rfl, ?_⟩
      intro part hpart
      cases hpart
  | cons op rest ih =>
      -- the rest begins where the first operation left the session, with the surface it left
      obtain ⟨hsame, hquiet⟩ := op.perform_showing s surface
      have hstate := showing_of_unattached op s
      obtain ⟨hrest, hjournal, hothers⟩ :=
        ih (op.unattached.perform (s.showing none)).state
          (op.surfaceAfter surface (op.unattached.perform (s.showing none)).journal.blocks)
      rw [hstate] at hrest hjournal hothers
      refine ⟨?_, ?_, ?_⟩
      · rw [List.map_cons, performAll_cons, performAll_cons, hsame, hrest]
        rfl
      · rw [List.map_cons, performAll_cons, hjournal]
        rfl
      · intro part hpart
        rcases List.mem_cons.1 hpart with rfl | hpart
        · exact hquiet
        · exact hothers part hpart

end Session

/-! ## What surfaces receive -/

theorem Journal.shownOn_flatMap {α : Type} {parts : List α} {f : α → Journal}
    {g : α → List String} {id : Nat} (h : ∀ part ∈ parts, (f part).shownOn id = g part) :
    Journal.shownOn (parts.flatMap f) id = parts.flatMap g := by
  induction parts with
  | nil => rfl
  | cons part parts ih =>
      have hrest := ih fun other hother => h other (List.mem_cons_of_mem part hother)
      rw [List.flatMap_cons, List.flatMap_cons, shownOn_append, hrest, h part List.mem_cons_self]

theorem Journal.events_flatMap {α : Type} {parts : List α} {f g : α → Journal}
    (h : ∀ part ∈ parts, (f part).events = (g part).events) :
    Journal.events (parts.flatMap f) = Journal.events (parts.flatMap g) := by
  induction parts with
  | nil => rfl
  | cons part parts ih =>
      have hrest := ih fun other hother => h other (List.mem_cons_of_mem part hother)
      rw [List.flatMap_cons, List.flatMap_cons, events_append, events_append, hrest,
        h part List.mem_cons_self]

namespace Surface

/-- Surfaces change nothing. A run with one has the result of the run without, leaves the sinks in
the same state and reports the same; only that the surface is handed each block that the run
completes, as a terminal wants it, and that it says so behind the block if it fails to take it. If
surfaces are attached and detached in a sequence of operations, the same holds of the sequence, and
each surface is handed what is completed while it is attached. -/
theorem unnoticed {σ ω : Type} :
    (∀ (p : Pipeline σ) (request : Request) (log : Log) (s : Surface) (sinks : List (Sink ω))
        (world : ω),
      ∃ before after : Journal,
        before.blocks = p.flushes request log.detach ∧
        (p.run request log.detach sinks world).journal = before ++ after ∧
        p.run request (log.attach s) sinks world =
          ⟨(p.run request log.detach sinks world).result,
            (p.run request log.detach sinks world).state, before.echoed (some s) ++ after⟩ ∧
        (before.echoed (some s)).shownOn s.id = writtenOn s.id (some s) before.blocks ∧
        (s.TakesAll → (before.echoed (some s)).events = before.events)) ∧
    ∀ (operations : List Session.Operation) (session : Session σ),
      let quiet := Session.performAll (operations.map .unattached) (session.showing none)
      let shown := Session.performAll operations session
      let parts := Session.segments session.log.surface (session.showing none) operations
      shown.result = quiet.result ∧
      shown.state = quiet.state.showing
        (Session.lastSurface session.log.surface (session.showing none) operations) ∧
      quiet.journal = parts.flatMap Prod.snd ∧
      shown.journal = parts.flatMap (fun part => part.2.echoed part.1) ∧
      (∀ id, shown.journal.shownOn id =
        parts.flatMap fun part => writtenOn id part.1 part.2.blocks) ∧
      ((∀ part ∈ parts, ∀ s, part.1 = some s → s.TakesAll) →
        shown.journal.events = quiet.journal.events) := by
  constructor
  · intro p request log s sinks world
    have hechoes := Pipeline.run_showing (some s) sinks world p request log
    change Pipeline.Echoes (some s) (p.flushes request log.detach)
      (p.run request log.detach sinks world) (p.run request (log.attach s) sinks world) at hechoes
    generalize p.run request (log.attach s) sinks world = shown at hechoes
    rcases hechoes with ⟨hblocks, hquiet, hjournal⟩
    refine ⟨_, _, hblocks, hjournal, rfl, Journal.shownOn_echoed hquiet _ _, ?_⟩
    intro htakes
    refine Journal.events_echoed ?_ _
    intro other hother
    rwa [← Option.some.inj hother]
  · intro operations session quiet shown parts
    obtain ⟨hshown, hjournal, hparts⟩ :=
      Session.performAll_showing operations session session.log.surface
    have hresult := congrArg Ended.result hshown
    have hstate := congrArg Ended.state hshown
    have hechoes : shown.journal = parts.flatMap fun part => part.2.echoed part.1 :=
      congrArg Ended.journal hshown
    refine ⟨hresult, hstate, hjournal, hechoes, ?_, ?_⟩
    · intro id
      rw [hechoes]
      refine Journal.shownOn_flatMap ?_
      intro part hpart
      exact Journal.shownOn_echoed (hparts part hpart) _ _
    · intro htakes
      rw [hechoes]
      refine (Journal.events_flatMap ?_).trans (congrArg Journal.events hjournal.symm)
      intro part hpart
      exact Journal.events_echoed (htakes part hpart) _

/-- A terminal that has room for so many texts. -/
def filling (room : Nat) : Surface :=
  ⟨0, some ⟨fun texts => if texts.length ≤ room then none else some .noSpaceLeft⟩⟩

/-- Of what it is handed while it is full, it takes nothing. -/
example : writtenOn 0 (some (filling 1)) ["first", "second", "third"] = ["first\r\n"] := by
  decide +kernel

/-- A terminal without room for anything. -/
def full : Surface := ⟨0, some .noSpaceLeft⟩

/-- The operator reads of it if a terminal is full. -/
theorem events_of_full :
    (Pipeline.run (Pipeline.ofScript (Pipeline.wordy none [.flush, .exit (.word 64)])) ⟨.none, ""⟩
        (.fresh (some full)) ([] : List (Sink Unit)) ()).journal.events ≠
      (Pipeline.run (Pipeline.ofScript (Pipeline.wordy none [.flush, .exit (.word 64)]))
        ⟨.none, ""⟩ (.fresh none) ([] : List (Sink Unit)) ()).journal.events := by
  decide +kernel

end Surface

end CompilerHost
