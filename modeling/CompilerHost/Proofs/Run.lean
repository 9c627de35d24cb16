import CompilerHost.Proofs.Hearing

/-! # The course of a run

What a run says of its guest is settled by the guest alone: the turns that it takes from its start
to a decoded result (`Pipeline.turns`), what it says in them (`Pipeline.speech`) and the result
(`Pipeline.decoded`). What the host makes of it is one of four courses, whatever the sinks.

* `Loaded.opens_instantiate`: the log hears all that a guest says while it is set up;
* `Pipeline.course`: every run takes one of four courses;
* `Pipeline.shows_of_not_opened`, `Pipeline.shows_of_failed`, `Pipeline.shows_of_noPayload` and
  `Pipeline.shows_of_payload`: what the end of each shows;
* `Pipeline.comesTo`: the results of all of them.
-/

namespace CompilerHost

namespace Loaded

variable {σ : Type}

/-! ## Instantiation -/

/-- What a guest remembers and its memory as they are before it starts. -/
def setUp (l : Loaded σ) : Except GuestFault (σ × Memory) :=
  if l.guest.linkable then do
    let globals ← l.guest.globals.mapError fun t => .execution (.trap t)
    let memory ← initialMemory l.guest.data l.guest.memory
    return (globals, memory)
  else throw (.execution .refused)

/-- Runs the guest's start function, if it has one. -/
def start (l : Loaded σ) (fresh : Session σ) : Action Unit GuestFault (Session σ) :=
  match l.guest.start with
  | none => pure fresh
  | some (.own f) => Action.finalState (Session.call f []) fresh
  | some (.host call) => Action.finalState (Session.answer call) fresh

/-- Looks up what the guest needs for any compile. -/
def settle (l : Loaded σ) (session : Session σ) : Action Unit GuestFault (Session σ) := do
  if l.guest.exportsMemory then
    let _ ← Action.ofExcept (l.guest.allocator? Guest.allocatorExport)
    Action.emit (.sessionOpened session.live.memory.size l.fuel.toNat)
    pure session
  else throw (.missingExport Guest.memoryExport)

theorem instantiate_eq (l : Loaded σ) (log : Log) :
    l.instantiate log =
      Action.ofExcept l.setUp >>= fun first =>
        l.start (l.unstarted first.1 first.2 log) >>= l.settle := by
  unfold instantiate setUp start
  by_cases hlink : l.guest.linkable = true
  · cases hglobals : l.guest.globals with
    | error trap => simp only [hlink]; rfl
    | ok globals =>
        cases hmemory : initialMemory l.guest.data l.guest.memory with
        | error fault => simp only [hlink]; rfl
        | ok memory =>
            simp only [hlink]
            cases hstart : l.guest.start with
            | none => rfl
            | some start => cases start <;> rfl
  · simp only [hlink]
    rfl

/-- A guest that does not start anything is a session as soon as it is set up. -/
theorem instantiate_of_unstarted {l : Loaded σ} {globals : σ} {memory : Memory}
    {allocator : Function σ} (hsetUp : l.setUp = .ok (globals, memory))
    (hstart : l.guest.start = none) (hmemory : l.guest.exportsMemory = true)
    (hallocator : l.guest.allocator? Guest.allocatorExport = .ok allocator) (log : Log) :
    (l.instantiate log ()).result = .ok (l.unstarted globals memory log) := by
  rw [instantiate_eq, hsetUp, Action.ofExcept_ok, Action.pure_bind_apply, start, hstart,
    Action.pure_bind_apply, settle, if_pos hmemory, hallocator]
  rfl

/-- The turn that a guest has when it is instantiated, if it gets so far and wants one. -/
def startTurns (l : Loaded σ) : List (Turn σ) :=
  match l.setUp with
  | .error _ => []
  | .ok (globals, memory) =>
    match l.guest.start with
    | none => []
    | some (.own f) => [.function f [] ⟨memory, globals, l.fuel⟩]
    | some (.host call) => [.host call ⟨memory, globals, l.fuel⟩]

/-- An action that opens a session lets the log hear a speech: it delivers the blocks of that,
whether it succeeds or not, and hands the log on with the session. -/
structure Opens (l : Loaded σ) (log : Log) (speech : List Utterance)
    (x : Action Unit GuestFault (Session σ)) : Prop where
  reports : (x ()).journal.ofLog =
    blocksReports log.surface (Speech.blocks log.pending speech)
  guest : ∀ session, (x ()).result = .ok session → session.guest = l.guest
  log : ∀ session, (x ()).result = .ok session → session.log = log.heard speech

theorem opens_pure (l : Loaded σ) {session : Session σ} (hguest : session.guest = l.guest) :
    l.Opens session.log [] (pure session) where
  reports := rfl
  guest := by
    intro _ h
    obtain rfl := Except.ok.inj h
    exact hguest
  log := by
    intro _ h
    obtain rfl := Except.ok.inj h
    exact (Log.heard_nil _).symm

/-- What a session hears is heard by the log that it was opened with. -/
theorem opens_finalState (l : Loaded σ) {fresh : Session σ} {α : Type}
    {x : Action (Session σ) GuestFault α} {speech : List Utterance}
    (hguest : fresh.guest = l.guest) (hears : Session.Hears x fresh speech) :
    l.Opens fresh.log speech (Action.finalState x fresh) := by
  refine ⟨hears.reports, ?_, ?_⟩
  · intro session h
    obtain ⟨_, _, rfl⟩ := Action.ok_of_finalState_ok h
    rw [hears.guest, hguest]
  · intro session h
    obtain ⟨_, _, rfl⟩ := Action.ok_of_finalState_ok h
    rw [hears.log]

/-- The look-up reports nothing of the log, and gives the session that it was given. -/
theorem settle_keeps (l : Loaded σ) (opened : Session σ) :
    (l.settle opened ()).journal.ofLog = [] ∧
      ∀ session, (l.settle opened ()).result = .ok session → session = opened := by
  unfold settle
  by_cases hmemory : l.guest.exportsMemory = true
  · cases hallocator : l.guest.allocator? Guest.allocatorExport with
    | error cause => exact ⟨by simp [hmemory], by simp [hmemory]⟩
    | ok f =>
        rw [if_pos hmemory, Action.ofExcept_ok, Action.pure_bind_apply]
        exact ⟨rfl, fun session hok => (Except.ok.inj hok).symm⟩
  · exact ⟨by simp [hmemory], by simp [hmemory]⟩

theorem Opens.settle {l : Loaded σ} {log : Log} {speech : List Utterance}
    {x : Action Unit GuestFault (Session σ)} (h : l.Opens log speech x) :
    l.Opens log speech (x >>= l.settle) := by
  cases hx : (x ()).result with
  | error cause =>
      have hend := Action.bind_of_error l.settle hx
      refine ⟨by rw [hend]; exact h.reports, ?_, ?_⟩
      · intro session hok
        simp [hend] at hok
      · intro session hok
        simp [hend] at hok
  | ok opened =>
      have hend := Action.bind_of_ok l.settle hx
      obtain ⟨hreports, hsame⟩ := l.settle_keeps opened
      have hopened : ∀ session, ((x >>= l.settle) ()).result = .ok session → session = opened := by
        intro session hok
        rw [hend] at hok
        exact hsame session hok
      refine ⟨by rw [hend, Ended.behind_journal, Journal.ofLog_append, h.reports, hreports,
        List.append_nil], ?_, ?_⟩
      · intro session hok
        rw [hopened session hok]
        exact h.guest opened hx
      · intro session hok
        rw [hopened session hok]
        exact h.log opened hx

/-- The log hears all that a guest says while it is set up. -/
theorem opens_instantiate (l : Loaded σ) (log : Log) :
    l.Opens log (l.guest.speech l.startTurns) (l.instantiate log) := by
  rw [instantiate_eq]
  unfold startTurns
  cases hsetUp : l.setUp with
  | error cause => exact ⟨rfl, by simp, by simp⟩
  | ok first =>
      obtain ⟨globals, memory⟩ := first
      have hfresh : (l.unstarted globals memory log).guest = l.guest := rfl
      refine Opens.settle (x := l.start (l.unstarted globals memory log)) ?_
      unfold start
      cases hstart : l.guest.start with
      | none => exact l.opens_pure hfresh
      | some t =>
          cases t with
          | own f =>
              have hears := Session.hears_call f [] (l.unstarted globals memory log)
              rw [Guest.speech_singleton]
              exact l.opens_finalState hfresh hears
          | host call =>
              have hears := Session.hears_turn_of_host call (l.unstarted globals memory log)
              rw [Guest.speech_singleton]
              exact l.opens_finalState hfresh hears

end Loaded

namespace Pipeline

variable {σ ω : Type}

/-! ## The guest's part -/

/-- The result that a run gets from its guest, or why there is none. -/
def decoded (p : Pipeline σ) (request : Request) (log : Log) : Except GuestFault Outcome :=
  match (p.loaded.instantiate log ()).result with
  | .error cause => .error cause
  | .ok session => (p.compileIn request session).result

/-- The turns that the guest takes in a run, from its start to the result. -/
def turns (p : Pipeline σ) (request : Request) (log : Log) : List (Turn σ) :=
  p.loaded.startTurns ++
    match (p.loaded.instantiate log ()).result with
    | .error _ => []
    | .ok session => (Watched.compileIn p request).turns session

/-- What the guest says in a run. -/
def speech (p : Pipeline σ) (request : Request) (log : Log) : List Utterance :=
  p.loaded.guest.speech (p.turns request log)

variable {p : Pipeline σ} (request : Request) {log : Log}

theorem decoded_of_opened {session : Session σ}
    (hopen : (p.loaded.instantiate log ()).result = .ok session) :
    p.decoded request log = (p.compileIn request session).result := by
  simp [decoded, hopen]

theorem decoded_of_not_opened {cause : GuestFault}
    (hopen : (p.loaded.instantiate log ()).result = .error cause) :
    p.decoded request log = .error cause := by
  simp [decoded, hopen]

theorem turns_of_opened {session : Session σ}
    (hopen : (p.loaded.instantiate log ()).result = .ok session) :
    p.turns request log =
      p.loaded.startTurns ++ (Watched.compileIn p request).turns session := by
  simp [turns, hopen]

theorem speech_of_opened {session : Session σ}
    (hopen : (p.loaded.instantiate log ()).result = .ok session) :
    p.speech request log =
      p.loaded.guest.speech p.loaded.startTurns ++
        p.loaded.guest.speech ((Watched.compileIn p request).turns session) := by
  rw [speech, turns_of_opened request hopen, Guest.speech_append]

theorem speech_of_not_opened {cause : GuestFault}
    (hopen : (p.loaded.instantiate log ()).result = .error cause) :
    p.speech request log = p.loaded.guest.speech p.loaded.startTurns := by
  simp [speech, turns, hopen]

theorem hears_compileIn {session : Session σ}
    (hopen : (p.loaded.instantiate log ()).result = .ok session) :
    Session.Hears (p.compileIn request) session
      (p.loaded.guest.speech ((Watched.compileIn p request).turns session)) := by
  have hears := Watched.heard_compileIn p request session
  rw [Watched.action_compileIn, (p.loaded.opens_instantiate log).guest session hopen] at hears
  exact hears

/-- The log has heard everything by the time that the guest is done, or has failed. -/
theorem log_of_compiled {session : Session σ}
    (hopen : (p.loaded.instantiate log ()).result = .ok session) :
    (p.compileIn request session).state.log = log.heard (p.speech request log) := by
  rw [(hears_compileIn request hopen).log, (p.loaded.opens_instantiate log).log session hopen,
    speech_of_opened request hopen, Log.heard_append]

theorem reports_of_compiled {session : Session σ}
    (hopen : (p.loaded.instantiate log ()).result = .ok session) :
    (p.loaded.instantiate log ()).journal.ofLog ++ (p.compileIn request session).journal.ofLog =
      blocksReports log.surface (Speech.blocks log.pending (p.speech request log)) := by
  rw [(p.loaded.opens_instantiate log).reports, (hears_compileIn request hopen).reports,
    (p.loaded.opens_instantiate log).log session hopen, speech_of_opened request hopen,
    Speech.blocks_append, blocksReports_append]
  rfl

/-! ## The sinks' part -/

/-- What sinks report themselves when they are handed an artifact in order, up to the first that
refuses. -/
def sinkReports (name : String) (bytes : ByteArray) : List (Sink ω) → ω → Journal
  | [], _ => []
  | sink :: rest, world =>
    let ended := sink.deliver name bytes world
    ended.journal ++
      match ended.result with
      | .ok () => sinkReports name bytes rest ended.state
      | .error _ => []

theorem deliver_of_accepted {name : String} {bytes : ByteArray} {sink : Sink ω}
    {rest : List (Sink ω)} {world : ω} (h : (sink.deliver name bytes world).result = .ok ()) :
    deliver name bytes (sink :: rest) world =
      (((sink.kind :: ·) <$> deliver name bytes rest) (sink.deliver name bytes world).state).behind
        ((sink.deliver name bytes world).journal ++
          [.event (.delivered sink.kind name bytes.size)]) := by
  simp only [deliver, Action.attempt_bind_apply, h, Action.emit_bind_apply, bind_pure_comp,
    Ended.behind_behind]

theorem deliver_of_refused {name : String} {bytes : ByteArray} {sink : Sink ω}
    (rest : List (Sink ω)) {world : ω} {cause : SinkFault}
    (h : (sink.deliver name bytes world).result = .error cause) :
    deliver name bytes (sink :: rest) world =
      ⟨.error (.delivery sink.kind cause), (sink.deliver name bytes world).state,
        (sink.deliver name bytes world).journal ++
          [.event (.deliveryFailed sink.kind name cause.message)]⟩ := by
  simp only [deliver, Action.attempt_bind_apply, h, Action.emit_bind_apply, Action.throw_apply,
    Ended.behind, List.append_nil]

/-- A delivery adds nothing to the log's part in what the sinks report. -/
theorem ofLog_deliver (name : String) (bytes : ByteArray) (sinks : List (Sink ω)) (world : ω) :
    (deliver name bytes sinks world).journal.ofLog =
      (sinkReports name bytes sinks world).ofLog := by
  induction sinks generalizing world with
  | nil => rfl
  | cons sink rest ih =>
      cases hanswer : (sink.deliver name bytes world).result with
      | error cause =>
          rw [deliver_of_refused rest hanswer]
          simp only [sinkReports, hanswer, Journal.ofLog_append]
          rfl
      | ok _ =>
          rw [deliver_of_accepted hanswer, Ended.behind_journal, Action.map_apply]
          simp only [sinkReports, hanswer, Journal.ofLog_append, ih]
          rw [Journal.ofLog_cons_of_other _ rfl, Journal.ofLog_nil, List.append_nil]

/-- The first of the sinks to refuse an artifact that they are handed in order, if one does: its
kind, and why. -/
def firstRefusal (name : String) (bytes : ByteArray) :
    List (Sink ω) → ω → Option (String × SinkFault)
  | [], _ => none
  | sink :: rest, world =>
    match (sink.deliver name bytes world).result with
    | .ok () => firstRefusal name bytes rest (sink.deliver name bytes world).state
    | .error cause => some (sink.kind, cause)

/-- Nobody refuses exactly if the first sink accepts, and nobody refuses behind it. -/
theorem firstRefusal_cons_eq_none_iff {name : String} {bytes : ByteArray} {sink : Sink ω}
    {rest : List (Sink ω)} {world : ω} :
    firstRefusal name bytes (sink :: rest) world = none ↔
      (sink.deliver name bytes world).result = .ok () ∧
        firstRefusal name bytes rest (sink.deliver name bytes world).state = none := by
  rw [firstRefusal]
  cases (sink.deliver name bytes world).result with
  | ok _ => exact ⟨fun hrest => ⟨rfl, hrest⟩, fun h => h.2⟩
  | error cause => exact ⟨nofun, fun h => nomatch h.1⟩

/-- A delivery comes to the kinds of all sinks, or to the first refusal. -/
theorem result_deliver (name : String) (bytes : ByteArray) (sinks : List (Sink ω)) (world : ω) :
    (deliver name bytes sinks world).result =
      match firstRefusal name bytes sinks world with
      | none => .ok (sinks.map Sink.kind)
      | some (kind, cause) => .error (.delivery kind cause) := by
  induction sinks generalizing world with
  | nil => rfl
  | cons sink rest ih =>
      cases hanswer : (sink.deliver name bytes world).result with
      | error cause =>
          rw [deliver_of_refused rest hanswer, firstRefusal, hanswer]
      | ok _ =>
          rw [deliver_of_accepted hanswer, Ended.behind_result, Action.map_apply, ih]
          simp only [firstRefusal, hanswer]
          cases firstRefusal name bytes rest (sink.deliver name bytes world).state with
          | none => rfl
          | some refusal => rfl

/-! ## The host's part -/

/-- What an ending shows to those who wait for it: the result, the world of the sinks, and what
was reported of the log. -/
structure Shows (e : Ended ω RunFault RunReport) (result : Except RunFault RunReport) (world : ω)
    (reports : Journal) : Prop where
  result : e.result = result
  state : e.state = world
  reports : e.journal.ofLog = reports

theorem Shows.behind {e : Ended ω RunFault RunReport} {result : Except RunFault RunReport}
    {world : ω} {reports : Journal} (h : Shows e result world reports) (before : Journal) :
    Shows (e.behind before) result world (before.ofLog ++ reports) :=
  ⟨h.result, h.state, by rw [Ended.behind_journal, Journal.ofLog_append, h.reports]⟩

/-- Giving up delivers what is pending, unless it is empty, and hands the whole log on. -/
theorem abort_eq (log : Log) (cause : GuestFault) (world : ω) :
    abort log cause world =
      ⟨.error (.compile cause (log.transcript ++ Speech.brokenOff log.pending [])), world,
        blocksReports log.surface (Speech.brokenOff log.pending []) ++
          [.event (.compileAborted cause.message
            (log.transcript ++ Speech.brokenOff log.pending []).length)]⟩ := by
  by_cases hpending : log.pending = ""
  · have hblocks : Speech.brokenOff log.pending [] = [] := by
      simp [Speech.brokenOff, Speech.blocks, Speech.remainder, hpending]
    rw [hblocks, List.append_nil]
    simp [abort, hpending, Ended.behind]
  · have hblocks : Speech.brokenOff log.pending [] = [log.pending] := by
      simp [Speech.brokenOff, Speech.blocks, Speech.remainder, hpending]
    rw [hblocks, blocksReports_singleton, ← Log.delivery_eq]
    simp [abort, hpending, Ended.behind, Log.flushed]

theorem shows_abort (log : Log) (cause : GuestFault) (world : ω) :
    Shows (abort log cause world)
      (.error (.compile cause (log.transcript ++ Speech.brokenOff log.pending []))) world
      (blocksReports log.surface (Speech.brokenOff log.pending [])) := by
  rw [abort_eq]
  refine ⟨rfl, rfl, ?_⟩
  rw [Journal.ofLog_append, ofLog_blocksReports]
  exact List.append_nil _

/-- What a run reports before it hands anything to a sink. -/
def undelivered (outcome : Outcome) (session : Session σ) : RunReport where
  outcome := outcome
  kind := none
  diagnostics := session.log.transcript
  unflushed := session.log.pending
  delivered := []
  fuelConsumed := session.fuelConsumed

theorem shows_conclude_noPayload (p : Pipeline σ) (declaredLength : Int) (session : Session σ)
    (sinks : List (Sink ω)) (world : ω) :
    Shows (p.conclude (.noPayload declaredLength) session sinks world)
      (.ok (undelivered (.noPayload declaredLength) session)) world [] := by
  have hconclude : p.conclude (.noPayload declaredLength) session sinks =
      withoutPayload (undelivered (.noPayload declaredLength) session) declaredLength := rfl
  rw [hconclude, withoutPayload]
  split
  · exact ⟨rfl, rfl, rfl⟩
  · exact ⟨rfl, rfl, rfl⟩

theorem shows_conclude_payload (p : Pipeline σ) (bytes : ByteArray) (session : Session σ)
    (sinks : List (Sink ω)) (world : ω) :
    Shows (p.conclude (.payload bytes) session sinks world)
      ((deliver p.artifactName bytes sinks world).result.map fun kinds =>
        { undelivered (.payload bytes) session with
          kind := some (ArtifactKind.detect bytes), delivered := kinds })
      (deliver p.artifactName bytes sinks world).state
      (sinkReports p.artifactName bytes sinks world).ofLog := by
  have hconclude : p.conclude (.payload bytes) session sinks =
      p.withPayload (undelivered (.payload bytes) session) bytes sinks := rfl
  rw [hconclude, withPayload, ← ofLog_deliver]
  simp only [bind_pure_comp]
  split
  · simp only [Action.emit_bind_apply, Action.map_apply]
    exact ⟨rfl, rfl, rfl⟩
  · simp only [Action.emit_bind_apply, Action.map_apply]
    exact ⟨rfl, rfl, rfl⟩

/-! ## Courses -/

section Courses

variable (sinks : List (Sink ω)) (world : ω)

/-- A run begins with the word that it does. -/
def started (request : Request) : Event :=
  .compileStarted request.options.commandLine request.source.utf8ByteSize

theorem run_eq_of_not_opened {cause : GuestFault}
    (hopen : (p.loaded.instantiate log ()).result = .error cause) :
    p.run request log sinks world =
      ⟨.error (.guest cause), world,
        .event (started request) :: (p.loaded.instantiate log ()).journal⟩ := by
  simp only [run, hopen, Action.emit_bind_apply, Action.reported_bind_apply, Action.throw_apply,
    Ended.behind, List.append_nil]
  rfl

/-- A run of a guest that cannot be instantiated. What was delivered by then are the blocks of the
guest's start, and the log is lost. -/
theorem shows_of_not_opened {cause : GuestFault}
    (hopen : (p.loaded.instantiate log ()).result = .error cause) :
    Shows (p.run request log sinks world) (.error (.guest cause)) world
      (blocksReports log.surface (Speech.blocks log.pending (p.speech request log))) := by
  have hrun := run_eq_of_not_opened request sinks world hopen
  refine ⟨by rw [hrun], by rw [hrun], ?_⟩
  rw [hrun, Journal.ofLog_cons_of_other _ rfl, (p.loaded.opens_instantiate log).reports,
    speech_of_not_opened request hopen]

/-- What is reported of a run by the time that its guest is done, or has failed. -/
def prologue (p : Pipeline σ) (request : Request) (log : Log) (session : Session σ) : Journal :=
  .event (started request) ::
    ((p.loaded.instantiate log ()).journal ++ (p.compileIn request session).journal)

/-- Behind an instantiation that succeeds stands what is done with the end of the compile. -/
theorem run_eq_of_opened {session : Session σ}
    (hopen : (p.loaded.instantiate log ()).result = .ok session) :
    p.run request log sinks world =
      ((match (p.compileIn request session).result with
        | .error cause => abort (p.compileIn request session).state.log cause
        | .ok outcome => p.conclude outcome (p.compileIn request session).state sinks)
        world).behind (p.prologue request log session) := by
  simp only [run, hopen, Action.emit_bind_apply, Action.reported_bind_apply, Ended.behind_behind]
  rfl

/-- By the end of the compile all that the log has completed was delivered. -/
theorem run_of_opened {session : Session σ}
    (hopen : (p.loaded.instantiate log ()).result = .ok session) :
    ∃ before : Journal,
      before.ofLog =
        blocksReports log.surface (Speech.blocks log.pending (p.speech request log)) ∧
      p.run request log sinks world =
        ((match (p.compileIn request session).result with
          | .error cause => abort (p.compileIn request session).state.log cause
          | .ok outcome => p.conclude outcome (p.compileIn request session).state sinks)
          world).behind before := by
  refine ⟨p.prologue request log session, ?_, run_eq_of_opened request sinks world hopen⟩
  rw [prologue, Journal.ofLog_cons_of_other _ rfl, Journal.ofLog_append,
    reports_of_compiled request hopen]

/-- A run that is given up. -/
theorem shows_of_failed {session : Session σ} {cause : GuestFault}
    (hopen : (p.loaded.instantiate log ()).result = .ok session)
    (hfailed : p.decoded request log = .error cause) :
    Shows (p.run request log sinks world)
      (.error (.compile cause
        (log.transcript ++ Speech.brokenOff log.pending (p.speech request log)))) world
      (blocksReports log.surface (Speech.brokenOff log.pending (p.speech request log))) := by
  obtain ⟨before, hbefore, hrun⟩ := run_of_opened request sinks world hopen
  have hcompile := (decoded_of_opened request hopen).symm.trans hfailed
  have shows := (shows_abort (p.compileIn request session).state.log cause world).behind before
  simp only [hcompile] at hrun
  rw [← hrun, hbefore, log_of_compiled request hopen, Log.heard_surface,
    ← blocksReports_append] at shows
  simp only [Log.heard, List.append_assoc, ← Speech.brokenOff_eq] at shows
  exact shows

/-- A run with a result goes on with a session whose log has heard everything. -/
theorem run_of_decoded {outcome : Outcome} (hdecoded : p.decoded request log = .ok outcome) :
    ∃ (session : Session σ) (before : Journal),
      session.log = log.heard (p.speech request log) ∧
      before.ofLog =
        blocksReports log.surface (Speech.blocks log.pending (p.speech request log)) ∧
      p.run request log sinks world =
        (p.conclude outcome session sinks world).behind before := by
  cases hopen : (p.loaded.instantiate log ()).result with
  | error cause =>
      rw [decoded_of_not_opened request hopen] at hdecoded
      cases hdecoded
  | ok session =>
      obtain ⟨before, hbefore, hrun⟩ := run_of_opened request sinks world hopen
      have hcompile := (decoded_of_opened request hopen).symm.trans hdecoded
      simp only [hcompile] at hrun
      exact ⟨_, before, log_of_compiled request hopen, hbefore, hrun⟩

/-- A run with a result, and nothing to deliver. -/
theorem shows_of_noPayload {declaredLength : Int}
    (hdecoded : p.decoded request log = .ok (.noPayload declaredLength)) :
    ∃ session : Session σ, session.log = log.heard (p.speech request log) ∧
      Shows (p.run request log sinks world)
        (.ok (undelivered (.noPayload declaredLength) session)) world
        (blocksReports log.surface (Speech.blocks log.pending (p.speech request log))) := by
  obtain ⟨session, before, hlog, hbefore, hrun⟩ := run_of_decoded request sinks world hdecoded
  have shows :=
    (p.shows_conclude_noPayload declaredLength session sinks world).behind before
  rw [← hrun, hbefore, List.append_nil] at shows
  exact ⟨session, hlog, shows⟩

/-- A run with an artifact, which the sinks are asked to take. -/
theorem shows_of_payload {bytes : ByteArray}
    (hdecoded : p.decoded request log = .ok (.payload bytes)) :
    ∃ session : Session σ, session.log = log.heard (p.speech request log) ∧
      Shows (p.run request log sinks world)
        ((deliver p.artifactName bytes sinks world).result.map fun kinds =>
          { undelivered (.payload bytes) session with
            kind := some (ArtifactKind.detect bytes), delivered := kinds })
        (deliver p.artifactName bytes sinks world).state
        (blocksReports log.surface (Speech.blocks log.pending (p.speech request log)) ++
          (sinkReports p.artifactName bytes sinks world).ofLog) := by
  obtain ⟨session, before, hlog, hbefore, hrun⟩ := run_of_decoded request sinks world hdecoded
  have shows := (p.shows_conclude_payload bytes session sinks world).behind before
  rw [← hrun, hbefore] at shows
  exact ⟨session, hlog, shows⟩

/-- The courses that a run may take. Where it goes is decided by the instantiation, by the compile
and by the kind of the result, in this order. -/
inductive Course (p : Pipeline σ) (request : Request) (log : Log) : Prop where
  /-- The guest cannot be instantiated. -/
  | notOpened (cause : GuestFault)
      (hopen : (p.loaded.instantiate log ()).result = .error cause)
  /-- There is no result, and the run is given up. -/
  | failed (session : Session σ) (cause : GuestFault)
      (hopen : (p.loaded.instantiate log ()).result = .ok session)
      (hfailed : p.decoded request log = .error cause)
  /-- There is a result, and nothing to deliver. -/
  | noPayload (declaredLength : Int)
      (hdecoded : p.decoded request log = .ok (.noPayload declaredLength))
  /-- There is an artifact. -/
  | payload (bytes : ByteArray) (hdecoded : p.decoded request log = .ok (.payload bytes))

theorem course (p : Pipeline σ) (request : Request) (log : Log) : p.Course request log := by
  cases hopen : (p.loaded.instantiate log ()).result with
  | error cause => exact .notOpened cause hopen
  | ok session =>
      cases hdecoded : p.decoded request log with
      | error cause => exact .failed session cause hopen hdecoded
      | ok outcome =>
          cases outcome with
          | noPayload declaredLength => exact .noPayload declaredLength hdecoded
          | payload bytes => exact .payload bytes hdecoded

end Courses

/-- What a run comes to, and how the log and the sinks have come to it. -/
inductive ComesTo (p : Pipeline σ) (request : Request) (log : Log) (sinks : List (Sink ω))
    (world : ω) : Except RunFault RunReport → Prop
  | notOpened (cause : GuestFault) (hopen : (p.loaded.instantiate log ()).result = .error cause) :
      ComesTo p request log sinks world (.error (.guest cause))
  | failed (cause : GuestFault) (hfailed : p.decoded request log = .error cause) :
      ComesTo p request log sinks world (.error (.compile cause
        (log.transcript ++ Speech.brokenOff log.pending (p.speech request log))))
  | noPayload (declaredLength : Int) (session : Session σ)
      (hdecoded : p.decoded request log = .ok (.noPayload declaredLength))
      (hlog : session.log = log.heard (p.speech request log)) :
      ComesTo p request log sinks world (.ok (undelivered (.noPayload declaredLength) session))
  | refused (bytes : ByteArray) (kind : String) (cause : SinkFault)
      (hdecoded : p.decoded request log = .ok (.payload bytes))
      (hrefusal : firstRefusal p.artifactName bytes sinks world = some (kind, cause)) :
      ComesTo p request log sinks world (.error (.delivery kind cause))
  | delivered (bytes : ByteArray) (session : Session σ)
      (hdecoded : p.decoded request log = .ok (.payload bytes))
      (hlog : session.log = log.heard (p.speech request log))
      (hnone : firstRefusal p.artifactName bytes sinks world = none) :
      ComesTo p request log sinks world (.ok { undelivered (.payload bytes) session with
        kind := some (ArtifactKind.detect bytes), delivered := sinks.map Sink.kind })

theorem comesTo (p : Pipeline σ) (request : Request) (log : Log) (sinks : List (Sink ω))
    (world : ω) :
    p.ComesTo request log sinks world (p.run request log sinks world).result := by
  cases p.course request log with
  | notOpened cause hopen =>
      rw [(shows_of_not_opened request sinks world hopen).result]
      exact .notOpened cause hopen
  | failed session cause hopen hfailed =>
      rw [(shows_of_failed request sinks world hopen hfailed).result]
      exact .failed cause hfailed
  | noPayload declaredLength hdecoded =>
      obtain ⟨session, hlog, shows⟩ := shows_of_noPayload request sinks world hdecoded
      rw [shows.result]
      exact .noPayload declaredLength session hdecoded hlog
  | payload bytes hdecoded =>
      obtain ⟨session, hlog, shows⟩ := shows_of_payload request sinks world hdecoded
      rw [shows.result, result_deliver]
      cases hrefusal : firstRefusal p.artifactName bytes sinks world with
      | none => exact .delivered bytes session hdecoded hlog hrefusal
      | some refusal => exact .refused bytes refusal.1 refusal.2 hdecoded hrefusal

/-- The ways in which a run comes to a report. -/
inductive Reported (p : Pipeline σ) (request : Request) (log : Log) (sinks : List (Sink ω))
    (world : ω) (report : RunReport) : Prop where
  | empty (declaredLength : Int)
      (hdecoded : p.decoded request log = .ok (.noPayload declaredLength))
      (houtcome : report.outcome = .noPayload declaredLength) (hdelivered : report.delivered = [])
      (hstate : (p.run request log sinks world).state = world)
  | delivered (bytes : ByteArray)
      (hdecoded : p.decoded request log = .ok (.payload bytes))
      (houtcome : report.outcome = .payload bytes)
      (hnone : firstRefusal p.artifactName bytes sinks world = none)
      (hdelivered : report.delivered = sinks.map Sink.kind)
      (hstate : (p.run request log sinks world).state =
        (deliver p.artifactName bytes sinks world).state)

theorem reported {request : Request} {sinks : List (Sink ω)} {world : ω} {report : RunReport}
    (h : (p.run request log sinks world).result = .ok report) :
    p.Reported request log sinks world report := by
  cases p.course request log with
  | notOpened cause hopen =>
      rw [(shows_of_not_opened request sinks world hopen).result] at h
      cases h
  | failed session cause hopen hfailed =>
      rw [(shows_of_failed request sinks world hopen hfailed).result] at h
      cases h
  | noPayload declaredLength hdecoded =>
      obtain ⟨_, _, shows⟩ := shows_of_noPayload request sinks world hdecoded
      obtain rfl := Except.ok.inj (shows.result.symm.trans h)
      exact .empty declaredLength hdecoded rfl rfl shows.state
  | payload bytes hdecoded =>
      obtain ⟨session, _, shows⟩ := shows_of_payload request sinks world hdecoded
      rw [shows.result, result_deliver] at h
      cases hrefusal : firstRefusal p.artifactName bytes sinks world with
      | none =>
          rw [hrefusal] at h
          obtain rfl := Except.ok.inj h
          exact .delivered bytes hdecoded rfl hrefusal rfl shows.state
      | some refusal =>
          rw [hrefusal] at h
          cases h

/-- A run that succeeds has an artifact that every sink took. -/
theorem accepted_of_succeeded {request : Request} {sinks : List (Sink ω)} {world : ω}
    {report : RunReport} (h : (p.run request log sinks world).result = .ok report)
    (hsucceeded : report.succeeded = true) :
    ∃ bytes, p.decoded request log = .ok (.payload bytes) ∧ report.outcome = .payload bytes ∧
      firstRefusal p.artifactName bytes sinks world = none ∧
      report.delivered = sinks.map Sink.kind := by
  cases reported h with
  | empty declaredLength _ houtcome =>
      rw [RunReport.succeeded, houtcome] at hsucceeded
      cases hsucceeded
  | delivered bytes hdecoded houtcome hnone hdelivered =>
      exact ⟨bytes, hdecoded, houtcome, hnone, hdelivered⟩

/-- A run leaves the world as it was, unless a sink refuses or there is an artifact. -/
theorem state_of_unrefused {request : Request} {sinks : List (Sink ω)} {world : ω}
    (hrefused : ∀ sink cause,
      (p.run request log sinks world).result ≠ .error (.delivery sink cause))
    (hnone : ∀ report, (p.run request log sinks world).result = .ok report →
      report.succeeded = false) :
    (p.run request log sinks world).state = world := by
  cases p.course request log with
  | notOpened cause hopen => exact (shows_of_not_opened request sinks world hopen).state
  | failed session cause hopen hfailed =>
      exact (shows_of_failed request sinks world hopen hfailed).state
  | noPayload declaredLength hdecoded =>
      obtain ⟨_, _, shows⟩ := shows_of_noPayload request sinks world hdecoded
      exact shows.state
  | payload bytes hdecoded =>
      obtain ⟨session, _, shows⟩ := shows_of_payload request sinks world hdecoded
      have hresult := shows.result
      rw [result_deliver] at hresult
      cases hrefusal : firstRefusal p.artifactName bytes sinks world with
      | none =>
          rw [hrefusal] at hresult
          cases hnone _ hresult
      | some refusal =>
          rw [hrefusal] at hresult
          exact absurd hresult (hrefused _ _)

end Pipeline

end CompilerHost
