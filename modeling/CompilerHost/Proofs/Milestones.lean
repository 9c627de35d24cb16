import CompilerHost.Proofs.Conservation
import CompilerHost.Proofs.Contents
import CompilerHost.Proofs.Reporting

/-! # Milestones

A run tells its operator how far it gets, by events that no session reports: that it started, what
came of the compile, and who took the artifact. Sinks may have a word of their own, which is none of
the run's. Muted sinks do the same without it, and a run with them is the same run
(`Pipeline.interleaves_run`), so that its events are those of the run itself.

* `Event.milestone?`: the events that are milestones, by their kind;
* `Pipeline.Unfolds`: a start, a session, and an ending;
* `Pipeline.unfolds_of_failed` and its like: the ending of each course of a run;
* `Pipeline.run_events_agree`: the events of a run agree with what it comes to.
-/

namespace CompilerHost

/-! ## Kinds of milestones -/

/-- The kinds of events by which a run tells how far it got. -/
inductive Milestone where
  | started
  | aborted
  | noPayload
  | decoded
  | silent
  | unrecognized
  | delivered
  | refused
deriving DecidableEq, Repr

/-- The kind of an event, if it is a milestone. -/
def Event.milestone? : Event → Option Milestone
  | .compileStarted .. => some .started
  | .compileAborted .. => some .aborted
  | .noPayload .. => some .noPayload
  | .payloadDecoded .. => some .decoded
  | .silentFailure .. => some .silent
  | .payloadUnrecognized .. => some .unrecognized
  | .delivered .. => some .delivered
  | .deliveryFailed .. => some .refused
  | _ => none

/-- The milestones of a kind among some events. -/
def ofKind (kind : Milestone) (events : List Event) : List Event :=
  events.filter fun e => e.milestone? = some kind

@[simp] theorem ofKind_nil (kind : Milestone) : ofKind kind [] = [] := rfl

@[simp] theorem ofKind_append (kind : Milestone) (a b : List Event) :
    ofKind kind (a ++ b) = ofKind kind a ++ ofKind kind b := List.filter_append a b

theorem ofKind_of_same {kind : Milestone} {events : List Event}
    (h : ∀ e ∈ events, e.milestone? = some kind) : ofKind kind events = events := by
  refine List.filter_eq_self.2 ?_
  intro e he
  exact decide_eq_true (h e he)

theorem ofKind_of_other {kind other : Milestone} {events : List Event} (hother : other ≠ kind)
    (h : ∀ e ∈ events, e.milestone? = some other) : ofKind kind events = [] := by
  refine List.filter_eq_nil_iff.2 ?_
  intro e he
  simp [h e he, hother]

theorem milestone?_of_isOfSession {e : Event} (h : e.isOfSession) : e.milestone? = none := by
  cases e <;> first | rfl | cases h

theorem ofKind_of_session {events : List Event} (kind : Milestone)
    (h : ∀ e ∈ events, e.isOfSession) : ofKind kind events = [] := by
  refine List.filter_eq_nil_iff.2 ?_
  intro e he
  simp [milestone?_of_isOfSession (h e he)]

/-! ## Muted sinks -/

/-- The sink without a word of its own. -/
def Sink.muted {ω : Type} (s : Sink ω) : Sink ω where
  kind := s.kind
  deliver name bytes := fun world =>
    let ended := s.deliver name bytes world
    ⟨ended.result, ended.state, []⟩

/-- An ending is another one, but that the reports of others stand between its own. -/
structure Ended.Interleaves {S ε α : Type} (e own : Ended S ε α) (others : Journal) : Prop where
  result : e.result = own.result
  state : e.state = own.state
  inOrder : own.journal.Sublist e.journal
  complete : e.journal.Perm (own.journal ++ others)

namespace Ended.Interleaves

variable {S ε α : Type} {e own : Ended S ε α} {others : Journal}

theorem refl (e : Ended S ε α) : e.Interleaves e [] where
  result := rfl
  state := rfl
  inOrder := List.Sublist.refl _
  complete := by rw [List.append_nil]

/-- What others report before goes behind all that is the action's own. -/
theorem behind (h : e.Interleaves own others) (before j : Journal) :
    (e.behind (before ++ j)).Interleaves (own.behind j) (before ++ others) where
  result := h.result
  state := h.state
  inOrder := (List.sublist_append_right before j).append h.inOrder
  complete := by
    calc (before ++ j ++ e.journal).Perm (before ++ j ++ (own.journal ++ others)) :=
          h.complete.append_left _
      _ = before ++ (j ++ own.journal) ++ others := by simp only [List.append_assoc]
      (before ++ (j ++ own.journal) ++ others).Perm (j ++ own.journal ++ before ++ others) :=
          List.perm_append_comm.append_right others
      _ = j ++ own.journal ++ (before ++ others) := by simp only [List.append_assoc]

theorem map {β : Type} {x y : Action S ε α} {s : S} (h : (x s).Interleaves (y s) others)
    (f : α → β) : ((f <$> x) s).Interleaves ((f <$> y) s) others := by
  rw [Action.map_apply, Action.map_apply]
  exact ⟨congrArg (Except.map f) h.result, h.state, h.inOrder, h.complete⟩

end Ended.Interleaves

namespace Pipeline

variable {σ ω : Type}

/-- The sinks that accept an artifact that they are handed in order, up to the first refusal. -/
def acceptors (name : String) (bytes : ByteArray) : List (Sink ω) → ω → List (Sink ω)
  | [], _ => []
  | sink :: rest, world =>
    match (sink.deliver name bytes world).result with
    | .ok () => sink :: acceptors name bytes rest (sink.deliver name bytes world).state
    | .error _ => []

/-- A word for the first sink that refuses, if one does. -/
def refusalEvents (name : String) : Option (String × SinkFault) → List Event
  | none => []
  | some (kind, cause) => [.deliveryFailed kind name cause.message]

/-- What a delivery is reported as: a word for each sink that accepts, and one for the first that
refuses. -/
def deliveryEvents (name : String) (bytes : ByteArray) (sinks : List (Sink ω)) (world : ω) :
    List Event :=
  (acceptors name bytes sinks world).map (fun sink => .delivered sink.kind name bytes.size) ++
    refusalEvents name (firstRefusal name bytes sinks world)

/-- Between the words of a delivery stand those of the sinks. The induction is on the sinks. -/
theorem interleaves_deliver (name : String) (bytes : ByteArray) (sinks : List (Sink ω))
    (world : ω) :
    (deliver name bytes sinks world).Interleaves
      (deliver name bytes (sinks.map Sink.muted) world) (sinkReports name bytes sinks world) := by
  induction sinks generalizing world with
  | nil => exact .refl _
  | cons sink rest ih =>
      cases hanswer : (sink.deliver name bytes world).result with
      | error cause =>
          have hmuted : (sink.muted.deliver name bytes world).result = .error cause := hanswer
          rw [List.map_cons, deliver_of_refused _ hanswer, deliver_of_refused _ hmuted, sinkReports]
          simp only [hanswer, List.append_nil]
          exact ⟨rfl, rfl, List.sublist_append_right _ _, List.perm_append_comm⟩
      | ok _ =>
          have hmuted : (sink.muted.deliver name bytes world).result = .ok () := hanswer
          have hrest := ih (sink.deliver name bytes world).state
          rw [List.map_cons, deliver_of_accepted hanswer, deliver_of_accepted hmuted, sinkReports]
          simp only [hanswer]
          exact (hrest.map _).behind _ _

/-- What is reported of an artifact before it is delivered. -/
def payloadEvents (bytes : ByteArray) : List Event :=
  .payloadDecoded bytes.size (ArtifactKind.detect bytes) ::
    if (ArtifactKind.detect bytes).isElf then [] else [.payloadUnrecognized bytes.size]

theorem withPayload_eq (p : Pipeline σ) (report : RunReport) (bytes : ByteArray)
    (sinks : List (Sink ω)) (world : ω) :
    p.withPayload report bytes sinks world =
      (((fun kinds => { report with
          kind := some (ArtifactKind.detect bytes), delivered := kinds }) <$>
        deliver p.artifactName bytes sinks) world).behind
        ((payloadEvents bytes).map Report.event) := by
  unfold withPayload payloadEvents
  simp only [bind_pure_comp]
  split
  · rfl
  · simp only [Action.emit_bind_apply, Ended.behind_behind]
    rfl

/-- What is reported of a result without output. -/
def noPayloadEvents (report : RunReport) (declaredLength : Int) : List Event :=
  .noPayload declaredLength report.diagnostics.length ::
    if report.hasDiagnostics then [] else [.silentFailure declaredLength]

theorem withoutPayload_eq (report : RunReport) (declaredLength : Int) (world : ω) :
    withoutPayload report declaredLength world =
      ⟨.ok report, world, (noPayloadEvents report declaredLength).map Report.event⟩ := by
  unfold withoutPayload noPayloadEvents
  split
  · rfl
  · rfl

theorem interleaves_conclude (p : Pipeline σ) (outcome : Outcome) (session : Session σ)
    (sinks : List (Sink ω)) (world : ω) :
    (p.conclude outcome session sinks world).Interleaves
      (p.conclude outcome session (sinks.map Sink.muted) world)
      (p.reportsOfSinks outcome sinks world) := by
  cases outcome with
  | noPayload declaredLength => exact .refl _
  | payload bytes =>
      have hdeliver := interleaves_deliver p.artifactName bytes sinks world
      have hconclude : ∀ sinks : List (Sink ω), p.conclude (.payload bytes) session sinks =
          p.withPayload (undelivered (.payload bytes) session) bytes sinks := fun _ => rfl
      rw [hconclude, hconclude, withPayload_eq, withPayload_eq]
      exact (hdeliver.map _).behind [] _

/-- What the sinks report themselves in a run, if there is anything to hand them. -/
def wordsOfSinks (p : Pipeline σ) (request : Request) (log : Log) (sinks : List (Sink ω))
    (world : ω) : Journal :=
  match p.decoded request log with
  | .error _ => []
  | .ok outcome => p.reportsOfSinks outcome sinks world

/-- A run with muted sinks is the same run, but for the words of the sinks. -/
theorem interleaves_run (p : Pipeline σ) (request : Request) (log : Log) (sinks : List (Sink ω))
    (world : ω) :
    (p.run request log sinks world).Interleaves (p.run request log (sinks.map Sink.muted) world)
      (p.wordsOfSinks request log sinks world) := by
  unfold wordsOfSinks
  cases hopen : (p.loaded.instantiate log ()).result with
  | error cause =>
      rw [run_eq_of_not_opened request sinks world hopen,
        run_eq_of_not_opened request (sinks.map Sink.muted) world hopen,
        decoded_of_not_opened request hopen]
      exact .refl _
  | ok session =>
      rw [run_eq_of_opened request sinks world hopen,
        run_eq_of_opened request (sinks.map Sink.muted) world hopen,
        decoded_of_opened request hopen]
      cases (p.compileIn request session).result with
      | error cause => exact .refl _
      | ok outcome => exact (p.interleaves_conclude outcome _ sinks world).behind [] _

/-! ## The course of events -/

/-- The events of a run that are its own. -/
def ownEvents (p : Pipeline σ) (request : Request) (log : Log) (sinks : List (Sink ω)) (world : ω) :
    List Event :=
  (p.run request log (sinks.map Sink.muted) world).journal.events

/-- Events are those of a run: the first is its start, then come those of a session, and in the end
those that tell what came of it. -/
def Unfolds (request : Request) (events ending : List Event) : Prop :=
  ∃ middle, (∀ e ∈ middle, e.isOfSession) ∧ events = started request :: (middle ++ ending)

theorem Unfolds.head {request : Request} {events ending : List Event}
    (h : Unfolds request events ending) : events.head? = some (started request) := by
  rcases h with ⟨middle, _, rfl⟩
  rfl

/-- All milestones but the start are in the ending. -/
theorem Unfolds.ofKind {request : Request} {events ending : List Event}
    (h : Unfolds request events ending) (kind : Milestone) :
    ofKind kind events = ofKind kind [started request] ++ ofKind kind ending := by
  rcases h with ⟨middle, hmiddle, rfl⟩
  rw [← List.singleton_append, ofKind_append, ofKind_append, ofKind_of_session kind hmiddle]
  rfl

theorem Unfolds.getLast {request : Request} {events front : List Event} {last : Event}
    (h : Unfolds request events (front ++ [last])) : events.getLast? = some last := by
  rcases h with ⟨middle, _, rfl⟩
  rw [← List.append_assoc, ← List.cons_append, List.getLast?_concat]

theorem events_map_event (events : List Event) : Journal.events (events.map .event) = events := by
  induction events with
  | nil => rfl
  | cons e events ih => rw [List.map_cons, Journal.events_cons_event, ih]

/-- With muted sinks a delivery is all that is reported of it. -/
theorem events_deliver (name : String) (bytes : ByteArray) (sinks : List (Sink ω)) (world : ω) :
    (deliver name bytes (sinks.map Sink.muted) world).journal.events =
      deliveryEvents name bytes sinks world := by
  induction sinks generalizing world with
  | nil => rfl
  | cons sink rest ih =>
      unfold deliveryEvents at ih ⊢
      cases hanswer : (sink.deliver name bytes world).result with
      | error cause =>
          have hmuted : (sink.muted.deliver name bytes world).result = .error cause := hanswer
          rw [List.map_cons, deliver_of_refused _ hmuted]
          simp only [acceptors, firstRefusal, hanswer]
          rfl
      | ok _ =>
          have hmuted : (sink.muted.deliver name bytes world).result = .ok () := hanswer
          rw [List.map_cons, deliver_of_accepted hmuted, Ended.behind_journal, Action.map_apply,
            Journal.events_append]
          simp only [acceptors, firstRefusal, hanswer, List.map_cons, List.cons_append]
          exact congrArg (_ :: ·) (ih _)

section Courses

variable {p : Pipeline σ} {log : Log} (request : Request) (sinks : List (Sink ω)) (world : ω)

theorem unfolds_of_not_opened {cause : GuestFault}
    (hopen : (p.loaded.instantiate log ()).result = .error cause) :
    Unfolds request (p.ownEvents request log sinks world) [] := by
  refine ⟨_, Journal.OfExchange.ofSession (p.loaded.exchanges_instantiate log ()), ?_⟩
  rw [ownEvents, run_eq_of_not_opened request _ world hopen, List.append_nil]
  rfl

/-- Behind the prologue of a run stands its ending, after what may still be delivered of the log. -/
theorem unfolds_of_opened {session : Session σ} {e : Ended ω RunFault RunReport}
    {deliveries : Journal} {ending : List Event}
    (hrun : p.run request log (sinks.map Sink.muted) world =
      e.behind (p.prologue request log session))
    (hdeliveries : deliveries.OfSession)
    (hending : e.journal.events = deliveries.events ++ ending) :
    Unfolds request (p.ownEvents request log sinks world) ending := by
  have hopened := Journal.OfExchange.ofSession (p.loaded.exchanges_instantiate log ())
  have hcompiled := p.ofSession_compileIn request session
  refine ⟨_, (Journal.All.append hopened hcompiled).append hdeliveries, ?_⟩
  rw [ownEvents, hrun, Ended.behind_journal, Journal.events_append, hending, prologue]
  simp only [Journal.events_cons_event, Journal.events_append, List.cons_append, List.append_assoc]

/-- A run that is given up ends with the word that it is. -/
theorem unfolds_of_failed {session : Session σ} {cause : GuestFault}
    (hopen : (p.loaded.instantiate log ()).result = .ok session)
    (hfailed : p.decoded request log = .error cause) :
    Unfolds request (p.ownEvents request log sinks world)
      [.compileAborted cause.message
        (log.transcript ++ Speech.brokenOff log.pending (p.speech request log)).length] := by
  have hcompile := (decoded_of_opened request hopen).symm.trans hfailed
  have hrun := run_eq_of_opened request (sinks.map Sink.muted) world hopen
  simp only [hcompile, abort_eq, log_of_compiled request hopen] at hrun
  refine unfolds_of_opened request sinks world hrun
    (exchanges_blocksReports (log.heard (p.speech request log)).surface
      (Speech.brokenOff (log.heard (p.speech request log)).pending [])).ofSession ?_
  simp only [Journal.events_append, Log.heard, List.append_assoc, ← Speech.brokenOff_eq]
  rfl

/-- A run with a result ends with what is concluded from it. -/
theorem unfolds_of_decoded {outcome : Outcome} {ending : List Event}
    (hdecoded : p.decoded request log = .ok outcome)
    (hending : ∀ session : Session σ, session.log = log.heard (p.speech request log) →
      (p.conclude outcome session (sinks.map Sink.muted) world).journal.events = ending) :
    Unfolds request (p.ownEvents request log sinks world) ending := by
  cases hopen : (p.loaded.instantiate log ()).result with
  | error cause =>
      rw [decoded_of_not_opened request hopen] at hdecoded
      cases hdecoded
  | ok session =>
      have hrun := run_eq_of_opened request (sinks.map Sink.muted) world hopen
      have hcompile := (decoded_of_opened request hopen).symm.trans hdecoded
      simp only [hcompile] at hrun
      refine unfolds_of_opened request sinks world hrun (Journal.All.nil _) ?_
      rw [hending _ (log_of_compiled request hopen)]
      rfl

theorem unfolds_of_payload {bytes : ByteArray}
    (hdecoded : p.decoded request log = .ok (.payload bytes)) :
    Unfolds request (p.ownEvents request log sinks world)
      (payloadEvents bytes ++ deliveryEvents p.artifactName bytes sinks world) := by
  refine unfolds_of_decoded request sinks world hdecoded ?_
  intro session _
  have hconclude : p.conclude (.payload bytes) session (sinks.map Sink.muted) =
      p.withPayload (undelivered (.payload bytes) session) bytes (sinks.map Sink.muted) := rfl
  rw [hconclude, withPayload_eq, Ended.behind_journal, Action.map_apply, Journal.events_append,
    events_map_event, events_deliver]

/-- A run without output ends with the word of that, which goes by the log that is reported. -/
theorem unfolds_of_noPayload {declaredLength : Int} {session : Session σ}
    (hdecoded : p.decoded request log = .ok (.noPayload declaredLength))
    (hlog : session.log = log.heard (p.speech request log)) :
    Unfolds request (p.ownEvents request log sinks world)
      (noPayloadEvents (undelivered (.noPayload declaredLength) session) declaredLength) := by
  refine unfolds_of_decoded request sinks world hdecoded ?_
  intro other hother
  have hconclude : p.conclude (.noPayload declaredLength) other (sinks.map Sink.muted) =
      withoutPayload (undelivered (.noPayload declaredLength) other) declaredLength := rfl
  rw [hconclude, withoutPayload_eq, events_map_event]
  simp only [noPayloadEvents, undelivered, RunReport.hasDiagnostics, hlog, hother]

end Courses

/-! ## Blocks -/

theorem length_guestLog (j : Journal) :
    (j.events.filter Event.isGuestLog).length = j.console.length := by
  induction j with
  | nil => rfl
  | cons r j ih =>
      unfold Journal.console at ih ⊢
      cases r with
      | shown surface text => exact ih
      | event e =>
          rw [Journal.events_cons_event, List.filter_cons, List.filter_cons,
            Report.isFromGuest_event]
          split
          · exact congrArg Nat.succ ih
          · exact ih

/-- Each block is one event of the guest's own log. -/
theorem length_guestLog_of_ofLog {j : Journal} {surface : Option Surface} {blocks : List String}
    (h : j.ofLog = blocksReports surface blocks) :
    (j.events.filter Event.isGuestLog).length = blocks.length := by
  have hdelivers : j.Delivers surface blocks [] := by
    refine .of_ofLog ?_
    rw [h, Journal.ofLog_nil, List.append_nil]
  rw [length_guestLog, hdelivers.console, List.length_append, List.length_map]
  rfl

theorem sinkReports_muted (name : String) (bytes : ByteArray) (sinks : List (Sink ω)) (world : ω) :
    sinkReports name bytes (sinks.map Sink.muted) world = [] := by
  induction sinks generalizing world with
  | nil => rfl
  | cons sink rest ih =>
      rw [List.map_cons, sinkReports]
      show [] ++ _ = []
      have hresult : (sink.muted.deliver name bytes world).result =
          (sink.deliver name bytes world).result := rfl
      rw [hresult]
      cases (sink.deliver name bytes world).result with
      | error cause => rfl
      | ok _ => exact ih _

/-! ## Agreement -/

/-- The word of a run that was given up, if it was. It counts the blocks the fault hands on. -/
def abortedEvents : Except RunFault RunReport → List Event
  | .error (.compile cause diagnostics) => [.compileAborted cause.message diagnostics.length]
  | _ => []

/-- The word of a run without output, if there is none: it counts the blocks in the report. -/
def emptyEvents : Except RunFault RunReport → List Event
  | .ok report =>
    match report.outcome with
    | .noPayload declaredLength => [.noPayload declaredLength report.diagnostics.length]
    | .payload _ => []
  | .error _ => []

/-- The word of a delivery that failed, if one did: it names the sink. -/
def refusedEvents (name : String) : Except RunFault RunReport → List Event
  | .error (.delivery sink cause) => [.deliveryFailed sink name cause.message]
  | _ => []

/-- The blocks that a run hands on. -/
def blocksOf : Except RunFault RunReport → Option (List String)
  | .ok report => some report.diagnostics
  | .error (.compile _ diagnostics) => some diagnostics
  | .error _ => none

/-- A word for each sink that accepts the artifact of a run, in order. -/
def acceptedEvents (p : Pipeline σ) (request : Request) (log : Log) (sinks : List (Sink ω))
    (world : ω) : List Event :=
  match p.decoded request log with
  | .ok (.payload bytes) =>
    (acceptors p.artifactName bytes sinks world).map fun sink =>
      .delivered sink.kind p.artifactName bytes.size
  | _ => []

/-- The events of a run agree with what it comes to. -/
structure EventsAgree (p : Pipeline σ) (request : Request) (log : Log) (sinks : List (Sink ω))
    (world : ω) (events : List Event) (result : Except RunFault RunReport) : Prop where
  /-- The run starts once, and first of all. -/
  start : events.head? = some (started request) ∧ ofKind .started events = [started request]
  /-- The compile has one outcome if there was a session, and none if there was not. -/
  outcome : (ofKind .aborted events ++ ofKind .noPayload events ++ ofKind .decoded events).length =
    if (p.loaded.instantiate log ()).result.isOk then 1 else 0
  aborted : ofKind .aborted events = abortedEvents result
  empty : ofKind .noPayload events = emptyEvents result
  /-- An artifact was decoded if the run reports it, or could not deliver it. -/
  decoded : ofKind .decoded events ≠ [] ↔
    (∃ report, result = .ok report ∧ report.succeeded = true) ∨
      ∃ sink cause, result = .error (.delivery sink cause)
  accepted : ofKind .delivered events = p.acceptedEvents request log sinks world
  refused : ofKind .refused events = refusedEvents p.artifactName result
  /-- A refusal is the last that is heard of the run. -/
  last : ∀ sink cause, result = .error (.delivery sink cause) →
    events.getLast? = some (.deliveryFailed sink p.artifactName cause.message)
  unrecognized : ofKind .unrecognized events ≠ [] ↔
    ∃ bytes, p.decoded request log = .ok (.payload bytes) ∧
      bytes.toList.take 4 ≠ [0x7F, 0x45, 0x4C, 0x46]
  /-- Each block that is handed on was one event of the guest's own log. -/
  blocks : ∀ diagnostics, blocksOf result = some diagnostics →
    (events.filter Event.isGuestLog).length = diagnostics.length

/-- An artifact is recognised by its first four bytes. -/
theorem isElf_detect_iff (bytes : ByteArray) :
    (ArtifactKind.detect bytes).isElf = true ↔
      bytes.toList.take 4 = [0x7F, 0x45, 0x4C, 0x46] := by
  have hfirst : (bytes.extract 0 5).toList = bytes.toList.take 5 := by
    rw [toList_byteArray, toList_byteArray, ByteArray.data_extract, Array.toList_extract]
    simp
  unfold ArtifactKind.detect
  rw [hfirst]
  rcases bytes.toList with _ | ⟨a, _ | ⟨b, _ | ⟨c, _ | ⟨d, rest⟩⟩⟩⟩
  · simp [ArtifactKind.ofPrefix, ArtifactKind.isElf]
  · simp [ArtifactKind.ofPrefix, ArtifactKind.isElf]
  · simp [ArtifactKind.ofPrefix, ArtifactKind.isElf]
  · simp [ArtifactKind.ofPrefix, ArtifactKind.isElf]
  · have hopens : (a :: b :: c :: d :: rest).take 4 = [a, b, c, d] := rfl
    rw [hopens, List.take_succ_cons, List.take_succ_cons, List.take_succ_cons,
      List.take_succ_cons, ArtifactKind.ofPrefix]
    by_cases hmagic : [a, b, c, d] = ArtifactKind.elfMagic
    · rw [if_pos hmagic]
      refine iff_of_true ?_ hmagic
      split <;> rfl
    · rw [if_neg hmagic]
      exact iff_of_false Bool.false_ne_true hmagic

/-! ## Kinds of endings -/

theorem ofKind_noPayloadEvents (report : RunReport) (declaredLength : Int) {kind : Milestone}
    (hkind : kind ≠ .silent) :
    ofKind kind (noPayloadEvents report declaredLength) =
      ofKind kind [.noPayload declaredLength report.diagnostics.length] := by
  unfold noPayloadEvents
  split
  · rfl
  · have hsilent : ofKind kind [.silentFailure declaredLength] = [] :=
      ofKind_of_other hkind.symm (by simp [Event.milestone?])
    rw [← List.singleton_append, ofKind_append, hsilent, List.append_nil]

theorem ofKind_payloadEvents (bytes : ByteArray) {kind : Milestone} (hkind : kind ≠ .unrecognized) :
    ofKind kind (payloadEvents bytes) =
      ofKind kind [.payloadDecoded bytes.size (ArtifactKind.detect bytes)] := by
  unfold payloadEvents
  split
  · rfl
  · have hunrecognized : ofKind kind [.payloadUnrecognized bytes.size] = [] :=
      ofKind_of_other hkind.symm (by simp [Event.milestone?])
    rw [← List.singleton_append, ofKind_append, hunrecognized, List.append_nil]

/-- An artifact is called unrecognised by its first four bytes. -/
theorem unrecognized_payloadEvents_iff (bytes : ByteArray) :
    ofKind .unrecognized (payloadEvents bytes) ≠ [] ↔
      bytes.toList.take 4 ≠ [0x7F, 0x45, 0x4C, 0x46] := by
  rw [ne_eq, ne_eq, ← isElf_detect_iff, payloadEvents]
  split
  · rename_i helf
    exact iff_of_false (fun h => h rfl) (fun h => h helf)
  · rename_i helf
    exact iff_of_true (List.cons_ne_nil _ _) helf

theorem ofKind_refusalEvents (name : String) (refusal : Option (String × SinkFault))
    {kind : Milestone} (hkind : kind ≠ .refused) :
    ofKind kind (refusalEvents name refusal) = [] := by
  cases refusal with
  | none => rfl
  | some refusal => exact ofKind_of_other hkind.symm (by simp [refusalEvents, Event.milestone?])

theorem ofKind_refused_refusalEvents (name : String) (refusal : Option (String × SinkFault)) :
    ofKind .refused (refusalEvents name refusal) = refusalEvents name refusal := by
  cases refusal with
  | none => rfl
  | some refusal => rfl

/-- All of a delivery that is neither accepted nor refused is nothing. -/
theorem ofKind_deliveryEvents (name : String) (bytes : ByteArray) (sinks : List (Sink ω))
    (world : ω) {kind : Milestone} (hdelivered : kind ≠ .delivered) (hrefused : kind ≠ .refused) :
    ofKind kind (deliveryEvents name bytes sinks world) = [] := by
  rw [deliveryEvents, ofKind_append, ofKind_refusalEvents _ _ hrefused, List.append_nil]
  exact ofKind_of_other hdelivered.symm (by simp [Event.milestone?])

theorem ofKind_delivered_deliveryEvents (name : String) (bytes : ByteArray) (sinks : List (Sink ω))
    (world : ω) :
    ofKind .delivered (deliveryEvents name bytes sinks world) =
      (acceptors name bytes sinks world).map fun sink =>
        .delivered sink.kind name bytes.size := by
  rw [deliveryEvents, ofKind_append, ofKind_refusalEvents _ _ (by decide), List.append_nil]
  exact ofKind_of_same (by simp [Event.milestone?])

theorem ofKind_refused_deliveryEvents (name : String) (bytes : ByteArray) (sinks : List (Sink ω))
    (world : ω) :
    ofKind .refused (deliveryEvents name bytes sinks world) =
      refusalEvents name (firstRefusal name bytes sinks world) := by
  have haccepted : ofKind .refused ((acceptors name bytes sinks world).map fun sink =>
      .delivered sink.kind name bytes.size) = [] :=
    ofKind_of_other (by decide : Milestone.delivered ≠ .refused) (by simp [Event.milestone?])
  rw [deliveryEvents, ofKind_append, haccepted, List.nil_append, ofKind_refused_refusalEvents]

/-! ## Agreement of each course -/

section Agreement

variable {p : Pipeline σ} {request : Request} {surface : Option Surface} (sinks : List (Sink ω))
  (world : ω)

theorem agree_of_not_opened {cause : GuestFault}
    (hopen : (p.loaded.instantiate (.fresh surface) ()).result = .error cause) :
    p.EventsAgree request (.fresh surface) sinks world
      (p.ownEvents request (.fresh surface) sinks world) (.error (.guest cause)) := by
  have hevents := unfolds_of_not_opened request sinks world hopen
  have hdecoded := decoded_of_not_opened request hopen
  refine ⟨⟨hevents.head, hevents.ofKind _⟩, ?_, hevents.ofKind _, hevents.ofKind _, ?_, ?_,
    hevents.ofKind _, by nofun, ?_, by nofun⟩
  · rw [hevents.ofKind, hevents.ofKind, hevents.ofKind, hopen]
    rfl
  · rw [hevents.ofKind]
    exact iff_of_false (fun h => h rfl) (by nofun)
  · rw [hevents.ofKind, acceptedEvents, hdecoded]
    rfl
  · rw [hevents.ofKind, hdecoded]
    exact iff_of_false (fun h => h rfl) (by nofun)

theorem agree_of_failed {session : Session σ} {cause : GuestFault}
    (hopen : (p.loaded.instantiate (.fresh surface) ()).result = .ok session)
    (hfailed : p.decoded request (.fresh surface) = .error cause) :
    p.EventsAgree request (.fresh surface) sinks world
      (p.ownEvents request (.fresh surface) sinks world)
      (p.run request (.fresh surface) sinks world).result := by
  have hevents := unfolds_of_failed request sinks world hopen hfailed
  have hblocks := (shows_of_failed request (sinks.map Sink.muted) world hopen hfailed).reports
  rw [(shows_of_failed request sinks world hopen hfailed).result]
  refine ⟨⟨hevents.head, hevents.ofKind _⟩, ?_, hevents.ofKind _, hevents.ofKind _, ?_, ?_,
    hevents.ofKind _, by nofun, ?_, ?_⟩
  · rw [hevents.ofKind, hevents.ofKind, hevents.ofKind, hopen]
    rfl
  · rw [hevents.ofKind]
    exact iff_of_false (fun h => h rfl) (by nofun)
  · rw [hevents.ofKind, acceptedEvents, hfailed]
    rfl
  · rw [hevents.ofKind, hfailed]
    exact iff_of_false (fun h => h rfl) (by nofun)
  · intro diagnostics hdiagnostics
    obtain rfl := Option.some.inj hdiagnostics
    exact length_guestLog_of_ofLog hblocks

/-- A result comes of a session. -/
theorem isOk_of_decoded {outcome : Outcome} {log : Log} (h : p.decoded request log = .ok outcome) :
    (p.loaded.instantiate log ()).result.isOk = true := by
  cases hopen : (p.loaded.instantiate log ()).result with
  | error cause =>
      rw [decoded_of_not_opened request hopen] at h
      cases h
  | ok session => rfl

theorem agree_of_noPayload {declaredLength : Int}
    (hdecoded : p.decoded request (.fresh surface) = .ok (.noPayload declaredLength)) :
    p.EventsAgree request (.fresh surface) sinks world
      (p.ownEvents request (.fresh surface) sinks world)
      (p.run request (.fresh surface) sinks world).result := by
  obtain ⟨session, hlog, shows⟩ := shows_of_noPayload request sinks world hdecoded
  obtain ⟨_, _, muted⟩ := shows_of_noPayload request (sinks.map Sink.muted) world hdecoded
  have hevents := unfolds_of_noPayload request sinks world hdecoded hlog
  -- the complaint about a silent failure is the only word besides
  have hkinds : ∀ kind, kind ≠ .silent →
      ofKind kind (p.ownEvents request (.fresh surface) sinks world) =
        ofKind kind [started request] ++ ofKind kind [.noPayload declaredLength
          (undelivered (.noPayload declaredLength) session).diagnostics.length] := by
    intro kind hkind
    rw [hevents.ofKind, ofKind_noPayloadEvents _ _ hkind]
  rw [shows.result]
  refine ⟨⟨hevents.head, ?_⟩, ?_, ?_, ?_, ?_, ?_, ?_, by nofun, ?_, ?_⟩
  · rw [hkinds .started nofun]
    rfl
  · rw [hkinds .aborted nofun, hkinds .noPayload nofun, hkinds .decoded nofun,
      isOk_of_decoded hdecoded]
    rfl
  · rw [hkinds .aborted nofun]
    rfl
  · rw [hkinds .noPayload nofun]
    rfl
  · rw [hkinds .decoded nofun]
    refine iff_of_false (fun h => h rfl) ?_
    rintro (⟨report, hreport, hsucceeded⟩ | ⟨_, _, hdelivery⟩)
    · obtain rfl := Except.ok.inj hreport
      cases hsucceeded
    · cases hdelivery
  · rw [hkinds .delivered nofun, acceptedEvents, hdecoded]
    rfl
  · rw [hkinds .refused nofun]
    rfl
  · rw [hkinds .unrecognized nofun, hdecoded]
    exact iff_of_false (fun h => h rfl) (by nofun)
  · intro diagnostics hdiagnostics
    obtain rfl := Option.some.inj hdiagnostics
    rw [undelivered, hlog]
    exact length_guestLog_of_ofLog muted.reports

theorem agree_of_payload {bytes : ByteArray}
    (hdecoded : p.decoded request (.fresh surface) = .ok (.payload bytes)) :
    p.EventsAgree request (.fresh surface) sinks world
      (p.ownEvents request (.fresh surface) sinks world)
      (p.run request (.fresh surface) sinks world).result := by
  obtain ⟨session, hlog, shows⟩ := shows_of_payload request sinks world hdecoded
  obtain ⟨_, _, muted⟩ := shows_of_payload request (sinks.map Sink.muted) world hdecoded
  have hevents := unfolds_of_payload request sinks world hdecoded
  -- of the kinds that tell of no delivery there is what there was before it
  have hbefore : ∀ kind, kind ≠ .delivered → kind ≠ .refused →
      ofKind kind (p.ownEvents request (.fresh surface) sinks world) =
        ofKind kind [started request] ++ ofKind kind (payloadEvents bytes) := by
    intro kind hdelivered hrefused
    rw [hevents.ofKind, ofKind_append, ofKind_deliveryEvents _ _ _ _ hdelivered hrefused,
      List.append_nil]
  have hplain : ∀ kind, kind ≠ .delivered → kind ≠ .refused → kind ≠ .unrecognized →
      ofKind kind (p.ownEvents request (.fresh surface) sinks world) =
        ofKind kind [started request] ++
          ofKind kind [.payloadDecoded bytes.size (ArtifactKind.detect bytes)] := by
    intro kind hdelivered hrefused hunrecognized
    rw [hbefore kind hdelivered hrefused, ofKind_payloadEvents _ hunrecognized]
  have hrefused : ofKind .refused (p.ownEvents request (.fresh surface) sinks world) =
      refusalEvents p.artifactName (firstRefusal p.artifactName bytes sinks world) := by
    rw [hevents.ofKind, ofKind_append, ofKind_payloadEvents _ (by decide),
      ofKind_refused_deliveryEvents]
    rfl
  rw [shows.result, result_deliver]
  refine ⟨⟨hevents.head, ?_⟩, ?_, ?_, ?_, ?_, ?_, hrefused.trans ?_, ?_, ?_, ?_⟩
  · rw [hplain .started nofun nofun nofun]
    rfl
  · rw [hplain .aborted nofun nofun nofun, hplain .noPayload nofun nofun nofun,
      hplain .decoded nofun nofun nofun, isOk_of_decoded hdecoded]
    rfl
  · rw [hplain .aborted nofun nofun nofun]
    cases firstRefusal p.artifactName bytes sinks world with
    | none => rfl
    | some refusal => rfl
  · rw [hplain .noPayload nofun nofun nofun]
    cases firstRefusal p.artifactName bytes sinks world with
    | none => rfl
    | some refusal => rfl
  · rw [hplain .decoded nofun nofun nofun]
    refine iff_of_true (List.cons_ne_nil _ _) ?_
    cases firstRefusal p.artifactName bytes sinks world with
    | none => exact .inl ⟨_, rfl, rfl⟩
    | some refusal => exact .inr ⟨refusal.1, refusal.2, rfl⟩
  · rw [hevents.ofKind, ofKind_append, ofKind_payloadEvents _ (by decide),
      ofKind_delivered_deliveryEvents, acceptedEvents, hdecoded]
    rfl
  · cases firstRefusal p.artifactName bytes sinks world with
    | none => rfl
    | some refusal => rfl
  · intro sink cause hresult
    cases hrefusal : firstRefusal p.artifactName bytes sinks world with
    | none =>
        rw [hrefusal] at hresult
        cases hresult
    | some refusal =>
        rw [hrefusal] at hresult
        obtain ⟨rfl, rfl⟩ := RunFault.delivery.inj (Except.error.inj hresult)
        rw [deliveryEvents, hrefusal, ← List.append_assoc] at hevents
        exact hevents.getLast
  · rw [hbefore .unrecognized nofun nofun]
    constructor
    · intro hsome
      exact ⟨bytes, hdecoded, (unrecognized_payloadEvents_iff bytes).1 hsome⟩
    · rintro ⟨other, hother, hmagic⟩
      obtain rfl := Outcome.payload.inj (Except.ok.inj (hdecoded.symm.trans hother))
      exact (unrecognized_payloadEvents_iff bytes).2 hmagic
  · intro diagnostics hdiagnostics
    rw [sinkReports_muted, Journal.ofLog_nil, List.append_nil] at muted
    cases hrefusal : firstRefusal p.artifactName bytes sinks world with
    | some refusal =>
        rw [hrefusal] at hdiagnostics
        cases hdiagnostics
    | none =>
        rw [hrefusal] at hdiagnostics
        obtain rfl := Option.some.inj hdiagnostics
        rw [undelivered, hlog]
        exact length_guestLog_of_ofLog muted.reports

end Agreement

/-- Leaving aside what sinks report themselves, the events of a run agree with what it comes to. -/
theorem run_events_agree (p : Pipeline σ) (request : Request) (surface : Option Surface)
    (sinks : List (Sink ω)) (world : ω) :
    (p.run request (.fresh surface) sinks world).Interleaves
        (p.run request (.fresh surface) (sinks.map Sink.muted) world)
        (p.wordsOfSinks request (.fresh surface) sinks world) ∧
      p.EventsAgree request (.fresh surface) sinks world
        (p.ownEvents request (.fresh surface) sinks world)
        (p.run request (.fresh surface) sinks world).result := by
  refine ⟨p.interleaves_run request (.fresh surface) sinks world, ?_⟩
  cases p.course request (.fresh surface) with
  | notOpened cause hopen =>
      rw [(shows_of_not_opened request sinks world hopen).result]
      exact agree_of_not_opened sinks world hopen
  | failed session cause hopen hfailed => exact agree_of_failed sinks world hopen hfailed
  | noPayload declaredLength hdecoded => exact agree_of_noPayload sinks world hdecoded
  | payload bytes hdecoded => exact agree_of_payload sinks world hdecoded

end Pipeline

end CompilerHost
