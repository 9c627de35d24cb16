import CompilerHost.Proofs.Result

/-! # Who is handed what

Sinks change a world of their own, which says nothing of how often they were asked. Recorded sinks
keep, next to the world, a list of all that they are handed and of their answers. A run with them
is the same run (`Pipeline.run_recorded`), so that the record is one of the run itself:

* `Pipeline.delivery_exact`: without an artifact nobody is handed anything; an artifact is handed
  to each sink once and in order, up to the first that refuses.
-/

namespace CompilerHost

/-! ## Records -/

/-- An ending as it looks to those who know nothing of the records. -/
def Ended.forget {ω ρ ε α : Type} (e : Ended (ω × ρ) ε α) : Ended ω ε α :=
  ⟨e.result, e.state.1, e.journal⟩

namespace Action

variable {ω ρ ε δ α β : Type}

/-- An action on a world with records is the same as an action on the world alone, but for the
records. -/
def Records (x' : Action (ω × ρ) ε α) (x : Action ω ε α) : Prop :=
  ∀ s, (x' s).forget = x s.1

namespace Records

theorem pure (a : α) : Records (Pure.pure a : Action (ω × ρ) ε α) (Pure.pure a) := fun _ => rfl

theorem throw (e : ε) :
    Records (MonadExcept.throw e : Action (ω × ρ) ε α) (MonadExcept.throw e) := fun _ => rfl

theorem emit (e : Event) : Records (Action.emit e : Action (ω × ρ) ε Unit) (Action.emit e) :=
  fun _ => rfl

theorem reported (j : Journal) :
    Records (Action.reported j : Action (ω × ρ) ε Unit) (Action.reported j) := fun _ => rfl

theorem attempt {x' : Action (ω × ρ) ε α} {x : Action ω ε α} (h : Records x' x) :
    Records (Action.attempt x' : Action (ω × ρ) δ (Except ε α)) (Action.attempt x) := by
  intro s
  have hx := h s
  simp only [Action.attempt, ← hx]
  rfl

theorem bind {x' : Action (ω × ρ) ε α} {x : Action ω ε α} {f' : α → Action (ω × ρ) ε β}
    {f : α → Action ω ε β} (hx : Records x' x) (hf : ∀ a, Records (f' a) (f a)) :
    Records (x' >>= f') (x >>= f) := by
  intro s
  have hx := hx s
  cases hresult : (x' s).result with
  | error e =>
      have hplain : (x s.1).result = .error e := by rw [← hx]; exact hresult
      rw [bind_of_error _ hresult, bind_of_error _ hplain, ← hx]
      rfl
  | ok a =>
      have hplain : (x s.1).result = .ok a := by rw [← hx]; exact hresult
      have hrest := hf a (x' s).state
      rw [bind_of_ok _ hresult, bind_of_ok _ hplain, ← hx]
      simp only [Ended.forget, Ended.behind] at hrest ⊢
      rw [← hrest]

end Records

end Action

/-- What a sink was handed, with its place among the sinks, and how it answered. -/
structure Handover where
  sink : Nat
  name : String
  bytes : ByteArray
  answer : Except SinkFault Unit

namespace Sink

variable {ω : Type}

/-- The sink, with a record of what it is handed. -/
def recorded (place : Nat) (s : Sink ω) : Sink (ω × List Handover) where
  kind := s.kind
  deliver name bytes := fun (world, record) =>
    let ended := s.deliver name bytes world
    ⟨ended.result, (ended.state, record ++ [⟨place, name, bytes, ended.result⟩]), ended.journal⟩

/-- Sinks in their places, the first of which is given, with a record of what they are handed. -/
def recordedFrom : Nat → List (Sink ω) → List (Sink (ω × List Handover))
  | _, [] => []
  | place, sink :: rest => sink.recorded place :: recordedFrom (place + 1) rest

theorem records_deliver (place : Nat) (s : Sink ω) (name : String) (bytes : ByteArray) :
    ((s.recorded place).deliver name bytes).Records (s.deliver name bytes) := fun _ => rfl

end Sink

namespace Pipeline

variable {σ ω : Type}

/-! ## The same run -/

open CompilerHost.Action (Records)

theorem records_deliver (name : String) (bytes : ByteArray) (place : Nat)
    (sinks : List (Sink ω)) :
    Records (deliver name bytes (Sink.recordedFrom place sinks)) (deliver name bytes sinks) := by
  induction sinks generalizing place with
  | nil => exact .pure []
  | cons sink rest ih =>
      refine .bind (.attempt (sink.records_deliver place name bytes)) fun answer => ?_
      cases answer with
      | error cause => exact .bind (.emit _) fun _ => .throw _
      | ok _ => exact .bind (.emit _) fun _ => .bind (ih (place + 1)) fun _ => .pure _

theorem records_conclude (p : Pipeline σ) (outcome : Outcome) (session : Session σ)
    (sinks : List (Sink ω)) :
    Records (p.conclude outcome session (Sink.recordedFrom 0 sinks))
      (p.conclude outcome session sinks) := by
  cases outcome with
  | noPayload declaredLength =>
      refine .bind (.emit _) fun _ => ?_
      split
      · exact .pure _
      · exact .bind (.emit _) fun _ => .pure _
  | payload bytes =>
      refine .bind (.emit _) fun _ => ?_
      split
      · exact .bind (records_deliver _ bytes 0 sinks) fun _ => .pure _
      · exact .bind (.emit _) fun _ => .bind (records_deliver _ bytes 0 sinks) fun _ => .pure _

theorem records_abort (log : Log) (cause : GuestFault) :
    Records (abort log cause : Action (ω × List Handover) RunFault RunReport)
      (abort log cause) := by
  unfold abort
  split
  · exact .bind (.pure _) fun _ => .bind (.emit _) fun _ => .throw _
  · refine .bind (.reported _) fun _ => ?_
    exact .bind (.pure _) fun _ => .bind (.emit _) fun _ => .throw _

/-- A run with recorded sinks is the same run. -/
theorem run_recorded (p : Pipeline σ) (request : Request) (log : Log) (sinks : List (Sink ω)) :
    Records (p.run request log (Sink.recordedFrom 0 sinks)) (p.run request log sinks) := by
  refine .bind (.emit _) fun _ => .bind (.reported _) fun _ => ?_
  cases (p.loaded.instantiate log ()).result with
  | error cause => exact .throw _
  | ok session =>
      refine .bind (.reported _) fun _ => ?_
      cases (p.compileIn request session).result with
      | error cause => exact records_abort _ cause
      | ok outcome => exact p.records_conclude outcome _ sinks

/-! ## What is recorded -/

/-- Sinks that are handed an artifact in order either accept it all, each once, or the first that
refuses was handed it as the last. The induction is on the sinks, for any place of the first. -/
theorem record_of_deliver (name : String) (bytes : ByteArray) (place : Nat)
    (sinks : List (Sink ω)) (world : ω) (record : List Handover) :
    ((deliver name bytes (Sink.recordedFrom place sinks) (world, record)).result =
        .ok (sinks.map Sink.kind) ∧
      (deliver name bytes (Sink.recordedFrom place sinks) (world, record)).state.2 =
        record ++ (List.range' place sinks.length).map (⟨·, name, bytes, .ok ()⟩)) ∨
    ∃ k sink cause, sinks[k]? = some sink ∧
      (deliver name bytes (Sink.recordedFrom place sinks) (world, record)).result =
        .error (.delivery sink.kind cause) ∧
      (deliver name bytes (Sink.recordedFrom place sinks) (world, record)).state.2 =
        record ++ (List.range' place k).map (⟨·, name, bytes, .ok ()⟩) ++
          [⟨place + k, name, bytes, .error cause⟩] := by
  induction sinks generalizing place world record with
  | nil => exact .inl ⟨rfl, (List.append_nil record).symm⟩
  | cons sink rest ih =>
      cases hanswer : (sink.deliver name bytes world).result with
      | error cause =>
          have hrecorded : ((sink.recorded place).deliver name bytes (world, record)).result =
              .error cause := hanswer
          rw [Sink.recordedFrom, deliver_of_refused _ hrecorded]
          refine .inr ⟨0, sink, cause, rfl, rfl, ?_⟩
          rw [← hanswer, List.range'_zero, List.map_nil, List.append_nil]
          rfl
      | ok _ =>
          have hrecorded : ((sink.recorded place).deliver name bytes (world, record)).result =
              .ok () := hanswer
          have hstate : ((sink.recorded place).deliver name bytes (world, record)).state =
              ((sink.deliver name bytes world).state, record ++ [⟨place, name, bytes, .ok ()⟩]) := by
            rw [← hanswer]
            rfl
          rw [Sink.recordedFrom, deliver_of_accepted hrecorded, Ended.behind_result,
            Ended.behind_state, Action.map_apply, hstate]
          rcases ih (place + 1) (sink.deliver name bytes world).state
            (record ++ [⟨place, name, bytes, .ok ()⟩]) with
            ⟨hresult, hrecord⟩ | ⟨k, refusing, cause, hk, hresult, hrecord⟩
          · refine .inl ⟨by rw [hresult]; rfl, ?_⟩
            rw [hrecord, List.length_cons, List.range'_succ, List.map_cons, List.append_assoc]
            rfl
          · refine .inr ⟨k + 1, refusing, cause, hk, by rw [hresult]; rfl, ?_⟩
            rw [hrecord, List.range'_succ, List.map_cons, Nat.add_assoc, Nat.add_comm 1 k]
            simp only [List.append_assoc]
            rfl

/-- Sinks that accept what they are handed, in order, are all handed it once. -/
theorem record_of_accepted {name : String} {bytes : ByteArray} {sinks : List (Sink ω)} {world : ω}
    (haccept : firstRefusal name bytes sinks world = none) :
    (deliver name bytes (Sink.recordedFrom 0 sinks) (world, [])).result =
        .ok (sinks.map Sink.kind) ∧
      (deliver name bytes (Sink.recordedFrom 0 sinks) (world, [])).state.2 =
        (List.range sinks.length).map (⟨·, name, bytes, .ok ()⟩) := by
  have hplain := result_deliver name bytes sinks world
  rw [haccept] at hplain
  have hsame : (deliver name bytes (Sink.recordedFrom 0 sinks) (world, [])).result =
      (deliver name bytes sinks world).result := by
    rw [← records_deliver name bytes 0 sinks (world, [])]
    rfl
  rcases record_of_deliver name bytes 0 sinks world [] with
    ⟨hresult, hrecord⟩ | ⟨k, sink, cause, _, hresult, _⟩
  · refine ⟨hresult, ?_⟩
    rw [hrecord, List.nil_append, List.range_eq_range']
  · rw [hsame, hplain] at hresult
    cases hresult

/-- Delivery is exact. Without an artifact no sink is handed anything, whatever the reason. An
artifact is what the guest's entry point left in memory, and the sinks are handed it in order, each
once, up to the first that refuses: if none does, all are named in the report, and else the fault
is that sink's. -/
theorem delivery_exact (p : Pipeline σ) (request : Request) (log : Log) (sinks : List (Sink ω))
    (world : ω) :
    Records (p.run request log (Sink.recordedFrom 0 sinks)) (p.run request log sinks) ∧
    match p.decoded request log with
    | .error cause =>
      (p.run request log (Sink.recordedFrom 0 sinks) (world, [])).state.2 = [] ∧
      ((p.run request log sinks world).result = .error (.guest cause) ∨
        ∃ diagnostics, (p.run request log sinks world).result = .error (.compile cause diagnostics))
    | .ok (.noPayload declaredLength) =>
      (p.run request log (Sink.recordedFrom 0 sinks) (world, [])).state.2 = [] ∧
      ∃ report, (p.run request log sinks world).result = .ok report ∧
        report.outcome = .noPayload declaredLength ∧ report.kind = none ∧ report.delivered = []
    | .ok (.payload bytes) =>
      (∃ f result final, p.loaded.guest.function? compileExport = some f ∧
        Turn.Last (p.turns request log) f result final ∧
        final.memory.HoldsOutput ⟨result⟩ bytes) ∧
      ((∃ report, (p.run request log sinks world).result = .ok report ∧
          report.outcome = .payload bytes ∧ report.kind = some (ArtifactKind.detect bytes) ∧
          report.delivered = sinks.map Sink.kind ∧
          (p.run request log (Sink.recordedFrom 0 sinks) (world, [])).state.2 =
            (List.range sinks.length).map (⟨·, p.artifactName, bytes, .ok ()⟩)) ∨
        ∃ k sink cause, sinks[k]? = some sink ∧
          (p.run request log sinks world).result = .error (.delivery sink.kind cause) ∧
          (p.run request log (Sink.recordedFrom 0 sinks) (world, [])).state.2 =
            (List.range k).map (⟨·, p.artifactName, bytes, .ok ()⟩) ++
              [⟨k, p.artifactName, bytes, .error cause⟩]) := by
  have hrecorded := p.run_recorded request log sinks
  have hplain : (p.run request log sinks world).result =
      (p.run request log (Sink.recordedFrom 0 sinks) (world, [])).result := by
    rw [← hrecorded (world, [])]
    rfl
  refine ⟨hrecorded, ?_⟩
  rw [hplain]
  cases p.course request log with
  | notOpened cause hopen =>
      have shows := shows_of_not_opened request (Sink.recordedFrom 0 sinks) (world, []) hopen
      rw [decoded_of_not_opened request hopen, shows.state, shows.result]
      exact ⟨rfl, .inl rfl⟩
  | failed session cause hopen hfailed =>
      have shows := shows_of_failed request (Sink.recordedFrom 0 sinks) (world, []) hopen hfailed
      rw [hfailed, shows.state, shows.result]
      exact ⟨rfl, .inr ⟨_, rfl⟩⟩
  | noPayload declaredLength hdecoded =>
      obtain ⟨session, _, shows⟩ :=
        shows_of_noPayload request (Sink.recordedFrom 0 sinks) (world, []) hdecoded
      rw [hdecoded, shows.state, shows.result]
      exact ⟨rfl, _, rfl, rfl, rfl, rfl⟩
  | payload bytes hdecoded =>
      obtain ⟨f, result, final, hf, hlast, houtcome⟩ := last_of_decoded hdecoded
      obtain ⟨session, _, shows⟩ :=
        shows_of_payload request (Sink.recordedFrom 0 sinks) (world, []) hdecoded
      rw [hdecoded, shows.state, shows.result]
      refine ⟨⟨f, result, final, hf, hlast, Memory.holdsOutput_of_outcomeAt houtcome⟩, ?_⟩
      rcases record_of_deliver p.artifactName bytes 0 sinks world [] with
        ⟨hresult, hrecord⟩ | ⟨k, sink, cause, hk, hresult, hrecord⟩
      · refine .inl ⟨_, by rw [hresult]; rfl, rfl, rfl, rfl, ?_⟩
        rw [hrecord, List.nil_append, List.range_eq_range']
      · refine .inr ⟨k, sink, cause, hk, by rw [hresult]; rfl, ?_⟩
        rw [hrecord, List.nil_append, Nat.zero_add, List.range_eq_range']

end Pipeline

end CompilerHost
