import CompilerHost.Proofs.Run
import CompilerHost.Script.Basic

/-! # Where the words of a guest end up

A run whose guest was instantiated keeps every word of it. What the guest completed is delivered
block by block while it runs; what it did not complete is in the report, or is delivered as one
more block when the run is given up.

* `Pipeline.run_conserves_speech`: the blocks and the rest are what was said, whatever was said;
* `Pipeline.reportsSpeech_iff`: a run without a result accounts for the words of its guest exactly
  when the guest was instantiated;
* `Pipeline.keepsPending_iff`: a run with a result keeps the words behind the last block exactly
  when no sink refuses the artifact.
-/

namespace CompilerHost

namespace Pipeline

variable {σ ω : Type}

/-! ## Conservation -/

/-- What the sinks report themselves when a run comes to an outcome. -/
def reportsOfSinks (p : Pipeline σ) (outcome : Outcome) (sinks : List (Sink ω)) (world : ω) :
    Journal :=
  match outcome with
  | .payload bytes => sinkReports p.artifactName bytes sinks world
  | .noPayload _ => []

/-- Whatever a guest says from its start on, none of it is lost, repeated or moved. If there is a
report, it has a block for each block end and what is left behind them. If the run is given up, the
fault has what is left as one more block, unless it is empty. Either way the operator and the
surface were handed each block once, and in order. -/
theorem run_conserves_speech (p : Pipeline σ) (request : Request) (surface : Option Surface)
    (sinks : List (Sink ω)) (world : ω) :
    match (p.run request (.fresh surface) sinks world).result with
    | .ok report =>
      report.diagnostics = Speech.blocks "" (p.speech request (.fresh surface)) ∧
      report.unflushed = Speech.remainder "" (p.speech request (.fresh surface)) ∧
      String.join report.diagnostics ++ report.unflushed =
        Speech.text (p.speech request (.fresh surface)) ∧
      (p.run request (.fresh surface) sinks world).journal.Delivers surface report.diagnostics
        (p.reportsOfSinks report.outcome sinks world)
    | .error (.compile _ diagnostics) =>
      diagnostics = Speech.brokenOff "" (p.speech request (.fresh surface)) ∧
      String.join diagnostics = Speech.text (p.speech request (.fresh surface)) ∧
      (p.run request (.fresh surface) sinks world).journal.Delivers surface diagnostics []
    | .error (.delivery _ _) =>
      ∃ outcome, p.decoded request (.fresh surface) = .ok outcome ∧
        (p.run request (.fresh surface) sinks world).journal.Delivers surface
          (Speech.blocks "" (p.speech request (.fresh surface)))
          (p.reportsOfSinks outcome sinks world)
    | .error (.guest cause) =>
      (p.loaded.instantiate (.fresh surface) ()).result = .error cause := by
  have hjoin := Speech.join_blocks "" (p.speech request (.fresh surface))
  have hjoinOff := Speech.join_brokenOff "" (p.speech request (.fresh surface))
  rw [String.empty_append] at hjoin hjoinOff
  cases p.course request (.fresh surface) with
  | notOpened cause hopen =>
      rw [(shows_of_not_opened request sinks world hopen).result]
      exact hopen
  | failed session cause hopen hfailed =>
      have shows := shows_of_failed request sinks world hopen hfailed
      rw [shows.result]
      refine ⟨rfl, hjoinOff, .of_ofLog ?_⟩
      rw [shows.reports, Journal.ofLog_nil, List.append_nil]
      rfl
  | noPayload declaredLength hdecoded =>
      obtain ⟨session, hlog, shows⟩ := shows_of_noPayload request sinks world hdecoded
      rw [shows.result]
      simp only [undelivered, hlog]
      refine ⟨rfl, rfl, hjoin, .of_ofLog ?_⟩
      rw [shows.reports]
      exact (List.append_nil _).symm
  | payload bytes hdecoded =>
      obtain ⟨session, hlog, shows⟩ := shows_of_payload request sinks world hdecoded
      rw [shows.result, result_deliver]
      cases firstRefusal p.artifactName bytes sinks world with
      | none =>
          simp only [Except.map, undelivered, hlog]
          exact ⟨rfl, rfl, hjoin, .of_ofLog shows.reports⟩
      | some refusal =>
          exact ⟨_, hdecoded, .of_ofLog shows.reports⟩

/-! ## Runs without a result -/

/-- A run accounts for the words of its guest with a fault: every block was delivered, what was
pending as the last, and the fault has them all. -/
def ReportsSpeech (p : Pipeline σ) (request : Request) (surface : Option Surface)
    (sinks : List (Sink ω)) (world : ω) : Prop :=
  ∃ cause diagnostics,
    (p.run request (.fresh surface) sinks world).result = .error (.compile cause diagnostics) ∧
    diagnostics = Speech.brokenOff "" (p.speech request (.fresh surface)) ∧
    (p.run request (.fresh surface) sinks world).journal.Delivers surface diagnostics []

/-- A guest that fails to be instantiated may have said something by then. The fault has nothing of
it, and nobody gets to read what was pending. -/
theorem run_of_failed_start {p : Pipeline σ} {request : Request} {surface : Option Surface}
    {cause : GuestFault} (sinks : List (Sink ω)) (world : ω)
    (hopen : (p.loaded.instantiate (.fresh surface) ()).result = .error cause) :
    (p.run request (.fresh surface) sinks world).result = .error (.guest cause) ∧
      (p.run request (.fresh surface) sinks world).journal.Delivers surface
        (Speech.blocks "" (p.speech request (.fresh surface))) [] := by
  have shows := shows_of_not_opened request sinks world hopen
  refine ⟨shows.result, .of_ofLog ?_⟩
  rw [shows.reports, Journal.ofLog_nil, List.append_nil]
  rfl

/-- Without a result, a run accounts for the words of its guest exactly when there was a session. -/
theorem reportsSpeech_iff {p : Pipeline σ} {request : Request} {surface : Option Surface}
    {cause : GuestFault} (sinks : List (Sink ω)) (world : ω)
    (hfailed : p.decoded request (.fresh surface) = .error cause) :
    p.ReportsSpeech request surface sinks world ↔
      ∃ session, (p.loaded.instantiate (.fresh surface) ()).result = .ok session := by
  constructor
  · rintro ⟨_, _, hresult, _, _⟩
    cases hopen : (p.loaded.instantiate (.fresh surface) ()).result with
    | error cause =>
        rw [(run_of_failed_start sinks world hopen).1] at hresult
        cases hresult
    | ok session => exact ⟨session, rfl⟩
  · rintro ⟨session, hopen⟩
    have shows := shows_of_failed request sinks world hopen hfailed
    refine ⟨cause, _, shows.result, rfl, .of_ofLog ?_⟩
    rw [shows.reports, Journal.ofLog_nil, List.append_nil]
    rfl

/-- A guest that takes no inputs and has a word in its memory. -/
def wordy (start : Option (List Script.Step)) (steps : List Script.Step) : Script where
  imports := [(hostModule, logWriteImport, [.i32, .i32]), (hostModule, logFlushImport, [])]
  minPages := 1
  maxPages := some 16
  memoryAs := .memory
  data := [(16, [0x6c, 0x6f, 0x73, 0x74])]
  heap := 4096
  allocator := .bump
  imageAllocator := .bump
  entry := .function [] (some .i32) steps
  start := start

/-- Writes the word to the log. -/
def say : Script.Step := .write (.word 16) (.word 4)

/-- The pipeline of a script, with fuel for many steps. -/
def ofScript (script : Script) : Pipeline UInt32 := .ofLoaded ⟨script.guest, 1000000⟩

/-- The guest says its word and traps, while it compiles. -/
def brokenEntry : Pipeline UInt32 := ofScript (wordy none [say, .trap])

/-- The guest says its word and traps, while it starts. -/
def brokenStart : Pipeline UInt32 := ofScript (wordy (some [say, .trap]) [])

theorem reportsSpeech_brokenEntry :
    brokenEntry.decoded ⟨.none, "x"⟩ (.fresh none) = .error (.execution (.trap .unreachable)) ∧
      brokenEntry.speech ⟨.none, "x"⟩ (.fresh none) = [.words "lost"] ∧
      brokenEntry.ReportsSpeech ⟨.none, "x"⟩ none [] () := by
  have hfailed : brokenEntry.decoded ⟨.none, "x"⟩ (.fresh none) =
      .error (.execution (.trap .unreachable)) := by with_unfolding_all rfl
  have hopen : (brokenEntry.loaded.instantiate (.fresh none) ()).result.isOk = true := by
    with_unfolding_all rfl
  refine ⟨hfailed, by decide +kernel, (reportsSpeech_iff [] () hfailed).2 ?_⟩
  cases hresult : (brokenEntry.loaded.instantiate (.fresh none) ()).result with
  | error cause => simp [hresult, Except.isOk, Except.toBool] at hopen
  | ok session => exact ⟨session, rfl⟩

theorem not_reportsSpeech_brokenStart :
    brokenStart.decoded ⟨.none, "x"⟩ (.fresh none) = .error (.execution (.trap .unreachable)) ∧
      brokenStart.speech ⟨.none, "x"⟩ (.fresh none) = [.words "lost"] ∧
      ¬brokenStart.ReportsSpeech ⟨.none, "x"⟩ none [] () := by
  have hopen : (brokenStart.loaded.instantiate (.fresh none) ()).result =
      .error (.execution (.trap .unreachable)) := by with_unfolding_all rfl
  refine ⟨decoded_of_not_opened _ hopen, by decide +kernel, ?_⟩
  rintro ⟨_, _, hresult, _, _⟩
  rw [(run_of_failed_start [] () hopen).1] at hresult
  cases hresult

/-! ## Runs with a result -/

/-- The words behind the last block of a run with a result can be read: in the report, as one more
block that was delivered, or in what comes with the fault. -/
def KeepsPending (p : Pipeline σ) (request : Request) (log : Log) (outcome : Outcome)
    (sinks : List (Sink ω)) (world : ω) : Prop :=
  (∃ report, (p.run request log sinks world).result = .ok report ∧
    report.unflushed = Speech.remainder log.pending (p.speech request log)) ∨
  (p.run request log sinks world).journal.Delivers log.surface
    (Speech.blocks log.pending (p.speech request log) ++
      [Speech.remainder log.pending (p.speech request log)])
    (p.reportsOfSinks outcome sinks world) ∨
  ∃ fault, (p.run request log sinks world).result = .error fault ∧
    Speech.remainder log.pending (p.speech request log) ∈ fault.diagnostics

/-- A refusal is all that comes of a run, and the words behind the last block are not delivered. -/
theorem run_of_refusal {p : Pipeline σ} {request : Request} {log : Log} {bytes : ByteArray}
    {sinks : List (Sink ω)} {world : ω} {kind : String} {cause : SinkFault}
    (hdecoded : p.decoded request log = .ok (.payload bytes))
    (hrefusal : firstRefusal p.artifactName bytes sinks world = some (kind, cause)) :
    (p.run request log sinks world).result = .error (.delivery kind cause) ∧
      (p.run request log sinks world).journal.Delivers log.surface
        (Speech.blocks log.pending (p.speech request log))
        (p.reportsOfSinks (.payload bytes) sinks world) := by
  obtain ⟨session, _, shows⟩ := shows_of_payload request sinks world hdecoded
  refine ⟨?_, .of_ofLog shows.reports⟩
  rw [shows.result, result_deliver, hrefusal]
  rfl

theorem not_keepsPending_of_refusal {p : Pipeline σ} {request : Request} {log : Log}
    {bytes : ByteArray} {sinks : List (Sink ω)} {world : ω} {kind : String} {cause : SinkFault}
    (hdecoded : p.decoded request log = .ok (.payload bytes))
    (hrefusal : firstRefusal p.artifactName bytes sinks world = some (kind, cause)) :
    ¬p.KeepsPending request log (.payload bytes) sinks world := by
  obtain ⟨hresult, hblocks⟩ := run_of_refusal hdecoded hrefusal
  rintro (⟨report, hreport, _⟩ | hdelivers | ⟨fault, hfault, hmem⟩)
  · rw [hresult] at hreport
    cases hreport
  · -- the blocks alone were delivered, and that is one less
    have hlength := congrArg List.length (hblocks.console.symm.trans hdelivers.console)
    simp at hlength
  · rw [hresult] at hfault
    obtain rfl := Except.error.inj hfault
    cases hmem

/-- A run with a result keeps the words behind the last block exactly when no sink refuses what
there is to deliver. -/
theorem keepsPending_iff {p : Pipeline σ} {request : Request} {log : Log} {outcome : Outcome}
    (sinks : List (Sink ω)) (world : ω) (hdecoded : p.decoded request log = .ok outcome) :
    p.KeepsPending request log outcome sinks world ↔
      ∀ bytes, outcome = .payload bytes →
        firstRefusal p.artifactName bytes sinks world = none := by
  constructor
  · rintro hkeeps bytes rfl
    cases hrefusal : firstRefusal p.artifactName bytes sinks world with
    | none => rfl
    | some refusal => exact absurd hkeeps (not_keepsPending_of_refusal hdecoded hrefusal)
  · intro haccepted
    cases outcome with
    | noPayload declaredLength =>
        obtain ⟨session, hlog, shows⟩ := shows_of_noPayload request sinks world hdecoded
        refine .inl ⟨_, shows.result, ?_⟩
        simp only [undelivered, hlog]
        rfl
    | payload bytes =>
        obtain ⟨session, hlog, shows⟩ := shows_of_payload request sinks world hdecoded
        have hresult := shows.result
        rw [result_deliver, haccepted bytes rfl] at hresult
        refine .inl ⟨_, hresult, ?_⟩
        simp only [undelivered, hlog]
        rfl

/-- The guest says its word and goes on to return an artifact of one byte. -/
def unfinished : Pipeline UInt32 :=
  ofScript (wordy none
    [say, .store32 (.word 64) (.word 1), .store8 (.word 68) (.word 65), .exit (.word 64)])

theorem decoded_unfinished :
    unfinished.decoded ⟨.none, ""⟩ (.fresh none) = .ok (.payload ⟨#[65]⟩) := by
  with_unfolding_all rfl

theorem speech_unfinished : unfinished.speech ⟨.none, ""⟩ (.fresh none) = [.words "lost"] := by
  decide +kernel

theorem keepsPending_unfinished :
    unfinished.decoded ⟨.none, ""⟩ (.fresh none) = .ok (.payload ⟨#[65]⟩) ∧
      Speech.remainder "" (unfinished.speech ⟨.none, ""⟩ (.fresh none)) = "lost" ∧
      unfinished.KeepsPending ⟨.none, ""⟩ (.fresh none) (.payload ⟨#[65]⟩) [Sink.shelf] [] := by
  refine ⟨decoded_unfinished, by rw [speech_unfinished]; rfl, ?_⟩
  refine (keepsPending_iff [Sink.shelf] [] decoded_unfinished).2 ?_
  intro bytes _
  rfl

theorem not_keepsPending_unfinished :
    unfinished.decoded ⟨.none, ""⟩ (.fresh none) = .ok (.payload ⟨#[65]⟩) ∧
      Speech.remainder "" (unfinished.speech ⟨.none, ""⟩ (.fresh none)) = "lost" ∧
      ¬unfinished.KeepsPending ⟨.none, ""⟩ (.fresh none) (.payload ⟨#[65]⟩) [Sink.refusing] () := by
  refine ⟨decoded_unfinished, by rw [speech_unfinished]; rfl, ?_⟩
  exact not_keepsPending_of_refusal decoded_unfinished rfl

end Pipeline

end CompilerHost
