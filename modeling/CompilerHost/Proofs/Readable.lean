import CompilerHost.Proofs.LogUse
import CompilerHost.Proofs.Milestones
import CompilerHost.Proofs.OptionLists

/-! # Whether a guest said anything

The log, the report of a run, the complaint about a silent failure and the words of a fault each
look for themselves whether there is anything to read, and each at the text in other pieces. They
come to the same answer, which is that of the whole text.

* `Text.readable_join`: a text can be read exactly if one of its pieces can;
* `RunFault.quotes_readable`: what a fault quotes of a log;
* `Pipeline.readable_agree`: all of them look at what the guest said.
-/

namespace CompilerHost

/-! ## Texts that can be read -/

namespace Text

/-- A text has a character in it that can be seen. -/
def Readable (text : String) : Prop := ∃ c ∈ text.toList, isBlank c = false

theorem not_isBlankText_iff {text : String} : (!isBlankText text) = true ↔ Readable text := by
  simp [isBlankText, Readable]

instance (text : String) : Decidable (Readable text) := decidable_of_iff _ not_isBlankText_iff

theorem not_readable_empty : ¬Readable "" := by
  rintro ⟨c, hc, _⟩
  cases hc

theorem readable_append {a b : String} : Readable (a ++ b) ↔ Readable a ∨ Readable b := by
  simp only [Readable, String.toList_append, List.mem_append, or_and_right, exists_or]

/-- However a text is cut, it can be read exactly if one of its pieces can. -/
theorem readable_join {texts : List String} :
    Readable (String.join texts) ↔ ∃ text ∈ texts, Readable text := by
  induction texts with
  | nil => exact iff_of_false not_readable_empty (by simp)
  | cons text texts ih =>
      rw [String.join_cons, readable_append, ih]
      simp

/-- What is trimmed to nothing cannot be read. -/
theorem trimmed_ne_empty_iff {text : String} : trimmed text ≠ "" ↔ Readable text := by
  rw [ne_eq, ← trims_iff, ← not_isBlankText_iff, Bool.not_eq_true', ← Bool.not_eq_true, isBlankText,
    List.all_eq_true]
  refine not_congr ⟨?_, ?_⟩
  · rintro ⟨_, front, back, htext, hblanks⟩
    intro c hc
    rw [htext] at hc
    exact hblanks c (by simpa using hc)
  · intro hblanks
    refine ⟨⟨nofun, nofun⟩, text.toList, [], by simp, ?_⟩
    simpa using hblanks

end Text

open Text (Readable)

/-- Where a log looks at its pieces, it looks at the whole text. -/
theorem any_readable_iff {blocks : List String} {rest : String} :
    (!Text.isBlankText rest || blocks.any (!Text.isBlankText ·)) = true ↔
      Readable (String.join blocks ++ rest) := by
  rw [Bool.or_eq_true, List.any_eq_true, Text.not_isBlankText_iff, Text.readable_append,
    Text.readable_join, or_comm]
  simp only [Text.not_isBlankText_iff]

/-! ## Logs -/

namespace Log

/-- The use of a log by which a guest says something. -/
def Use.ofUtterance : Utterance → Use
  | .words text => .append text
  | .blockEnd => .flush

theorem perform_ofUtterance {ε : Type} (u : Utterance) (log : Log) :
    ∃ gain journal, (Use.ofUtterance u).perform log =
      (⟨.ok gain, log.heard [u], journal⟩ : Ended Log ε Gain) := by
  cases u with
  | words text => exact ⟨.nothing, [], by rw [Log.heard_words]; rfl⟩
  | blockEnd =>
    refine ⟨.block log.pending, log.delivery, ?_⟩
    rw [Log.heard_blockEnd]
    exact perform_flush log

/-- A log that is told a speech has heard it. -/
theorem state_performAll_speech {ε : Type} (speech : List Utterance) (log : Log) :
    (performAll (speech.map Use.ofUtterance) log : Ended Log ε (List Gain)).state =
      log.heard speech := by
  induction speech generalizing log with
  | nil => exact (log.heard_nil).symm
  | cons u speech ih =>
      obtain ⟨gain, journal, hperform⟩ := perform_ofUtterance (ε := ε) u log
      have hok : ((Use.ofUtterance u).perform log : Ended Log ε Gain).result = .ok gain := by
        rw [hperform]
      rw [List.map_cons, performAll, Action.bind_of_ok _ hok, Ended.behind_state, bind_pure_comp,
        Action.map_apply, hperform, ih, ← Log.heard_append]
      rfl

end Log

/-! ## Faults -/

namespace RunFault

/-- The words about a log, some entries of which are quoted. -/
def logNote (entries : List String) : String :=
  " (guest log: " ++ "; ".intercalate entries ++ ")"

/-- The entries that are quoted of a log: the blocks that can be read, in their order, each without
the blanks around it. -/
def Quotes (log entries : List String) : Prop :=
  List.Forall₂ Text.Trims (log.filter fun block => Readable block) entries

theorem readable_cons (block : String) (log : List String) :
    readable (block :: log) =
      if Readable block then Text.trimmed block :: readable log else readable log := by
  simp only [readable, List.map_cons, List.filter_cons, decide_eq_true_eq, Text.trimmed_ne_empty_iff]

/-- The entries that are read out of a log are those that are to be quoted. -/
theorem quotes_readable (log : List String) : Quotes log (readable log) := by
  unfold Quotes
  induction log with
  | nil => exact .nil
  | cons block log ih =>
      rw [readable_cons, List.filter_cons]
      by_cases hblock : Readable block
      · rw [if_pos hblock, if_pos (decide_eq_true hblock)]
        exact .cons (Text.trims_iff.2 rfl) ih
      · rw [if_neg hblock, if_neg (by simpa using hblock)]
        exact ih

theorem readable_eq_nil_iff {log : List String} :
    readable log = [] ↔ ¬Readable (String.join log) := by
  simp only [readable, List.filter_eq_nil_iff, List.forall_mem_map, decide_eq_true_eq,
    Text.trimmed_ne_empty_iff, Text.readable_join, not_exists, not_and]

theorem logSuffix_of_unreadable {log : List String} (h : ¬Readable (String.join log)) :
    logSuffix log = "" := by
  rw [logSuffix, readable_eq_nil_iff.2 h]
  rfl

theorem logSuffix_of_readable {log : List String} (h : Readable (String.join log)) :
    logSuffix log = logNote (readable log) := by
  have hentries : ¬(readable log).isEmpty = true := by
    rw [List.isEmpty_iff, readable_eq_nil_iff]
    exact not_not_intro h
  rw [logSuffix, if_neg hentries]
  rfl

/-- The words for a compile that failed, but for what they say of the log. -/
def plainMessage (cause : GuestFault) : String := "Compile aborted: " ++ cause.message

theorem message_compile (cause : GuestFault) (log : List String) :
    (compile cause log).message = plainMessage cause ++ logSuffix log := rfl

theorem append_logNote_ne (plain : String) (entries : List String) :
    plain ++ logNote entries ≠ plain := by
  intro h
  have hlength := congrArg String.length h
  simp only [logNote, String.length_append] at hlength
  have hopening : " (guest log: ".length = 13 := rfl
  omega

/-- How a fault words a log in which the guest said `said`: it has a note about the log exactly if
that can be read, and then quotes it. -/
structure Words (cause : GuestFault) (log : List String) (said : String) : Prop where
  whole : String.join log = said
  noted : (∃ entries, (compile cause log).message = plainMessage cause ++ logNote entries) ↔
    Readable said
  quoted : Readable said → ∃ entries, Quotes log entries ∧
    (compile cause log).message = plainMessage cause ++ logNote entries
  plain : ¬Readable said → (compile cause log).message = plainMessage cause

theorem words_compile (cause : GuestFault) {log : List String} {said : String}
    (hlog : String.join log = said) : Words cause log said := by
  subst hlog
  have hquoted : Readable (String.join log) → (compile cause log).message =
      plainMessage cause ++ logNote (readable log) := by
    intro hreadable
    rw [message_compile, logSuffix_of_readable hreadable]
  have hplain : ¬Readable (String.join log) →
      (compile cause log).message = plainMessage cause := by
    intro hunreadable
    rw [message_compile, logSuffix_of_unreadable hunreadable, String.append_empty]
  refine ⟨rfl, ⟨?_, ?_⟩, ?_, hplain⟩
  · rintro ⟨entries, hnoted⟩
    by_contra hunreadable
    rw [hplain hunreadable] at hnoted
    exact append_logNote_ne _ entries hnoted.symm
  · intro hreadable
    exact ⟨readable log, hquoted hreadable⟩
  · intro hreadable
    exact ⟨readable log, quotes_readable log, hquoted hreadable⟩

end RunFault

/-! ## Runs -/

theorem Ended.Interleaves.events {S ε α : Type} {e own : Ended S ε α} {others : Journal}
    (h : e.Interleaves own others) :
    e.journal.events.Perm (own.journal.events ++ others.events) := by
  rw [← Journal.events_append]
  exact h.complete.filterMap _

namespace Pipeline

variable {σ ω : Type}

/-- All that the guest writes in a run with a fresh log. -/
def said (p : Pipeline σ) (request : Request) (surface : Option Surface) : String :=
  Speech.text (p.speech request (.fresh surface))

theorem hasDiagnostics_heard (speech : List Utterance) (surface : Option Surface) :
    ((Log.fresh surface).heard speech).hasDiagnostics = true ↔ Readable (Speech.text speech) := by
  have hwhole := Speech.join_blocks "" speech
  rw [String.empty_append] at hwhole
  rw [← hwhole]
  exact any_readable_iff

/-- A report looks at the log as it was when the guest was done. -/
theorem hasDiagnostics_undelivered {session : Session σ} {surface : Option Surface}
    {speech : List Utterance} (outcome : Outcome)
    (hlog : session.log = (Log.fresh surface).heard speech) :
    (undelivered outcome session).hasDiagnostics = true ↔ Readable (Speech.text speech) := by
  rw [← hasDiagnostics_heard speech surface, ← hlog]
  exact Iff.rfl

/-- Whether the guest said anything: how a run looks at it, and those who read of the run. -/
structure AgreesOnSpeech (p : Pipeline σ) (request : Request) (surface : Option Surface)
    (sinks : List (Sink ω)) (world : ω) : Prop where
  report : ∀ report, (p.run request (.fresh surface) sinks world).result = .ok report →
    (report.hasDiagnostics = true ↔ Readable (p.said request surface))
  /-- If a sink has the same word for something else, that is its own. -/
  silent : ∀ declaredLength,
    .silentFailure declaredLength ∈ (p.run request (.fresh surface) sinks world).journal.events ↔
      (∃ report, (p.run request (.fresh surface) sinks world).result = .ok report ∧
        report.outcome = .noPayload declaredLength ∧ ¬Readable (p.said request surface)) ∨
      .silentFailure declaredLength ∈
        (p.wordsOfSinks request (.fresh surface) sinks world).events
  fault : ∀ cause log,
    (p.run request (.fresh surface) sinks world).result = .error (.compile cause log) →
      RunFault.Words cause log (p.said request surface)

section Courses

variable (p : Pipeline σ) (request : Request) (surface : Option Surface) (sinks : List (Sink ω))
  (world : ω)

theorem hasDiagnostics_of_run {report : RunReport}
    (hrun : (p.run request (.fresh surface) sinks world).result = .ok report) :
    report.hasDiagnostics = true ↔ Readable (p.said request surface) := by
  have hcomesTo := p.comesTo request (.fresh surface) sinks world
  rw [hrun] at hcomesTo
  cases hcomesTo with
  | noPayload declaredLength session _ hlog => exact hasDiagnostics_undelivered _ hlog
  -- who took the artifact is of no matter for the log
  | delivered bytes session _ hlog _ => exact hasDiagnostics_undelivered (.payload bytes) hlog

/-- Neither the start of a run nor its session reports a silent failure. -/
theorem Unfolds.silentFailure_mem {request : Request} {events ending : List Event}
    (h : Unfolds request events ending) (declaredLength : Int) :
    .silentFailure declaredLength ∈ events ↔ .silentFailure declaredLength ∈ ending := by
  rcases h with ⟨middle, hmiddle, rfl⟩
  have hsession : .silentFailure declaredLength ∉ middle := by
    intro hmem
    cases hmiddle _ hmem
  simp [started, hsession]

theorem silentFailure_notMem_delivery (declaredLength : Int) (name : String) (bytes : ByteArray)
    (sinks : List (Sink ω)) (world : ω) :
    .silentFailure declaredLength ∉
      payloadEvents bytes ++ deliveryEvents name bytes sinks world := by
  have hpayload : .silentFailure declaredLength ∉ payloadEvents bytes := by
    unfold payloadEvents
    split <;> simp
  have hrefusal : ∀ refusal, .silentFailure declaredLength ∉ refusalEvents name refusal := by
    rintro (_ | ⟨kind, cause⟩) <;> simp [refusalEvents]
  simp [deliveryEvents, hpayload, hrefusal]

/-- A run tells of a silent failure exactly if there was no output and nothing to read. -/
theorem silentFailure_mem_ownEvents (declaredLength : Int) :
    .silentFailure declaredLength ∈ p.ownEvents request (.fresh surface) sinks world ↔
      ∃ report, (p.run request (.fresh surface) sinks world).result = .ok report ∧
        report.outcome = .noPayload declaredLength ∧ ¬Readable (p.said request surface) := by
  cases p.course request (.fresh surface) with
  | notOpened cause hopen =>
      rw [(unfolds_of_not_opened request sinks world hopen).silentFailure_mem,
        (shows_of_not_opened request sinks world hopen).result]
      simp
  | failed session cause hopen hfailed =>
      rw [(unfolds_of_failed request sinks world hopen hfailed).silentFailure_mem,
        (shows_of_failed request sinks world hopen hfailed).result]
      simp
  | noPayload actual hdecoded =>
      obtain ⟨session, hlog, shows⟩ := shows_of_noPayload request sinks world hdecoded
      rw [(unfolds_of_noPayload request sinks world hdecoded hlog).silentFailure_mem, shows.result]
      have hreadable := hasDiagnostics_undelivered (.noPayload actual) hlog
      rw [noPayloadEvents, List.mem_cons, said, ← hreadable]
      constructor
      · rintro (hother | hsilent)
        · cases hother
        · split at hsilent
          · cases hsilent
          · rename_i hquiet
            obtain rfl := Event.silentFailure.inj (List.mem_singleton.1 hsilent)
            exact ⟨_, rfl, rfl, hquiet⟩
      · rintro ⟨report, hreport, houtcome, hquiet⟩
        obtain rfl := Except.ok.inj hreport
        obtain rfl := Outcome.noPayload.inj houtcome
        rw [if_neg hquiet]
        exact .inr List.mem_cons_self
  | payload bytes hdecoded =>
      rw [(unfolds_of_payload request sinks world hdecoded).silentFailure_mem]
      refine iff_of_false (silentFailure_notMem_delivery _ _ _ _ _) ?_
      rintro ⟨report, hreport, houtcome, _⟩
      cases reported hreport with
      | empty _ hempty _ _ _ => cases hempty.symm.trans hdecoded
      | delivered _ _ hpayload _ _ _ => cases hpayload.symm.trans houtcome

theorem words_of_run {cause : GuestFault} {log : List String}
    (hrun : (p.run request (.fresh surface) sinks world).result = .error (.compile cause log)) :
    RunFault.Words cause log (p.said request surface) := by
  have hcomesTo := p.comesTo request (.fresh surface) sinks world
  rw [hrun] at hcomesTo
  cases hcomesTo with
  | failed _ _ =>
      have hwhole := Speech.join_brokenOff "" (p.speech request (.fresh surface))
      rw [String.empty_append] at hwhole
      exact RunFault.words_compile cause hwhole

theorem agreesOnSpeech_run : p.AgreesOnSpeech request surface sinks world where
  report := fun _ => p.hasDiagnostics_of_run request surface sinks world
  silent := by
    intro declaredLength
    have hevents := (p.interleaves_run request (.fresh surface) sinks world).events
    rw [hevents.mem_iff, List.mem_append]
    exact or_congr (p.silentFailure_mem_ownEvents request surface sinks world declaredLength) .rfl
  fault := fun _ _ => p.words_of_run request surface sinks world

end Courses

/-- Whether the guest said anything is asked in different places, and answered in the same way by
all of them: it did if what it wrote can be read, however that was cut. A log that hears a speech
has something to read in it exactly if the whole text can be read. The report of a run says so of
all that the guest wrote in it; a result without output is a silent failure if the guest said
nothing; and the words of a fault have a note about the log if it said something, in which the
blocks that can be read are quoted in their order, without the blanks around them. -/
theorem readable_agree {ε : Type} (p : Pipeline σ) (request : Request) (surface : Option Surface)
    (sinks : List (Sink ω)) (world : ω) :
    (∀ speech : List Utterance,
      (Log.performAll (speech.map Log.Use.ofUtterance) (.fresh surface) :
          Ended Log ε (List Log.Gain)).state.hasDiagnostics = true ↔
        Readable (Speech.text speech)) ∧
    p.AgreesOnSpeech request surface sinks world := by
  refine ⟨?_, p.agreesOnSpeech_run request surface sinks world⟩
  intro speech
  rw [Log.state_performAll_speech, hasDiagnostics_heard]

end Pipeline

end CompilerHost
