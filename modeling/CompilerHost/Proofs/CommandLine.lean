import CompilerHost.Command
import CompilerHost.Proofs.Run
import Mathlib.Order.Defs.Unbundled

/-! # What the program comes to

The program goes through many stages before an artifact is handed to a sink, and each of them may
be the last. The exit status tells how far it got, and nothing is done to a file before a sink is
asked.

* `Config.leaves_pipeline`: loading a guest and its image leaves no trace;
* `CommandRun.Course`: the courses that the program may take;
* `CommandRun.consistent_iff`: exit status and files go together for all inputs, exactly unless the
  directives for the log end the program.
-/

namespace CompilerHost

open CompilerHost.Action (Respects)

/-! ## Stages without a trace -/

section Loading

variable {σ S : Type}

theorem leaves_loadArtifact (fs : FileSystem) (kind path : String) :
    Respects Eq (loadArtifact fs kind path : Action S GuestFault ByteArray) := by
  unfold loadArtifact
  split
  · exact .bind (.emit _) fun _ => .throw _
  · exact .bind (.emit _) fun _ => .pure _

theorem Loaded.leaves_ofBytes (engine : Engine σ) (bytes : ByteArray) (fuel : UInt64) :
    Respects Eq (Loaded.ofBytes engine bytes fuel : Action S GuestFault (Loaded σ)) := by
  refine .bind (.ofExcept _) fun _ => .bind (.ofExcept _) fun manifest => ?_
  refine .bind (.ofExcept _) fun _ => .bind (.emit _) fun _ => .bind (.emit _) fun _ => ?_
  split
  · exact .pure _
  · exact .throw _

theorem Config.leaves_pipeline (c : Config) (engine : Engine σ) (fs : FileSystem) :
    Respects Eq (c.pipeline engine fs : Action S GuestFault (Pipeline σ)) := by
  refine .bind (.bind (leaves_loadArtifact _ _ _) fun _ => Loaded.leaves_ofBytes _ _ _) fun _ => ?_
  refine .bind ?_ fun _ => .pure _
  unfold loadImage
  split
  · exact .pure _
  · exact .bind (leaves_loadArtifact _ _ _) fun _ => .pure _

end Loading

/-! ## Jobs -/

/-- All that a run on the command line needs. -/
structure Prepared (σ : Type) where
  config : Config
  options : Options
  source : String
  pipeline : Pipeline σ

/-- The run, and how it ends. -/
def Prepared.ended {σ : Type} (c : Prepared σ) (terminal : Surface) (fs : FileSystem) :
    Ended FileSystem RunFault RunReport :=
  c.pipeline.run ⟨c.options, c.source⟩ (c.config.log terminal) c.config.sinks fs

/-- The status of a run, if nothing else comes of it: whether there is an artifact. -/
def Prepared.status {σ : Type} (c : Prepared σ) (terminal : Surface) (fs : FileSystem) : Nat :=
  match (c.ended terminal fs).result with
  | .ok report => if report.succeeded then 0 else 1
  | .error _ => 1

/-- Arguments ask for a run: they name a configuration that can be used and a source that can be
read, and the guest and its image can be loaded. Flags replace those of the configuration if there
are any, be they blank. -/
inductive Asks {σ : Type} (engine : Engine σ) (fs : FileSystem) :
    List String → Prepared σ → Prop where
  | intro {configPath sourcePath : String} (flags : List String) {config : Config} {source : String}
      {pipeline : Pipeline σ} (hload : Config.load fs configPath = .ok config)
      (hvalid : config.validate = .ok ()) (hsource : fs.readText sourcePath = .ok source)
      (hpipeline : ((config.pipeline engine fs : Action FileSystem _ _) fs).result = .ok pipeline) :
      Asks engine fs (configPath :: sourcePath :: flags)
        ⟨config, if flags = [] then config.options else Options.ofEntries flags, source, pipeline⟩

theorem Prepared.status_eq_zero_iff {σ : Type} {c : Prepared σ} {terminal : Surface}
    {fs : FileSystem} :
    c.status terminal fs = 0 ↔
      ∃ report, (c.ended terminal fs).result = .ok report ∧ report.succeeded := by
  unfold status
  cases (c.ended terminal fs).result with
  | error fault => exact iff_of_false Nat.one_ne_zero (by nofun)
  | ok report =>
      simp only
      split
      · rename_i hsucceeded
        exact iff_of_true rfl ⟨report, rfl, hsucceeded⟩
      · rename_i hfailed
        refine iff_of_false Nat.one_ne_zero ?_
        rintro ⟨_, hsame, hother⟩
        obtain rfl := Except.ok.inj hsame
        exact hfailed hother

theorem Prepared.status_le_one {σ : Type} (c : Prepared σ) (terminal : Surface)
    (fs : FileSystem) : c.status terminal fs ≤ 1 := by
  unfold status
  split
  · split
    · exact Nat.zero_le 1
    · exact Nat.le_refl 1
  · exact Nat.le_refl 1

theorem Asks.two_le {σ : Type} {engine : Engine σ} {fs : FileSystem} {arguments : List String}
    {c : Prepared σ} (h : Asks engine fs arguments c) : 2 ≤ arguments.length := by
  cases h
  exact Nat.le_add_left 2 _

/-- Arguments ask for one run at most. -/
theorem Asks.unique {σ : Type} {engine : Engine σ} {fs : FileSystem} {arguments : List String}
    {c d : Prepared σ} (h : Asks engine fs arguments c) (h' : Asks engine fs arguments d) :
    c = d := by
  cases h with
  | intro flags hload _ hsource hpipeline =>
      cases h' with
      | intro _ hload' _ hsource' hpipeline' =>
          obtain rfl := Except.ok.inj (hload.symm.trans hload')
          obtain rfl := Except.ok.inj (hsource.symm.trans hsource')
          obtain rfl := Except.ok.inj (hpipeline.symm.trans hpipeline')
          rfl

/-- A configuration is valid if it can be read and passes its checks. -/
theorem Config.loadValid_eq_ok_iff {path : String} {config : Config} :
    Config.loadValid fs path = .ok config ↔
      Config.load fs path = .ok config ∧ config.validate = .ok () := by
  unfold Config.loadValid
  cases hload : Config.load fs path with
  | error cause => exact iff_of_false (by nofun) (by nofun)
  | ok loaded =>
      change (loaded.validate >>= fun _ => Except.ok loaded) = _ ↔ _
      cases hvalid : loaded.validate with
      | error cause =>
          refine iff_of_false (by nofun) ?_
          rintro ⟨hsame, hok⟩
          obtain rfl := Except.ok.inj hsame
          rw [hvalid] at hok
          cases hok
      | ok _ =>
          constructor
          · intro h
            obtain rfl := Except.ok.inj h
            exact ⟨rfl, hvalid⟩
          · rintro ⟨hsame, _⟩
            rw [← hsame]
            rfl

namespace Job

variable {σ : Type} {engine : Engine σ} {fs : FileSystem} {job : Job} (terminal : Surface)

theorem perform_of_unreadable {e : OsError} (hsource : fs.readText job.sourcePath = .error e) :
    job.perform engine terminal fs = ⟨.error (.source job.sourcePath e), fs, []⟩ := by
  rw [perform, Action.get_bind_apply, hsource]
  rfl

/-- What is done with a report: a word on what is left in the log, and a fault if there is no
artifact. -/
def finish (report : RunReport) : Action FileSystem CommandFault Unit := do
  unless report.unflushed.isEmpty do Action.emit (.unflushedText report.unflushed)
  unless report.succeeded do throw .noArtifact

theorem finish_apply (report : RunReport) (fs : FileSystem) :
    (finish report fs).result = (if report.succeeded then .ok () else .error .noArtifact) ∧
      (finish report fs).state = fs := by
  unfold finish
  cases report.succeeded with
  | false => cases report.unflushed.isEmpty <;> exact ⟨rfl, rfl⟩
  | true => cases report.unflushed.isEmpty <;> exact ⟨rfl, rfl⟩

/-- Behind the source come the guest, the run and what is done with its report. -/
theorem perform_of_readable {source : String} (hsource : fs.readText job.sourcePath = .ok source) :
    job.perform engine terminal fs =
      ((job.config.pipeline engine fs).mapFault (fun cause => .run (.guest cause)) >>=
        fun pipeline => (pipeline.run ⟨job.options, source⟩ (job.config.log terminal)
          job.config.sinks).mapFault .run >>= finish) fs := by
  rw [perform, Action.get_bind_apply, hsource]
  rfl

theorem perform_of_unloadable {source : String} {cause : GuestFault}
    (hsource : fs.readText job.sourcePath = .ok source)
    (hpipeline : ((job.config.pipeline engine fs : Action FileSystem _ _) fs).result =
      .error cause) :
    (job.perform engine terminal fs).result = .error (.run (.guest cause)) ∧
      (job.perform engine terminal fs).state = fs := by
  have hmapped := Action.mapFault_of_error
    (fun cause => CommandFault.run (.guest cause)) hpipeline
  rw [perform_of_readable terminal hsource,
    Action.bind_of_error _ (congrArg Ended.result hmapped), hmapped]
  exact ⟨rfl, (job.config.leaves_pipeline engine fs fs).symm⟩

/-- A job whose guest can be loaded ends as its run does, unless there is no artifact. -/
theorem perform_of_loaded {source : String} {pipeline : Pipeline σ}
    (hsource : fs.readText job.sourcePath = .ok source)
    (hpipeline : ((job.config.pipeline engine fs : Action FileSystem _ _) fs).result =
      .ok pipeline)
    {ended : Ended FileSystem RunFault RunReport}
    (hended : pipeline.run ⟨job.options, source⟩ (job.config.log terminal) job.config.sinks fs =
      ended) :
    (job.perform engine terminal fs).result =
        (match ended.result with
          | .ok report => if report.succeeded then .ok () else .error .noArtifact
          | .error fault => .error (.run fault)) ∧
      (job.perform engine terminal fs).state = ended.state := by
  have hmapped := Action.mapFault_of_ok (fun cause => CommandFault.run (.guest cause)) hpipeline
  -- loading leaves no trace, so that the run begins with the files as they were
  rw [perform_of_readable terminal hsource,
    Action.bind_of_ok _ (congrArg Ended.result hmapped), hmapped,
    ← job.config.leaves_pipeline engine fs fs, Ended.behind_result, Ended.behind_state]
  subst hended
  cases hresult : (pipeline.run ⟨job.options, source⟩ (job.config.log terminal)
      job.config.sinks fs).result with
  | error fault =>
      have hfailed := Action.mapFault_of_error CommandFault.run hresult
      rw [Action.bind_of_error _ (congrArg Ended.result hfailed), hfailed]
      exact ⟨rfl, rfl⟩
  | ok report =>
      have hreported := Action.mapFault_of_ok CommandFault.run hresult
      rw [Action.bind_of_ok _ (congrArg Ended.result hreported), hreported, Ended.behind_result,
        Ended.behind_state]
      exact finish_apply report _

end Job

/-! ## The program -/

namespace CommandRun

variable {σ : Type} {engine : Engine σ} {terminal : Surface} {invocation : Invocation}
  {fs : FileSystem}

/-- The program gets to ask for what goes to the log, and is not ended by the answer. -/
def FindsFilter (invocation : Invocation) (fs : FileSystem) : Prop :=
  ∀ job, Job.ofArguments fs invocation.arguments = .ok job →
    ∃ filter, LogFilter.choose invocation.logDirectives job.config.logLevel = .ok filter

/-- The courses that the program may take, with its status and the files that it leaves. -/
inductive Course (engine : Engine σ) (terminal : Surface) (invocation : Invocation)
    (fs : FileSystem) (run : CommandRun) : Prop where
  | misused (hfew : invocation.arguments.length < 2) (hfound : FindsFilter invocation fs)
      (hstatus : run.status = 2) (hfiles : run.files = fs)
  /-- The directives for the log end the program. -/
  | misdirected (hmisread : ¬FindsFilter invocation fs) (hstatus : run.status = 101)
      (hfiles : run.files = fs)
  /-- Something is missing that the run would need. -/
  | unprepared (hmany : 2 ≤ invocation.arguments.length) (hfound : FindsFilter invocation fs)
      (hnone : ∀ c : Prepared σ, ¬Asks engine fs invocation.arguments c) (hstatus : run.status = 1)
      (hfiles : run.files = fs)
  | ran (hfound : FindsFilter invocation fs) (c : Prepared σ)
      (hasks : Asks engine fs invocation.arguments c) (hstatus : run.status = c.status terminal fs)
      (hfiles : run.files = (c.ended terminal fs).state)

/-- What is left of a job whose directives end the program. -/
theorem run_of_misread (engine : Engine σ) (terminal : Surface) {job : Job}
    {misread : LogFilter.Misread} (hjob : Job.ofArguments fs invocation.arguments = .ok job)
    (hmisread : LogFilter.choose invocation.logDirectives job.config.logLevel = .error misread) :
    ofInvocation engine terminal invocation fs =
      ⟨101, [], CommandFault.logDirectives.words, fs⟩ := by
  rw [ofInvocation, hjob]
  simp only [hmisread]
  rfl

/-- What a job leaves that finds a filter. -/
theorem run_of_perform (engine : Engine σ) (terminal : Surface) {job : Job} {filter : LogFilter}
    (hjob : Job.ofArguments fs invocation.arguments = .ok job)
    (hfilter : LogFilter.choose invocation.logDirectives job.config.logLevel = .ok filter) :
    (ofInvocation engine terminal invocation fs).status =
        (match (job.perform engine terminal fs).result with
          | .ok () => 0
          | .error fault => fault.status) ∧
      (ofInvocation engine terminal invocation fs).files =
        (job.perform engine terminal fs).state := by
  cases hresult : (job.perform engine terminal fs).result with
  | ok _ =>
      have hrun : ofInvocation engine terminal invocation fs =
          ⟨0, visible filter (job.perform engine terminal fs).journal, "",
            (job.perform engine terminal fs).state⟩ := by
        rw [ofInvocation, hjob]
        simp only [hfilter, hresult]
      rw [hrun]
      exact ⟨rfl, rfl⟩
  | error fault =>
      have hrun : ofInvocation engine terminal invocation fs =
          ⟨fault.status, visible filter (job.perform engine terminal fs).journal, fault.words,
            (job.perform engine terminal fs).state⟩ := by
        rw [ofInvocation, hjob]
        simp only [hfilter, hresult]
      rw [hrun]
      exact ⟨rfl, rfl⟩

/-- A job that finds a filter runs, unless its source or its guest is missing. -/
theorem course_of_filter {configPath : String} (job : Job) {filter : LogFilter}
    (hconfig : Config.loadValid fs configPath = .ok job.config)
    (hfilter : LogFilter.choose invocation.logDirectives job.config.logLevel = .ok filter)
    (harguments : invocation.arguments = configPath :: job.sourcePath :: job.flags) :
    Course engine terminal invocation fs (ofInvocation engine terminal invocation fs) := by
  have hjob : Job.ofArguments fs invocation.arguments = .ok job := by
    rw [harguments, Job.ofArguments, hconfig]
  have hmany : 2 ≤ invocation.arguments.length := by
    rw [harguments]
    exact Nat.le_add_left 2 _
  have hfound : FindsFilter invocation fs := by
    intro other hother
    obtain rfl := Except.ok.inj (hjob.symm.trans hother)
    exact ⟨filter, hfilter⟩
  obtain ⟨hload, hvalid⟩ := Config.loadValid_eq_ok_iff.1 hconfig
  obtain ⟨hstatus, hfiles⟩ := run_of_perform engine terminal hjob hfilter
  cases hsource : fs.readText job.sourcePath with
  | error e =>
      rw [Job.perform_of_unreadable terminal hsource] at hstatus hfiles
      refine .unprepared hmany hfound ?_ hstatus hfiles
      intro c hasks
      rw [harguments] at hasks
      cases hasks with
      | intro _ _ _ hread _ => cases hsource.symm.trans hread
  | ok source =>
      cases hpipeline : ((job.config.pipeline engine fs : Action FileSystem _ _) fs).result with
      | error cause =>
          obtain ⟨hresult, hstate⟩ := Job.perform_of_unloadable terminal hsource hpipeline
          rw [hresult] at hstatus
          refine .unprepared hmany hfound ?_ hstatus (hfiles.trans hstate)
          intro c hasks
          rw [harguments] at hasks
          cases hasks with
          | intro _ hother _ _ hloaded =>
              have hsame := Config.loadValid_eq_ok_iff.2 ⟨hother, ‹_›⟩
              obtain rfl := Except.ok.inj (hconfig.symm.trans hsame)
              cases hpipeline.symm.trans hloaded
      | ok pipeline =>
          obtain ⟨hresult, hstate⟩ := Job.perform_of_loaded terminal hsource hpipeline rfl
          rw [hresult] at hstatus
          have hasks : Asks engine fs invocation.arguments
              ⟨job.config, job.options, source, pipeline⟩ := by
            rw [harguments]
            exact .intro job.flags hload hvalid hsource hpipeline
          refine .ran hfound _ hasks (hstatus.trans ?_) (hfiles.trans hstate)
          unfold Prepared.status Prepared.ended
          cases (pipeline.run ⟨job.options, source⟩ (job.config.log terminal) job.config.sinks
            fs).result with
          | error fault => rfl
          | ok report =>
              cases hsucceeded : report.succeeded with
              | false => simp [hsucceeded, CommandFault.status]
              | true => simp [hsucceeded]

/-- Arguments that come to no job end the program with what is wrong with them. -/
theorem run_of_fault (engine : Engine σ) (terminal : Surface) {fault : CommandFault}
    (hjob : Job.ofArguments fs invocation.arguments = .error fault) :
    ofInvocation engine terminal invocation fs = ⟨fault.status, [], fault.words, fs⟩ := by
  rw [ofInvocation, hjob]

theorem findsFilter_of_fault {fault : CommandFault}
    (hjob : Job.ofArguments fs invocation.arguments = .error fault) :
    FindsFilter invocation fs := by
  intro job hsome
  cases hjob.symm.trans hsome

theorem course_of_misused (hfew : invocation.arguments.length < 2)
    (hjob : Job.ofArguments fs invocation.arguments = .error .usage) :
    Course engine terminal invocation fs (ofInvocation engine terminal invocation fs) := by
  rw [run_of_fault engine terminal hjob]
  exact .misused hfew (findsFilter_of_fault hjob) rfl rfl

theorem course (engine : Engine σ) (terminal : Surface) (invocation : Invocation)
    (fs : FileSystem) :
    Course engine terminal invocation fs (ofInvocation engine terminal invocation fs) := by
  rcases harguments : invocation.arguments with _ | ⟨configPath, _ | ⟨sourcePath, flags⟩⟩
  · exact course_of_misused (by rw [harguments]; exact Nat.zero_lt_two) (by rw [harguments]; rfl)
  · exact course_of_misused (by rw [harguments]; exact Nat.one_lt_two) (by rw [harguments]; rfl)
  · cases hconfig : Config.loadValid fs configPath with
    | error cause =>
        have hjob : Job.ofArguments fs invocation.arguments = .error (.config cause) := by
          rw [harguments, Job.ofArguments, hconfig]
        have hnone : ∀ c : Prepared σ, ¬Asks engine fs invocation.arguments c := by
          intro c hasks
          rw [harguments] at hasks
          cases hasks with
          | intro _ hload hvalid _ _ =>
              cases hconfig.symm.trans (Config.loadValid_eq_ok_iff.2 ⟨hload, hvalid⟩)
        -- the directives are not read without a job, so that there is a filter in any case
        rw [run_of_fault engine terminal hjob]
        refine .unprepared ?_ (findsFilter_of_fault hjob) hnone rfl rfl
        rw [harguments]
        exact Nat.le_add_left 2 _
    | ok config =>
        have hjob : Job.ofArguments fs invocation.arguments =
            .ok ⟨config, sourcePath, flags⟩ := by
          rw [harguments, Job.ofArguments, hconfig]
        cases hfilter : LogFilter.choose invocation.logDirectives config.logLevel with
        | error misread =>
            refine .misdirected ?_ ?_ ?_
            · intro hfound
              obtain ⟨filter, hok⟩ := hfound _ hjob
              cases hfilter.symm.trans hok
            · rw [run_of_misread engine terminal hjob hfilter]
            · rw [run_of_misread engine terminal hjob hfilter]
        | ok filter => exact course_of_filter ⟨config, _, _⟩ hconfig hfilter harguments

/-- Exit status and files of the program go together. -/
structure Consistent (engine : Engine σ) (terminal : Surface) (invocation : Invocation)
    (fs : FileSystem) (run : CommandRun) : Prop where
  usage : run.status = 2 ↔ invocation.arguments.length < 2
  success : run.status = 0 ↔ ∃ c : Prepared σ, Asks engine fs invocation.arguments c ∧
    ∃ report, (c.ended terminal fs).result = .ok report ∧ report.succeeded
  /-- There is no status but these. -/
  otherwise : run.status ≠ 0 → run.status ≠ 2 → run.status = 1
  /-- An artifact that the program succeeded with was taken by every configured sink. -/
  accepted : run.status = 0 → ∀ c : Prepared σ, Asks engine fs invocation.arguments c →
    ∃ report bytes, (c.ended terminal fs).result = .ok report ∧ report.outcome = .payload bytes ∧
      Pipeline.firstRefusal c.pipeline.artifactName bytes c.config.sinks fs = none ∧
      report.delivered = c.config.sinks.map Sink.kind
  /-- What fails before a sink refuses does nothing to files. -/
  unchanged : run.status ≠ 0 →
    (∀ c : Prepared σ, Asks engine fs invocation.arguments c →
      ∀ sink cause, (c.ended terminal fs).result ≠ .error (.delivery sink cause)) →
    run.files = fs
  /-- Files are left as the run leaves them that was asked for, with its options. -/
  files : ∀ c : Prepared σ, Asks engine fs invocation.arguments c →
    run.files = (c.ended terminal fs).state

theorem consistent_of_none {run : CommandRun}
    (hnone : ∀ c : Prepared σ, ¬Asks engine fs invocation.arguments c)
    (hstatus : run.status = if invocation.arguments.length < 2 then 2 else 1)
    (hfiles : run.files = fs) : Consistent engine terminal invocation fs run where
  usage := by
    rw [hstatus]
    split
    · rename_i hfew
      exact iff_of_true rfl hfew
    · rename_i hmany
      exact iff_of_false (by decide) hmany
  success := by
    refine iff_of_false ?_ ?_
    · rw [hstatus]
      split
      · decide
      · decide
    · rintro ⟨c, hasks, _⟩
      exact hnone c hasks
  otherwise := by
    rw [hstatus]
    split
    · intro _ htwo
      exact absurd rfl htwo
    · intro _ _
      rfl
  accepted := by
    intro _ c hasks
    exact absurd hasks (hnone c)
  unchanged := fun _ _ => hfiles
  files := by
    intro c hasks
    exact absurd hasks (hnone c)

theorem consistent_of_ran {run : CommandRun} {c : Prepared σ}
    (hasks : Asks engine fs invocation.arguments c) (hstatus : run.status = c.status terminal fs)
    (hfiles : run.files = (c.ended terminal fs).state) :
    Consistent engine terminal invocation fs run where
  usage := by
    have hle := c.status_le_one terminal fs
    have hmany := hasks.two_le
    exact iff_of_false (by omega) (by omega)
  success := by
    rw [hstatus, Prepared.status_eq_zero_iff]
    constructor
    · intro hreport
      exact ⟨c, hasks, hreport⟩
    · rintro ⟨other, hother, hreport⟩
      obtain rfl := hasks.unique hother
      exact hreport
  otherwise := by
    have hle := c.status_le_one terminal fs
    omega
  accepted := by
    intro hzero other hother
    obtain rfl := hasks.unique hother
    obtain ⟨report, hreport, hsucceeded⟩ :=
      Prepared.status_eq_zero_iff.1 (hstatus.symm.trans hzero)
    obtain ⟨bytes, _, houtcome, hnone, hdelivered⟩ :=
      Pipeline.accepted_of_succeeded hreport hsucceeded
    exact ⟨report, bytes, hreport, houtcome, hnone, hdelivered⟩
  unchanged := by
    intro hnonzero hunrefused
    rw [hfiles]
    refine Pipeline.state_of_unrefused (hunrefused c hasks) ?_
    intro report hreport
    refine Bool.eq_false_iff.2 ?_
    intro hsucceeded
    exact hnonzero (hstatus.trans (Prepared.status_eq_zero_iff.2 ⟨report, hreport, hsucceeded⟩))
  files := by
    intro other hother
    obtain rfl := hasks.unique hother
    exact hfiles

/-- A program that is ended by the directives for its log has a status of its own. -/
theorem not_consistent_of_status {run : CommandRun} (hstatus : run.status = 101) :
    ¬Consistent engine terminal invocation fs run := by
  intro hconsistent
  have hone := hconsistent.otherwise (by omega) (by omega)
  omega

/-- For all inputs, exit status and files of the program go together exactly if the directives for
the log do not end it. -/
theorem consistent_iff (engine : Engine σ) (terminal : Surface) (invocation : Invocation)
    (fs : FileSystem) :
    Consistent engine terminal invocation fs (ofInvocation engine terminal invocation fs) ↔
      FindsFilter invocation fs := by
  cases course engine terminal invocation fs with
  | misused hfew hfound hstatus hfiles =>
      refine iff_of_true (consistent_of_none ?_ (by rw [hstatus, if_pos hfew]) hfiles) hfound
      intro c hasks
      have hmany := hasks.two_le
      omega
  | misdirected hmisread hstatus hfiles =>
      exact iff_of_false (not_consistent_of_status hstatus) hmisread
  | unprepared hmany hfound hnone hstatus hfiles =>
      have hnot : ¬invocation.arguments.length < 2 := by omega
      exact iff_of_true (consistent_of_none hnone (by rw [hstatus, if_neg hnot]) hfiles) hfound
  | ran hfound c hasks hstatus hfiles =>
      exact iff_of_true (consistent_of_ran hasks hstatus hfiles) hfound

/-- A configuration whose only directive is cut inside of the blank before it. -/
def misdirectedText : String := "guest: {module: t.wasm}\nlog_level: \"\\u3000[x]=warn\"\n"

/-- A configuration and a source, in the working directory. -/
def misdirectedFiles : FileSystem where
  nodes := [(["c.yaml"], .file misdirectedText.toUTF8), (["a.c"], .file "int x;".toUTF8)]
  workingDirectory := []

theorem not_consistent_misdirected :
    (Config.loadValid misdirectedFiles "c.yaml").toOption.map Config.logLevel =
        some "\u3000[x]=warn" ∧
      LogFilter.choose none "\u3000[x]=warn" = .error .splitCharacter ∧
      ¬Consistent Engine.standard ⟨0, none⟩ ⟨["c.yaml", "a.c"], none⟩ misdirectedFiles
        (ofInvocation Engine.standard ⟨0, none⟩ ⟨["c.yaml", "a.c"], none⟩ misdirectedFiles) := by
  have hlevel : (Config.loadValid misdirectedFiles "c.yaml").toOption.map Config.logLevel =
      some "\u3000[x]=warn" := by decide +kernel
  have hmisread : LogFilter.choose none "\u3000[x]=warn" = .error .splitCharacter := by
    with_unfolding_all rfl
  refine ⟨hlevel, hmisread, not_consistent_of_status ?_⟩
  cases hconfig : Config.loadValid misdirectedFiles "c.yaml" with
  | error cause =>
      rw [hconfig] at hlevel
      cases hlevel
  | ok config =>
      have hjob : Job.ofArguments misdirectedFiles ["c.yaml", "a.c"] = .ok ⟨config, "a.c", []⟩ := by
        rw [Job.ofArguments, hconfig]
      rw [hconfig] at hlevel
      rw [← Option.some.inj hlevel] at hmisread
      rw [run_of_misread _ _ hjob hmisread]

end CommandRun

end CompilerHost
