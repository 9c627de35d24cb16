import CompilerHost.Proofs.EntryForms
import CompilerHost.Proofs.Reporting

/-! # Inputs that are not taken

An entry point may take fewer inputs than a request has. What it does not take makes no difference:
of two requests with the same inputs among those that are taken, the runs have the same course, the
guest has the same turns in them, and all that tells them apart is what the operator is told of the
inputs themselves.

* `Pipeline.compileIn_eq`: up to what is said of the inputs, a compile depends on those that are
  taken;
* `Pipeline.tells_conclude`: behind the compile nothing is said of inputs, unless by a sink;
* `Pipeline.run_ignoring`: two runs that differ in what is not taken.
-/

namespace CompilerHost

open CompilerHost.Action (Tells OfExchange)

/-- The events in which it shows what the inputs are, or how they are taken. -/
def Event.showsInputs : Event → Bool
  | .compileStarted .. | .entryResolved .. | .inputsIgnored .. => true
  | _ => false

theorem Event.showsInputs_of_isOfExchange {e : Event} (h : e.isOfExchange) :
    e.showsInputs = false := by
  cases e <;> first | rfl | cases h

/-- It shows nowhere in a journal what the inputs are, or how they are taken. -/
abbrev Journal.HidesInputs (j : Journal) : Prop := j.All fun e => e.showsInputs = false

theorem Journal.OfExchange.hidesInputs {j : Journal} (h : j.OfExchange) : j.HidesInputs :=
  h.mono fun _ => Event.showsInputs_of_isOfExchange

/-! ## Handing over -/

namespace Watched

variable {σ : Type}

/-- What is handed over are the texts that are taken. -/
theorem handOver_eq {form : EntryForm} {r r' : Request} (f : Function σ)
    (htexts : form.texts r.options r.source = form.texts r'.options r'.source) :
    handOver form f r.options r.source = handOver form f r'.options r'.source := by
  cases form with
  | noInputs => rfl
  | source =>
      have hsource : r.source = r'.source := List.head_eq_of_cons_eq htexts
      simp only [handOver, hsource]
  | optionsAndSource =>
      have hjson : r.options.json = r'.options.json := List.head_eq_of_cons_eq htexts
      have hsource : r.source = r'.source :=
        List.head_eq_of_cons_eq (List.tail_eq_of_cons_eq htexts)
      simp only [handOver, prepareInputs, hjson, hsource]

theorem exchanges_handOver (form : EntryForm) (f : Function σ) (options : Options)
    (source : String) : OfExchange (handOver form f options source).action := by
  have henter : ∀ args, OfExchange (enter f args).action := by
    intro args
    rw [action_enter]
    exact Session.exchanges_enter f args
  cases form with
  | noInputs => exact henter []
  | source =>
      refine .bind ?_ fun text => henter _
      rw [action_encode]
      exact Session.exchanges_encode source
  | optionsAndSource =>
      refine .bind ?_ fun texts => henter _
      rw [action_prepareInputs]
      exact Session.exchanges_prepareInputs options source

end Watched

namespace Pipeline

variable {σ ω : Type} {p : Pipeline σ} {form : EntryForm} {entry : Function σ} {s : Session σ}
  {r r' : Request} {log : Log}

/-- Copies the image into the guest, if there is one. -/
def prepareImage (p : Pipeline σ) : Action (Session σ) GuestFault Unit :=
  match p.image with
  | some image => Session.loadFilesystem image >>= fun _ => pure ()
  | none => pure ()

/-- What a compile does once the operator knows how inputs are taken. -/
def serve (form : EntryForm) (entry : Function σ) (request : Request) :
    Action (Session σ) GuestFault Outcome :=
  (Watched.handOver form entry request.options request.source).action >>= Session.reportReturn >>=
    Session.outcomeAt

/-- What the operator is told of the inputs. -/
def wordOnInputs (form : EntryForm) (request : Request) : Journal :=
  .event (.entryResolved form) :: form.warning request.options request.source

theorem guest_prepareImage (p : Pipeline σ) (s : Session σ) :
    (p.prepareImage s).state.guest = s.guest := by
  unfold prepareImage
  cases p.image with
  | none => rfl
  | some image =>
      have hload := (Watched.heard_loadFilesystem image s).guest
      rw [Watched.action_loadFilesystem] at hload
      cases hresult : (Session.loadFilesystem image s).result with
      | error cause =>
          simp only [Action.bind_of_error _ hresult]
          exact hload
      | ok region =>
          simp only [Action.bind_of_ok _ hresult]
          exact hload

theorem exchanges_prepareImage (p : Pipeline σ) : OfExchange p.prepareImage := by
  unfold prepareImage
  cases p.image with
  | none => exact .pure ()
  | some image => exact .bind (Session.exchanges_loadFilesystem image) fun _ => .pure ()

theorem exchanges_serve (form : EntryForm) (entry : Function σ) (request : Request) :
    OfExchange (serve form entry request) :=
  .bind (.bind (Watched.exchanges_handOver _ _ _ _) Session.exchanges_reportReturn)
    Session.exchanges_outcomeAt

theorem compileIn_eq (p : Pipeline σ) (request : Request) :
    p.compileIn request =
      p.prepareImage >>= fun _ =>
        Session.compile request.options request.source >>= Session.outcomeAt := by
  unfold compileIn prepareImage
  cases p.image with
  | none => rfl
  | some image => simp only [bind_assoc, pure_bind]

/-- An image that does not go in is the end of a compile, whatever the request. -/
theorem compileIn_of_unprepared {cause : GuestFault} (h : (p.prepareImage s).result = .error cause)
    (request : Request) :
    p.compileIn request s =
      ⟨.error cause, (p.prepareImage s).state, (p.prepareImage s).journal⟩ := by
  rw [compileIn_eq, Action.bind_of_error _ h]

theorem function?_of_prepared (hentry : s.guest.function? compileExport = some entry) :
    (p.prepareImage s).state.guest.function? compileExport = some entry := by
  rw [guest_prepareImage, hentry]

/-- A compile with its image in place says how it takes its inputs and serves the request. -/
theorem compileIn_of_prepared (hentry : s.guest.function? compileExport = some entry)
    (hform : Session.formOf? entry = .ok form) (h : (p.prepareImage s).result = .ok ())
    (request : Request) :
    p.compileIn request s =
      (serve form entry request (p.prepareImage s).state).behind
        ((p.prepareImage s).journal ++ wordOnInputs form request) := by
  have hcompile := (Session.compile_of_resolved (function?_of_prepared (p := p) hentry) hform
    request.options request.source).1
  rw [compileIn_eq, Action.bind_of_ok _ h, Action.bind_of_behind Session.outcomeAt hcompile,
    Ended.behind_behind]
  rfl

/-- The guest has the same turns, whatever is not taken. -/
theorem turns_compileIn (hentry : s.guest.function? compileExport = some entry)
    (hform : Session.formOf? entry = .ok form)
    (htexts : form.texts r.options r.source = form.texts r'.options r'.source) :
    (Watched.compileIn p r).turns s = (Watched.compileIn p r').turns s := by
  have hcompile : ∀ s' : Session σ, s'.guest.function? compileExport = some entry →
      (Watched.compile r.options r.source).turns s' =
        (Watched.compile r'.options r'.source).turns s' := by
    intro s' hentry'
    rw [(Session.compile_of_resolved hentry' hform r.options r.source).2,
      (Session.compile_of_resolved hentry' hform r'.options r'.source).2,
      Watched.handOver_eq entry htexts]
  have hfor : ∀ request : Request, (Watched.compileIn p request).turns s =
      (Watched.compileFor p request).turns s := fun request => Watched.turns_bind_alone _ _ s
  rw [hfor, hfor]
  unfold Watched.compileFor
  cases himage : p.image with
  | none => exact hcompile s hentry
  | some image =>
      have hguest := (Watched.heard_loadFilesystem image s).guest
      cases hload : ((Watched.loadFilesystem image).action s).result with
      | error cause =>
          simp only
          rw [Watched.turns_bind_of_error _ hload, Watched.turns_bind_of_error _ hload]
      | ok region =>
          simp only
          rw [Watched.turns_bind_of_ok _ hload, Watched.turns_bind_of_ok _ hload]
          rw [hcompile _ (by rw [hguest, hentry])]

/-! ## Behind the compile -/

/-- An event that a sink reports of some delivery. -/
def IsOfSink (sinks : List (Sink ω)) (e : Event) : Prop :=
  ∃ sink ∈ sinks, ∃ name bytes world, e ∈ (sink.deliver name bytes world).journal.events

/-- What the run reports of a delivery stands between the words of its sinks. The induction is on
the sinks. -/
theorem tells_deliver {P : Event → Prop} (hP : ∀ e, e.showsInputs = false → P e) (name : String)
    (bytes : ByteArray) (sinks : List (Sink ω))
    (hsinks : ∀ sink ∈ sinks, Tells P (sink.deliver name bytes)) :
    Tells P (deliver name bytes sinks) := by
  induction sinks with
  | nil => exact .pure _
  | cons sink rest ih =>
      have hsink := hsinks sink List.mem_cons_self
      have hrest := ih fun other hother => hsinks other (List.mem_cons_of_mem sink hother)
      rw [deliver]
      refine .bind (.attempt hsink) fun answer => ?_
      cases answer with
      | error cause => exact .bind (.emit _ (hP _ rfl)) fun _ => .throw _
      | ok _ => exact .bind (.emit _ (hP _ rfl)) fun _ => .bind hrest fun _ => .pure _

/-- What is concluded says nothing of inputs, unless a sink does. -/
theorem tells_conclude (p : Pipeline σ) (outcome : Outcome) (session : Session σ)
    (sinks : List (Sink ω)) :
    Tells (fun e => e.showsInputs = false ∨ IsOfSink sinks e)
      (p.conclude outcome session sinks) := by
  cases outcome with
  | noPayload declaredLength =>
      refine .bind (.emit _ (.inl rfl)) fun _ => ?_
      exact .ite (.pure _) (.bind (.emit _ (.inl rfl)) fun _ => .pure _)
  | payload bytes =>
      have hdeliver := tells_deliver (P := fun e => e.showsInputs = false ∨ IsOfSink sinks e)
        (fun _ => .inl) p.artifactName bytes sinks
        fun sink hsink world e he => .inr ⟨sink, hsink, p.artifactName, bytes, world, he⟩
      refine .bind (.emit _ (.inl rfl)) fun _ => ?_
      exact .ite (.bind hdeliver fun _ => .pure _)
        (.bind (.emit _ (.inl rfl)) fun _ => .bind hdeliver fun _ => .pure _)

theorem hidesInputs_abort (log : Log) (cause : GuestFault) (world : ω) :
    (abort log cause world).journal.HidesInputs := by
  rw [abort_eq]
  have hblocks := exchanges_blocksReports log.surface (Speech.brokenOff log.pending [])
  exact (Journal.OfExchange.hidesInputs hblocks).append (.event rfl)

end Pipeline

/-! ## Memories -/

section Memories

variable {σ : Type}

/-- The guest as it is when its turn begins. -/
def Turn.live : Turn σ → Instance σ
  | .function _ _ live => live
  | .host _ live => live

/-- The calls that a guest makes in a turn. The first that fails is the last. -/
def Turn.made (g : Guest σ) (t : Turn σ) : List (HostCall × Instance σ) :=
  t.calls.take ((g.spoken t.calls).length + 1)

/-- The memory at the end of a turn, if the guest gets to the end. -/
def Turn.memoryAtEnd (g : Guest σ) : Turn σ → List Memory
  | .host _ _ => []
  | .function f args live =>
    let execution := f.run args live
    if live.fuel ≤ Session.entryFuel then []
    else if (g.spoken execution.calls).length < execution.calls.length then []
    else [execution.final.memory]

/-- The memories of a guest in a turn: at its beginning, at each call, and at its end. -/
def Turn.memories (g : Guest σ) (t : Turn σ) : List Memory :=
  t.live.memory :: ((t.made g).map (·.2.memory) ++ t.memoryAtEnd g)

/-- The memories of the guest in a run: those of its turns, which show what the host has written by
then, and the one that it has in the end. -/
def Pipeline.memories (p : Pipeline σ) (request : Request) (log : Log) : List Memory :=
  (p.turns request log).flatMap (Turn.memories p.loaded.guest) ++
    match (p.loaded.instantiate log ()).result with
    | .error _ => []
    | .ok session => [(p.compileIn request session).state.live.memory]

end Memories

/-! ## Two runs -/

namespace Pipeline

variable {σ ω : Type} {p : Pipeline σ} {form : EntryForm} {entry : Function σ} {s : Session σ}
  {r r' : Request} {log : Log}

/-- Two journals are the same but for what is said of the inputs: which ones there are, when the run
starts, and which ones are left over, when it is known how they are taken. -/
inductive ApartInInputs (form : EntryForm) (sinks : List (Sink ω)) (r r' : Request) :
    Journal → Journal → Prop where
  /-- The run ends before it is known how inputs are taken. -/
  | unresolved {rest : Journal} (hrest : rest.HidesInputs) :
      ApartInInputs form sinks r r' (.event (started r) :: rest) (.event (started r') :: rest)
  /-- It is known how they are taken, and what is left over is said at once. -/
  | resolved {before after : Journal} (hbefore : before.HidesInputs)
      (hafter : after.All fun e => e.showsInputs = false ∨ IsOfSink sinks e) :
      ApartInInputs form sinks r r'
        (.event (started r) :: (before ++ (wordOnInputs form r ++ after)))
        (.event (started r') :: (before ++ (wordOnInputs form r' ++ after)))

/-- Two runs are the same to the guest and to the sinks, and say the same but of the inputs. -/
structure Alike (p : Pipeline σ) (form : EntryForm) (r r' : Request) (log : Log)
    (sinks : List (Sink ω)) (world : ω) : Prop where
  result : (p.run r log sinks world).result = (p.run r' log sinks world).result
  state : (p.run r log sinks world).state = (p.run r' log sinks world).state
  turns : p.turns r log = p.turns r' log
  memories : p.memories r log = p.memories r' log
  journal : ApartInInputs form sinks r r' (p.run r log sinks world).journal
    (p.run r' log sinks world).journal

/-- How two requests are compiled: both fail at the image, or both are served as one. -/
inductive CompiledAlike (p : Pipeline σ) (form : EntryForm) (r r' : Request) (s : Session σ) :
    Prop where
  | unprepared (e : Ended (Session σ) GuestFault Outcome) (cause : GuestFault)
      (hfailed : e.result = .error cause) (hexchange : e.journal.OfExchange)
      (h : p.compileIn r s = e) (h' : p.compileIn r' s = e)
  | served (e : Ended (Session σ) GuestFault Outcome) (before : Journal)
      (hbefore : before.OfExchange) (hexchange : e.journal.OfExchange)
      (h : p.compileIn r s = e.behind (before ++ wordOnInputs form r))
      (h' : p.compileIn r' s = e.behind (before ++ wordOnInputs form r'))

theorem compiledAlike (hentry : s.guest.function? compileExport = some entry)
    (hform : Session.formOf? entry = .ok form)
    (htexts : form.texts r.options r.source = form.texts r'.options r'.source) :
    p.CompiledAlike form r r' s := by
  have hprepared := p.exchanges_prepareImage s
  cases h : (p.prepareImage s).result with
  | error cause =>
      exact .unprepared _ cause rfl hprepared (compileIn_of_unprepared h r)
        (compileIn_of_unprepared h r')
  | ok _ =>
      have hserve : serve form entry r' = serve form entry r := by
        rw [serve, serve, Watched.handOver_eq entry htexts]
      have hserved := compileIn_of_prepared hentry hform h r'
      rw [hserve] at hserved
      exact .served _ _ hprepared (exchanges_serve form entry r _)
        (compileIn_of_prepared hentry hform h r) hserved

theorem CompiledAlike.same (h : p.CompiledAlike form r r' s) :
    (p.compileIn r s).result = (p.compileIn r' s).result ∧
      (p.compileIn r s).state = (p.compileIn r' s).state := by
  cases h with
  | unprepared e _ _ _ h h' =>
      rw [h, h']
      exact ⟨rfl, rfl⟩
  | served e _ _ _ h h' =>
      rw [h, h']
      exact ⟨rfl, rfl⟩

/-- What a run does once its guest is done, or has failed. -/
def close (p : Pipeline σ) (compiled : Ended (Session σ) GuestFault Outcome)
    (sinks : List (Sink ω)) : Action ω RunFault RunReport :=
  match compiled.result with
  | .error cause => abort compiled.state.log cause
  | .ok outcome => p.conclude outcome compiled.state sinks

theorem tells_close (p : Pipeline σ) (compiled : Ended (Session σ) GuestFault Outcome)
    (sinks : List (Sink ω)) :
    Tells (fun e => e.showsInputs = false ∨ IsOfSink sinks e) (p.close compiled sinks) := by
  unfold close
  split
  · exact fun world => (hidesInputs_abort _ _ world).mono fun _ => .inl
  · exact p.tells_conclude _ _ sinks

/-- Runs whose compiles are alike are alike in what they report. -/
theorem apartInInputs_of_compiledAlike (h : p.CompiledAlike form r r' s) {opening : Journal}
    (hopening : opening.HidesInputs) (sinks : List (Sink ω)) (world : ω) :
    ApartInInputs form sinks r r'
      (.event (started r) ::
        (opening ++ ((p.compileIn r s).journal ++ (p.close (p.compileIn r s) sinks world).journal)))
      (.event (started r') ::
        (opening ++
          ((p.compileIn r' s).journal ++ (p.close (p.compileIn r' s) sinks world).journal))) := by
  cases h with
  | unprepared e cause hfailed hexchange h h' =>
      have hclose : p.close e sinks = abort e.state.log cause := by rw [close, hfailed]
      rw [h, h', hclose]
      have hclosing := hidesInputs_abort e.state.log cause world
      exact .unresolved (hopening.append (hexchange.hidesInputs.append hclosing))
  | served e before hbefore hexchange h h' =>
      have hclose : ∀ j, p.close (e.behind j) sinks = p.close e sinks := fun _ => rfl
      have hafter : (e.journal ++ (p.close e sinks world).journal).All
          fun e => e.showsInputs = false ∨ IsOfSink sinks e :=
        (hexchange.hidesInputs.mono fun _ => .inl).append (p.tells_close e sinks world)
      have hparts : ∀ word : Journal,
          opening ++ ((e.behind (before ++ word)).journal ++
            (p.close (e.behind (before ++ word)) sinks world).journal) =
          (opening ++ before) ++ (word ++ (e.journal ++ (p.close e sinks world).journal)) := by
        intro word
        rw [hclose, Ended.behind_journal]
        simp only [List.append_assoc]
      rw [h, h', hparts, hparts]
      exact .resolved (hopening.append hbefore.hidesInputs) hafter

/-- Inputs that are not taken make no difference. Two requests whose texts are the same as far as
the entry point takes them, so the source where it has one parameter and any two where it has none,
have runs that are alike: the guest and the sinks cannot tell them apart, and the operator can only
by the word on the start and by the one on what is left over. -/
theorem run_ignoring (hentry : p.loaded.guest.function? compileExport = some entry)
    (hform : Session.formOf? entry = .ok form)
    (htexts : form.texts r.options r.source = form.texts r'.options r'.source) (log : Log)
    (sinks : List (Sink ω)) (world : ω) : p.Alike form r r' log sinks world := by
  cases hopen : (p.loaded.instantiate log ()).result with
  | error cause =>
      have hrun := run_eq_of_not_opened r sinks world hopen
      have hrun' := run_eq_of_not_opened r' sinks world hopen
      have hopening := Journal.OfExchange.hidesInputs (p.loaded.exchanges_instantiate log ())
      have hturns : p.turns r log = p.turns r' log := by simp only [turns, hopen]
      refine ⟨by rw [hrun, hrun'], by rw [hrun, hrun'], hturns, ?_, ?_⟩
      · simp only [memories, hturns, hopen]
      · rw [hrun, hrun']
        exact .unresolved hopening
  | ok session =>
      have hopening := Journal.OfExchange.hidesInputs (p.loaded.exchanges_instantiate log ())
      have hguest := (p.loaded.opens_instantiate log).guest session hopen
      have hknown : session.guest.function? compileExport = some entry := by rw [hguest, hentry]
      have halike := compiledAlike (p := p) hknown hform htexts
      have hturns : p.turns r log = p.turns r' log := by
        rw [turns_of_opened r hopen, turns_of_opened r' hopen, turns_compileIn hknown hform htexts]
      have hrun : ∀ request, p.run request log sinks world =
          (p.close (p.compileIn request session) sinks world).behind
            (p.prologue request log session) :=
        fun request => run_eq_of_opened request sinks world hopen
      obtain ⟨hresult, hstate⟩ := halike.same
      have hclose :
          p.close (p.compileIn r session) sinks = p.close (p.compileIn r' session) sinks := by
        rw [close, close, hresult, hstate]
      refine ⟨?_, ?_, hturns, ?_, ?_⟩
      · rw [hrun, hrun, hclose]
        rfl
      · rw [hrun, hrun, hclose]
        rfl
      · simp only [memories, hturns, hopen, hstate]
      · have happart := apartInInputs_of_compiledAlike halike hopening sinks world
        rw [hrun, hrun, Ended.behind_journal, Ended.behind_journal, prologue, prologue]
        simp only [List.cons_append, List.append_assoc]
        exact happart

/-- A pipeline whose guest takes a source, and gives back what it is told to. -/
def sourceOnly : Pipeline Unit :=
  .ofLoaded
    { guest :=
        { imports := []
          exports :=
            [(Guest.memoryExport, .memory),
              (Guest.allocatorExport,
                .function ⟨Guest.allocatorType, fun _ live => ⟨[], .ok 64, live⟩⟩),
              (compileExport,
                .function ⟨entryType 1, fun args live => ⟨[], .ok (args.headD 0), live⟩⟩)]
          memory := .zeros 1 1
          globals := .ok ()
          data := []
          start := none }
      fuel := 100 }

theorem run_ignoring_flags :
    let r : Request := ⟨.none, "x"⟩
    let r' : Request := ⟨Options.ofEntries ["-c"], "x"⟩
    ∃ entry, sourceOnly.loaded.guest.function? compileExport = some entry ∧
      Session.formOf? entry = .ok .source ∧
      EntryForm.source.texts r.options r.source = EntryForm.source.texts r'.options r'.source ∧
      EntryForm.source.warning r.options r.source = [] ∧
      EntryForm.source.warning r'.options r'.source = [.event (.inputsIgnored .source "options")] ∧
      sourceOnly.Alike .source r r' (.fresh none) ([] : List (Sink Unit)) () := by
  intro r r'
  have hwarning : EntryForm.source.warning r'.options r'.source =
      [.event (.inputsIgnored .source "options")] := by with_unfolding_all rfl
  have htexts : EntryForm.source.texts r.options r.source =
      EntryForm.source.texts r'.options r'.source := rfl
  exact ⟨_, rfl, rfl, htexts, rfl, hwarning, run_ignoring rfl rfl htexts (.fresh none) [] ()⟩

end Pipeline

end CompilerHost
