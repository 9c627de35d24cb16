import CompilerHost.Proofs.Attaching
import CompilerHost.Proofs.Framing
import CompilerHost.Proofs.HostCalls

/-! # Guests that cannot use the log

What a guest has in its log came there through what it imports: completed blocks through the
function that completes blocks, and text through the one that writes. Whether a guest uses the log
is told by the first of these alone. A guest without it completes no blocks, but it can still write.

* `Utterance.asked`, `Log.Within`: through what the parts of a log come;
* `Watched.Owned`: in what is done with a session, all turns are those of the guest's own functions;
* `Session.Confined.perform`, `Session.Confined.performAll`: what one operation preserves, and what
  a sequence of them does;
* `Binary.staysSilent_iff`: of the binaries that are told not to use the log, those and only those
  are sure to leave it empty that do not import the function that writes either.
-/

namespace CompilerHost

/-! ## Ways into the log -/

/-- The module and the name of the import through which something is said. -/
def Utterance.asked : Utterance → String × String
  | .words _ => (hostModule, logWriteImport)
  | .blockEnd => (hostModule, logFlushImport)

/-- Something is in the log only if it can have come there through one of the imports. -/
structure Log.Within (imports : List (String × String)) (log : Log) : Prop where
  pending : (hostModule, logWriteImport) ∉ imports → log.pending = ""
  transcript : (hostModule, logFlushImport) ∉ imports → log.transcript = []

theorem HostCall.asked_of_utterance? {σ : Type} {g : Guest σ} {live : Instance σ}
    {call : HostCall} {u : Utterance} (h : call.utterance? g live = some u) :
    u.asked = call.asked := by
  cases call with
  | flush =>
      obtain rfl := Option.some.inj h
      rfl
  | write start length =>
      simp only [utterance?] at h
      split at h
      · split at h
        · obtain rfl := Option.some.inj h
          rfl
        · cases h
      · cases h

/-- All that a guest says it says by its calls. -/
theorem Guest.asked_of_spoken {σ : Type} {g : Guest σ} {calls : List (HostCall × Instance σ)}
    {u : Utterance} (h : u ∈ g.spoken calls) : ∃ c ∈ calls, u.asked = c.1.asked := by
  induction calls with
  | nil => cases h
  | cons c calls ih =>
      obtain ⟨call, live⟩ := c
      unfold spoken at h
      split at h
      · rename_i u' hu
        rcases List.mem_cons.1 h with rfl | hrest
        · exact ⟨_, List.mem_cons_self, HostCall.asked_of_utterance? hu⟩
        · obtain ⟨c, hc, hasked⟩ := ih hrest
          exact ⟨c, List.mem_cons_of_mem _ hc, hasked⟩
      · cases h

/-- The log gets from a speech only what can come through the imports. -/
theorem Log.Within.heard {imports : List (String × String)} {log : Log} (h : log.Within imports)
    {speech : List Utterance} (hspeech : ∀ u ∈ speech, u.asked ∈ imports) :
    (log.heard speech).Within imports := by
  induction speech generalizing log with
  | nil =>
      rw [heard_nil]
      exact h
  | cons u rest ih =>
      rw [List.forall_mem_cons] at hspeech
      obtain ⟨hu, hrest⟩ := hspeech
      have hsplit : log.heard (u :: rest) = (log.heard [u]).heard rest := log.heard_append [u] rest
      rw [hsplit]
      refine ih ?_ hrest
      cases u with
      | words text =>
          rw [heard_words]
          exact ⟨fun hnone => absurd hu hnone, h.transcript⟩
      | blockEnd =>
          rw [heard_blockEnd]
          exact ⟨fun _ => rfl, fun hnone => absurd hu hnone⟩

/-! ## Turns of the guest's own -/

/-- A turn is one of an exported function, or of what the guest starts with. -/
def Guest.Has {σ : Type} (g : Guest σ) : Turn σ → Prop
  | .function f _ _ => g.HasFunction f
  | .host call _ => g.start = some (.host call)

theorem Guest.export?_of_function? {σ : Type} {g : Guest σ} {name : String} {f : Function σ}
    (h : g.function? name = some f) : g.export? name = some (.function f) := by
  unfold function? at h
  split at h
  · rename_i found hexport
    obtain rfl := Option.some.inj h
    exact hexport
  · cases h

/-- A guest that calls what it imports says nothing but by these. -/
theorem Guest.CallsImports.asked_of_speech {σ : Type} {g : Guest σ} (h : g.CallsImports)
    {turns : List (Turn σ)} (hturns : ∀ t ∈ turns, g.Has t) :
    ∀ u ∈ g.speech turns, u.asked ∈ g.manifest.imports := by
  intro u hu
  obtain ⟨t, ht, hsaid⟩ := List.mem_flatMap.1 hu
  obtain ⟨c, hc, hasked⟩ := asked_of_spoken hsaid
  rw [hasked]
  have hown := hturns t ht
  cases t with
  | function f args live =>
      simp only [Turn.calls] at hc
      split at hc
      · cases hc
      · exact h.functions f hown args live c hc
  | host call live =>
      obtain rfl := List.mem_singleton.1 hc
      exact h.host call hown

namespace Watched

variable {σ α β : Type} {g : Guest σ}

/-- All turns in a watched action are the guest's own. -/
def Owned (g : Guest σ) (x : Watched σ α) : Prop :=
  ∀ s : Session σ, s.guest = g → ∀ t ∈ x.turns s, g.Has t

theorem Owned.alone (x : Action (Session σ) GuestFault α) : Owned g (alone x) :=
  fun _ _ _ ht => absurd ht List.not_mem_nil

theorem Owned.call {f : Function σ} {name : String} (h : g.export? name = some (.function f))
    (args : List UInt32) : Owned g (call f args) := by
  intro s _ t ht
  obtain rfl := List.mem_singleton.1 ht
  exact .exported name (Guest.mem_exports_of_export? h)

/-- The guest is the same in the second part, which may use what the first has found out. -/
theorem Owned.bind {x : Watched σ α} {f : α → Watched σ β} (hheard : x.Heard) (hx : Owned g x)
    (hf : ∀ s a, s.guest = g → (x.action s).result = .ok a → Owned g (f a)) :
    Owned g (x >>= f) := by
  intro s hs t ht
  cases hresult : (x.action s).result with
  | error e =>
      rw [turns_bind_of_error f hresult] at ht
      exact hx s hs t ht
  | ok a =>
      rw [turns_bind_of_ok f hresult] at ht
      rcases List.mem_append.1 ht with hfirst | hrest
      · exact hx s hs t hfirst
      · exact hf s a hs hresult _ ((hheard s).guest.trans hs) t hrest

theorem Owned.ite {c : Prop} [Decidable c] {x y : Watched σ α} (hx : Owned g x)
    (hy : Owned g y) : Owned g (if c then x else y) := by
  split
  · exact hx
  · exact hy

theorem owned_allocate (name : String) (size : UInt32) : Owned g (allocate name size) := by
  intro s hs t ht
  rw [turns_allocate, hs] at ht
  cases hallocator : g.allocator? name with
  | error cause =>
      rw [hallocator] at ht
      cases ht
  | ok f =>
      rw [hallocator] at ht
      simp only at ht
      split at ht
      · obtain rfl := List.mem_singleton.1 ht
        exact .exported name
          (Guest.mem_exports_of_export? (Guest.allocator?_ok_iff.1 hallocator).1)
      · cases ht

theorem owned_place (allocator : String) (data : ByteArray) (length : Nat) :
    Owned g (place allocator data length) :=
  .ite (.bind (heard_allocate _ _) (owned_allocate _ _) fun _ _ _ _ => .alone _) (.alone _)

theorem owned_encode (text : String) : Owned g (encode text) :=
  .bind (heard_place _ _ _) (owned_place _ _ _) fun _ _ _ _ => .alone _

theorem owned_loadFilesystem (image : ByteArray) : Owned g (loadFilesystem image) :=
  .bind (heard_place _ _ _) (owned_place _ _ _) fun _ _ _ _ => .alone _

theorem owned_prepareInputs (options : Options) (source : String) :
    Owned g (prepareInputs options source) := by
  refine .bind (heard_encode _) (owned_encode _) fun _ _ _ _ => ?_
  exact .bind (heard_encode _) (owned_encode _) fun _ _ _ _ => .alone _

theorem owned_enter {f : Function σ} {name : String} (h : g.export? name = some (.function f))
    (args : List Address) : Owned g (enter f args) :=
  .ite (.alone _) (.ite (.alone _) (.call h _))

theorem owned_enterWith (form : EntryForm) {f : Function σ} {name : String}
    (h : g.export? name = some (.function f)) (options : Options) (source : String) :
    Owned g (enterWith form f options source) := by
  cases form with
  | noInputs =>
      refine .bind (.alone (.ite (.pure _) (.emit _ rfl))) (.alone _) fun _ _ _ _ => ?_
      exact owned_enter h []
  | source =>
      refine .bind (.alone (.ite (.pure _) (.emit _ rfl))) (.alone _) fun _ _ _ _ => ?_
      exact .bind (heard_encode _) (owned_encode _) fun _ _ _ _ => owned_enter h _
  | optionsAndSource =>
      exact .bind (heard_prepareInputs _ _) (owned_prepareInputs _ _) fun _ _ _ _ => owned_enter h _

/-- The entry point that is called is the one that was looked up. -/
theorem owned_compile (options : Options) (source : String) :
    Owned g (compile options source) := by
  refine .bind (.alone Session.silent_entryForm) (.alone _) fun _ form _ _ => ?_
  refine .bind (.alone (.emit _ rfl)) (.alone _) fun _ _ _ _ => ?_
  refine .bind (.alone Session.silent_entryPoint) (.alone _) fun s f hs hf => ?_
  have hexport := Guest.export?_of_function? (function?_of_entryPoint hf)
  rw [hs] at hexport
  refine .bind (heard_enterWith _ _ _ _) (owned_enterWith form hexport _ _) fun _ _ _ _ => ?_
  exact .alone _

/-- What a guest that calls what it imports leaves in the log came through its imports. -/
theorem Owned.within {x : Watched σ α} {s : Session σ} (hx : Owned s.guest x) (hheard : x.Heard)
    (hcalls : s.guest.CallsImports) (hlog : s.log.Within s.guest.manifest.imports) :
    (x.action s).state.guest = s.guest ∧
      (x.action s).state.log.Within s.guest.manifest.imports := by
  refine ⟨(hheard s).guest, ?_⟩
  rw [(hheard s).log]
  exact hlog.heard (hcalls.asked_of_speech (hx s rfl))

end Watched

/-! ## Sequences of operations -/

namespace Session

variable {σ : Type}

/-- The host puts something into the log itself. -/
def Operation.Speaks : Operation → Prop
  | .append _ | .flush => True
  | _ => False

/-- The guest that a session has is one that calls what it imports, and nothing is in the log but
what can have come from there. -/
structure Confined (g : Guest σ) (s : Session σ) : Prop where
  guest : s.guest = g
  log : s.log.Within g.manifest.imports

/-- One operation leaves the log with what comes through the guest's imports. -/
theorem Confined.perform {g : Guest σ} {s : Session σ} (h : Confined g s) (hcalls : g.CallsImports)
    {op : Operation} (hop : ¬op.Speaks) : Confined g (op.perform s).state := by
  obtain ⟨rfl, hlog⟩ := h
  -- what is done with the session is watched, and the rest is done to the log
  have hwatched : ∀ {α : Type} {x : Watched σ α} (f : α → Answer), x.Heard →
      Watched.Owned s.guest x → Confined s.guest ((f <$> x.action) s).state := by
    intro α x f hheard howned
    obtain ⟨hguest, hwithin⟩ := howned.within hheard hcalls hlog
    rw [Action.map_apply]
    exact ⟨hguest, hwithin⟩
  cases op with
  | encode text =>
      have hencode := hwatched .encoded (Watched.heard_encode text) (Watched.owned_encode text)
      rwa [Watched.action_encode] at hencode
  | loadFilesystem image =>
      have hload := hwatched .region (Watched.heard_loadFilesystem image)
        (Watched.owned_loadFilesystem image)
      rwa [Watched.action_loadFilesystem] at hload
  | prepareInputs options source =>
      have hprepare := hwatched (fun texts => .inputs texts.1 texts.2)
        (Watched.heard_prepareInputs options source) (Watched.owned_prepareInputs options source)
      rwa [Watched.action_prepareInputs] at hprepare
  | entryForm => exact hwatched .form (.alone silent_entryForm) (.alone _)
  | compile options source =>
      have hcompile := hwatched .address (Watched.heard_compile options source)
        (Watched.owned_compile options source)
      rwa [Watched.action_compile] at hcompile
  | outcomeAt a => exact hwatched .outcome (.alone (silent_outcomeAt a)) (.alone _)
  | append text => exact absurd trivial hop
  | flush => exact absurd trivial hop
  | takeTranscript => exact ⟨rfl, hlog.pending, fun _ => rfl⟩
  | attach surface => exact ⟨rfl, hlog.pending, hlog.transcript⟩
  | detach => exact ⟨rfl, hlog.pending, hlog.transcript⟩

/-- The induction is on the operations, each of which finds what the one before has left. -/
theorem Confined.performAll {g : Guest σ} {s : Session σ} (h : Confined g s)
    (hcalls : g.CallsImports) {ops : List Operation} (hops : ∀ op ∈ ops, ¬op.Speaks) :
    Confined g (Session.performAll ops s).state := by
  induction ops generalizing s with
  | nil => exact h
  | cons op rest ih =>
      rw [List.forall_mem_cons] at hops
      rw [performAll_cons]
      exact ih (h.perform hcalls hops.1) hops.2

end Session

namespace Loaded

variable {σ : Type}

/-- A guest that starts with anything starts with something of its own. -/
theorem has_of_mem_startTurns {l : Loaded σ} {t : Turn σ} (h : t ∈ l.startTurns) :
    l.guest.Has t := by
  unfold startTurns at h
  split at h
  · cases h
  · split at h
    · cases h
    · rename_i f hstart
      obtain rfl := List.mem_singleton.1 h
      exact .started hstart
    · rename_i call hstart
      obtain rfl := List.mem_singleton.1 h
      exact hstart

/-- A session that was opened on a fresh log has nothing in it but what comes through imports. -/
theorem confined_of_instantiate {l : Loaded σ} (hcalls : l.guest.CallsImports)
    {surface : Option Surface} {s : Session σ}
    (hopen : (l.instantiate (.fresh surface) ()).result = .ok s) : Session.Confined l.guest s := by
  have hopens := l.opens_instantiate (.fresh surface)
  have hfresh : (Log.fresh surface).Within l.guest.manifest.imports := ⟨fun _ => rfl, fun _ => rfl⟩
  refine ⟨hopens.guest s hopen, ?_⟩
  rw [hopens.log s hopen]
  exact hfresh.heard (hcalls.asked_of_speech fun t => has_of_mem_startTurns)

/-- Whatever is done with its sessions, a guest completes no block of the log. -/
def CompletesNothing (l : Loaded σ) : Prop :=
  ∀ surface s, (l.instantiate (.fresh surface) ()).result = .ok s →
    ∀ ops : List Session.Operation, (∀ op ∈ ops, ¬op.Speaks) →
      (Session.performAll ops s).state.log.transcript = []

/-- Whatever is done with its sessions, a guest has nothing in the log. -/
def StaysSilent (l : Loaded σ) : Prop :=
  ∀ surface s, (l.instantiate (.fresh surface) ()).result = .ok s →
    ∀ ops : List Session.Operation, (∀ op ∈ ops, ¬op.Speaks) →
      (Session.performAll ops s).state.log.pending = "" ∧
        (Session.performAll ops s).state.log.transcript = []

end Loaded

/-! ## Binaries -/

namespace Binary

/-- A binary passes up to the engine: it is small enough, inspection tells its names, and what is
required is exported. -/
structure Passes (bytes : ByteArray) (told : Manifest) : Prop where
  size : checkArtifactSize bytes.size = .ok ()
  inspected : inspect bytes = .ok told
  required : told.require requiredExports = .ok ()

/-- A binary that passes is accepted if the engine takes it. -/
theorem Passes.ofBytes {σ S : Type} {bytes : ByteArray} {told : Manifest} (h : Passes bytes told)
    {engine : Engine σ} {guest : Guest σ} (hengine : engine bytes = some guest) (fuel : UInt64)
    (s : S) : (Loaded.ofBytes engine bytes fuel s).result = .ok ⟨guest, fuel⟩ := by
  simp only [Loaded.ofBytes, h.size, h.inspected, h.required, hengine, Action.ofExcept_ok,
    pure_bind, Action.emit_bind_apply, Ended.behind_result]
  rfl

/-- Whatever engine runs the binary, as long as it reads the names right and has no other way to the
host than imports: its guest has a property. -/
def Always (bytes : ByteArray) (holds : ∀ {σ : Type}, Loaded σ → Prop) : Prop :=
  ∀ (σ : Type) (engine : Engine σ), engine.ReadsNames bytes → engine.CallsImports bytes →
    ∀ fuel (l : Loaded σ), (Loaded.ofBytes engine bytes fuel ()).result = .ok l → holds l

end Binary

/-! ### A guest that writes -/

section Writing

open Binary (Manifest)

/-- A function that writes the first byte of memory into the log, and has no room for anything. -/
def writer : Function Unit :=
  ⟨Guest.allocatorType, fun _ live => ⟨[(.write Address.null 1, live)], .ok 0, live⟩⟩

/-- What is exported under a name. -/
def writerExport (name : String) : Export Unit :=
  if name = Guest.memoryExport then .memory else .function writer

/-- A guest with any names, which writes whatever it is asked for. -/
def writing (told : Manifest) : Guest Unit where
  imports := told.imports.map fun asked => ⟨asked.1, asked.2, hostFunctionType? asked.1 asked.2⟩
  exports := told.exports.map fun name => (name, writerExport name)
  memory := .zeros 1 1
  globals := .ok ()
  data := []
  start := none

variable {told : Manifest}

theorem manifest_writing (told : Manifest) : (writing told).manifest = told := by
  have himports : told.imports.map (fun asked => (asked.1, asked.2)) = told.imports :=
    List.map_id told.imports
  have hexports : told.exports.map (fun name => name) = told.exports := List.map_id told.exports
  simp only [Guest.manifest, writing, List.map_map, Function.comp_def, himports, hexports]

/-- To write is all that it does. -/
theorem callsImports_writing (hwrite : (hostModule, logWriteImport) ∈ told.imports) :
    (writing told).CallsImports where
  functions := by
    intro f hf args live c hc
    cases hf with
    | exported name hmem =>
        obtain ⟨asked, _, hsame⟩ := List.mem_map.1 hmem
        have hexport : writerExport asked = .function f := (Prod.mk.inj hsame).2
        unfold writerExport at hexport
        split at hexport
        · cases hexport
        · obtain rfl := Export.function.inj hexport
          obtain rfl := List.mem_singleton.1 hc
          rw [Guest.Imports, manifest_writing]
          exact hwrite
    | started hstart => cases hstart
  host := by
    intro call hstart
    cases hstart

/-- It exports whatever it is asked for. -/
theorem export?_writing {name : String} (h : name ∈ told.exports) :
    (writing told).export? name = some (writerExport name) := by
  have hname : name ∈ (writing told).manifest.exports := by
    rw [manifest_writing]
    exact h
  obtain ⟨e, hexport⟩ := Guest.exists_export?_of_mem hname
  obtain ⟨asked, _, hsame⟩ := List.mem_map.1 (Guest.mem_exports_of_export? hexport)
  obtain ⟨rfl, rfl⟩ := Prod.mk.inj hsame
  exact hexport

section Passing

variable {bytes : ByteArray} (h : Binary.Passes bytes told)

include h

theorem exportsMemory_writing : (writing told).exportsMemory = true :=
  Guest.exportsMemory_iff.2
    (export?_writing (Loaded.mem_exports_of_require h.required _ (by decide)))

theorem allocator_writing : (writing told).allocator? Guest.allocatorExport = .ok writer :=
  Guest.allocator?_ok_iff.2
    ⟨export?_writing (Loaded.mem_exports_of_require h.required _ (by decide)), rfl⟩

/-- With the names of a binary that passes, it can be linked, and has what is looked up. -/
theorem instantiate_writing (fuel : UInt64) (log : Log) :
    ((⟨writing told, fuel⟩ : Loaded Unit).instantiate log ()).result =
      .ok ((⟨writing told, fuel⟩ : Loaded Unit).unstarted () (.zeros 1 1) log) := by
  have hlink : (writing told).linkable = true := by
    rw [Guest.linkable, List.all_eq_true]
    intro i hi
    obtain ⟨asked, hasked, rfl⟩ := List.mem_map.1 hi
    have hprovided := Binary.provided_of_inspect h.inspected asked hasked
    rw [Bool.and_eq_true, beq_iff_eq]
    exact ⟨hprovided, rfl⟩
  refine Loaded.instantiate_of_unstarted ?_ rfl (exportsMemory_writing h) (allocator_writing h) log
  rw [Loaded.setUp, if_pos hlink]
  rfl

/-- As soon as it is asked for room, it has written. -/
theorem log_writing {s : Session Unit} (hguest : s.guest = writing told)
    (hmemory : s.live.memory = .zeros 1 1) (hfuel : ¬s.live.fuel ≤ Session.entryFuel) :
    (Session.encode "" s).state.log = s.log.append "\x00" := by
  have hturns : (Watched.encode "").turns s = [.function writer [1] s.live] := by
    refine (Watched.turns_bind_alone _ _ s).trans ?_
    rw [Watched.turns_place, hguest, allocator_writing h]
    rfl
  have hread : s.live.memory.readTextLossy Address.null (1 : UInt32).toNat =
      .ok ("\x00", false) := by
    rw [hmemory]
    with_unfolding_all rfl
  have hspeech : (writing told).spoken (Turn.function writer [1] s.live).calls =
      [.words "\x00"] := by
    rw [Turn.calls, if_neg hfuel]
    simp only [writer, Guest.spoken, HostCall.utterance?_write (exportsMemory_writing h) hread]
  have hlog := (Watched.heard_encode "" s).log
  rwa [Watched.action_encode, hturns, Guest.speech_singleton, hguest, hspeech,
    Log.heard_words] at hlog

/-- The byte that it wrote is no block yet, and stays where it is. -/
theorem not_staysSilent_writing : ¬(⟨writing told, 1000⟩ : Loaded Unit).StaysSilent := by
  intro hsilent
  -- any text will do: room for its zero is asked for even where there is nothing else
  have hopen := instantiate_writing h 1000 (.fresh none)
  have hfuel : ¬(1000 : UInt64) ≤ Session.entryFuel := by decide
  have hlog := log_writing h rfl rfl hfuel
    (s := (⟨writing told, 1000⟩ : Loaded Unit).unstarted () (.zeros 1 1) (.fresh none))
  obtain ⟨hpending, _⟩ := hsilent none _ hopen [.encode ""] (List.forall_mem_singleton.2 id)
  rw [Session.performAll_cons, Session.Operation.perform, Action.map_apply] at hpending
  change (Session.encode "" _).state.log.pending = "" at hpending
  rw [hlog] at hpending
  change "" ++ "\x00" = "" at hpending
  exact absurd hpending (by decide)

end Passing

end Writing

namespace Binary

/-- What the guest in a binary can have in its log has come through what the binary imports. -/
theorem Passes.within {bytes : ByteArray} {told : Manifest} (h : Passes bytes told) {σ : Type}
    {engine : Engine σ} (hreads : engine.ReadsNames bytes) (hcalls : engine.CallsImports bytes)
    {fuel : UInt64} {l : Loaded σ} (hl : (Loaded.ofBytes engine bytes fuel ()).result = .ok l)
    {surface : Option Surface} {s : Session σ}
    (hopen : (l.instantiate (.fresh surface) ()).result = .ok s)
    {ops : List Session.Operation} (hops : ∀ op ∈ ops, ¬op.Speaks) :
    (Session.performAll ops s).state.log.Within told.imports := by
  obtain ⟨_, _, _, guest, hengine, rfl⟩ := Loaded.inspected_of_ofBytes hl
  have hguest := hcalls guest hengine
  have hconfined := (Loaded.confined_of_instantiate hguest hopen).performAll hguest hops
  rw [← hreads guest told hengine h.inspected]
  exact hconfined.log

/-- Of a binary that passes, and of which it is said that its guest does not use the log: the guest
completes no block of it; and that it has nothing in it at all is certain, whatever runs it, just if
the binary does not import the function that writes either. -/
theorem staysSilent_iff {bytes : ByteArray} {told : Manifest} (h : Passes bytes told)
    (hunused : told.usesLog = false) :
    (Always bytes fun l => l.CompletesNothing) ∧
      ((Always bytes fun l => l.StaysSilent) ↔ (hostModule, logWriteImport) ∉ told.imports) := by
  have hnone : (hostModule, logFlushImport) ∉ told.imports := by
    simpa [Manifest.usesLog] using hunused
  refine ⟨?_, ?_, ?_⟩
  · intro σ engine hreads hcalls fuel l hl surface s hopen ops hops
    exact (h.within hreads hcalls hl hopen hops).transcript hnone
  · intro halways hwrite
    -- a guest with these names that does what it may
    have hreads : Engine.ReadsNames (fun _ => some (writing told)) bytes := by
      intro guest told' hguest hinspect
      obtain rfl := Option.some.inj hguest
      obtain rfl := Except.ok.inj (h.inspected.symm.trans hinspect)
      exact manifest_writing told
    have hcalls : Engine.CallsImports (fun _ => some (writing told)) bytes := by
      intro guest hguest
      obtain rfl := Option.some.inj hguest
      exact callsImports_writing hwrite
    exact not_staysSilent_writing h (halways Unit _ hreads hcalls 1000 _ (h.ofBytes rfl 1000 ()))
  · intro hnowrite σ engine hreads hcalls fuel l hl surface s hopen ops hops
    have hwithin := h.within hreads hcalls hl hopen hops
    exact ⟨hwithin.pending hnowrite, hwithin.transcript hnone⟩

/-- A module with a text in memory, that imports functions of the type of the one that writes. It
has some code to allocate with, which is its entry point as well. -/
def allocatingBy (imports : List String) (code : List UInt8) : ByteArray :=
  ⟨(writeHeader
    ++ writeSection 1 [2, 0x60, 2, 0x7F, 0x7F, 0, 0x60, 1, 0x7F, 1, 0x7F]
    ++ writeSection 2 (writeCounted id (imports.map (writeFunctionImport hostModule · 0)))
    ++ writeSection 3 [1, 1]
    ++ writeSection 5 [1, 0, 1]
    ++ writeSection 7 (writeCounted writeExport
      [⟨Guest.memoryExport, 2, 0⟩, ⟨Guest.allocatorExport, 0, imports.length⟩,
        ⟨compileExport, 0, imports.length⟩])
    ++ writeSection 10 ([1, UInt8.ofNat (code.length + 2), 0] ++ code ++ [0x0B])
    ++ writeSection 11 [1, 0, 0x41, 16, 0x0B, 4, 0x6C, 0x6F, 0x73, 0x74]).toArray⟩

/-- What is said of such a module. -/
def toldOf (imports : List String) : Manifest :=
  ⟨imports.map (hostModule, ·), [Guest.memoryExport, Guest.allocatorExport, compileExport]⟩

/-- Allocates nothing. -/
def mute : ByteArray := allocatingBy [] [0x41, 0]

/-- Writes the text, and allocates the room behind it. -/
def murmuring : ByteArray :=
  allocatingBy [logWriteImport] [0x41, 16, 0x41, 4, 0x10, 0, 0x41, 20]

theorem passes_mute : Passes mute (toldOf []) where
  size := if_pos (by decide +kernel)
  inspected := by decide +kernel
  required := rfl

theorem passes_murmuring : Passes murmuring (toldOf [logWriteImport]) where
  size := if_pos (by decide +kernel)
  inspected := by decide +kernel
  required := rfl

theorem isPlain_of_allocatingBy {bytes : ByteArray} (h : bytes = mute ∨ bytes = murmuring) :
    Engine.IsPlain bytes := by
  have hscripts : ∀ bytes ∈ [mute, murmuring], (sections? (bytes.toList.drop headerBytes)).all
      (·.findSome? Engine.scriptIn? = none) = true := by decide +kernel
  intro sections hsections
  have hscript := hscripts bytes (by simpa using h)
  rw [hsections] at hscript
  simpa using hscript

theorem staysSilent_mute :
    (Passes mute (toldOf []) ∧ (toldOf []).usesLog = false) ∧
      (Always mute fun l => l.StaysSilent) ∧
      ∃ l, (Loaded.ofBytes Engine.standard mute 1000 ()).result = .ok l ∧ l.StaysSilent := by
  obtain ⟨_, hsilent⟩ := staysSilent_iff passes_mute rfl
  have halways : Always mute fun l => l.StaysSilent := hsilent.2 List.not_mem_nil
  have hplain := isPlain_of_allocatingBy (.inl rfl)
  have hruns : (Engine.standard mute).isSome = true := by decide +kernel
  obtain ⟨guest, hguest⟩ := Option.isSome_iff_exists.1 hruns
  have hl := passes_mute.ofBytes hguest 1000 ()
  exact ⟨⟨passes_mute, rfl⟩, halways, _, hl, halways _ Engine.standard
    (Engine.readsNames_standard hplain) (Engine.callsImports_of_plain hplain) 1000 _ hl⟩

theorem not_staysSilent_murmuring :
    (Passes murmuring (toldOf [logWriteImport]) ∧ (toldOf [logWriteImport]).usesLog = false) ∧
      (Engine.standard.ReadsNames murmuring ∧ Engine.standard.CallsImports murmuring) ∧
      ∃ l s, (Loaded.ofBytes Engine.standard murmuring 1000 ()).result = .ok l ∧
        (l.instantiate (.fresh none) ()).result = .ok s ∧
        (Session.performAll [.encode ""] s).state.log.pending = "lost" ∧ ¬l.StaysSilent := by
  have hleft : ((Engine.standard murmuring).bind fun guest =>
      ((⟨guest, 1000⟩ : Loaded Engine.State).instantiate (.fresh none) ()).result.toOption.map
        fun s => (Session.performAll [.encode ""] s).state.log.pending) = some "lost" := by
    decide +kernel
  obtain ⟨guest, hguest, hleft⟩ := Option.bind_eq_some_iff.1 hleft
  have hplain := isPlain_of_allocatingBy (.inr rfl)
  refine ⟨⟨passes_murmuring, by decide⟩,
    ⟨Engine.readsNames_standard hplain, Engine.callsImports_of_plain hplain⟩,
    ⟨guest, 1000⟩, ?_⟩
  cases hopen : ((⟨guest, 1000⟩ : Loaded Engine.State).instantiate (.fresh none) ()).result with
  | error cause =>
      rw [hopen] at hleft
      cases hleft
  | ok s =>
      rw [hopen] at hleft
      have hpending : (Session.performAll [.encode ""] s).state.log.pending = "lost" :=
        Option.some.inj hleft
      refine ⟨s, passes_murmuring.ofBytes hguest 1000 (), rfl, hpending, ?_⟩
      intro hsilent
      obtain ⟨hquiet, _⟩ := hsilent none s hopen [.encode ""] (List.forall_mem_singleton.2 id)
      rw [hpending] at hquiet
      exact absurd hquiet (by decide)

end Binary

end CompilerHost
