import CompilerHost.Binary.Writer
import CompilerHost.Proofs.Inspection
import CompilerHost.Proofs.Run

/-! # Instantiation of what was accepted

Inspection goes by names. Where a guest that it accepted is linked, and where its memory and its
allocator are looked up, types count as well.

* `Loaded.initialise`: what the guest does by itself when it is instantiated;
* `Loaded.failsRunning_initialise`: where that fails, the guest has trapped, or a call that it made
  failed;
* `Loaded.failsOnlyInitialising_iff`: an accepted guest cannot fail in another way exactly if its
  types are those that the names stand for.
-/

namespace CompilerHost

/-! ## Types behind names -/

namespace Guest

variable {σ : Type}

/-- What is imported under the name of a host function has its type. -/
def ImportsTyped (g : Guest σ) : Prop :=
  ∀ i ∈ g.imports, ∀ t, hostFunctionType? i.module i.name = some t → i.type = some t

/-- What is exported as the memory is a memory, and what is exported as the allocator allocates. -/
structure ExportsTyped (g : Guest σ) : Prop where
  memory : ∀ e, g.export? memoryExport = some e → e = .memory
  allocator : ∀ e, g.export? allocatorExport = some e →
    ∃ f, e = .function f ∧ f.type = allocatorType

/-- The names of a guest are right: it asks for nothing that the host does not have, and has what
the host asks for. -/
structure Named (g : Guest σ) : Prop where
  imports : ∀ i ∈ g.imports, ∃ t, hostFunctionType? i.module i.name = some t
  exports : ∀ name ∈ requiredExports, ∃ e, g.export? name = some e

/-- An exported name stands for something. -/
theorem exists_export?_of_mem {g : Guest σ} {name : String} (h : name ∈ g.manifest.exports) :
    ∃ e, g.export? name = some e := by
  obtain ⟨named, hmem, rfl⟩ := List.mem_map.1 h
  cases hexport : g.export? named.1 with
  | some e => exact ⟨e, rfl⟩
  | none =>
      have hnone := List.lookup_eq_none_iff.1 hexport named hmem
      simp at hnone

theorem mem_exports_of_export? {g : Guest σ} {name : String} {e : Export σ}
    (h : g.export? name = some e) : (name, e) ∈ g.exports := by
  obtain ⟨front, back, hexports, _⟩ := List.lookup_eq_some_iff.1 h
  rw [hexports]
  exact List.mem_append_right front List.mem_cons_self

/-- A guest with the right names is linked exactly if its imports have the right types. -/
theorem Named.linkable_iff {g : Guest σ} (h : g.Named) : g.linkable = true ↔ g.ImportsTyped := by
  rw [linkable, List.all_eq_true]
  constructor
  · intro hlink i hi t ht
    have hboth := hlink i hi
    simp only [Bool.and_eq_true, beq_iff_eq] at hboth
    rw [← hboth.2, ht]
  · intro htyped i hi
    obtain ⟨t, ht⟩ := h.imports i hi
    rw [htyped i hi t ht, ht]
    simp

theorem exportsMemory_iff {g : Guest σ} :
    g.exportsMemory = true ↔ g.export? memoryExport = some .memory := by
  unfold exportsMemory
  split
  · rename_i hmemory
    simp [hmemory]
  · rename_i hother
    simp only [Bool.false_eq_true, false_iff]
    exact hother

/-- An allocator is found exactly where a function of its type is exported. -/
theorem allocator?_ok_iff {g : Guest σ} {name : String} {f : Function σ} :
    g.allocator? name = .ok f ↔ g.export? name = some (.function f) ∧ f.type = allocatorType := by
  unfold allocator? function?
  cases hexport : g.export? name with
  | none => simp
  | some e =>
      cases e with
      | memory => simp
      | other => simp
      | function found =>
          simp only [Option.some.injEq, Export.function.injEq]
          split
          · rename_i htype
            constructor
            · intro h
              obtain rfl := Except.ok.inj h
              exact ⟨rfl, htype⟩
            · rintro ⟨rfl, _⟩
              rfl
          · rename_i htype
            constructor
            · intro h
              cases h
            · rintro ⟨rfl, htyped⟩
              exact absurd htyped htype

/-- The memory and the allocator are found exactly if they have the right types. -/
theorem Named.exportsTyped_iff {g : Guest σ} (h : g.Named) :
    g.ExportsTyped ↔ g.exportsMemory = true ∧ ∃ f, g.allocator? allocatorExport = .ok f := by
  constructor
  · intro htyped
    obtain ⟨m, hmemory⟩ := h.exports memoryExport (by decide)
    obtain ⟨a, hallocator⟩ := h.exports allocatorExport (by decide)
    obtain ⟨f, rfl, htype⟩ := htyped.allocator a hallocator
    obtain rfl := htyped.memory m hmemory
    exact ⟨exportsMemory_iff.2 hmemory, f, allocator?_ok_iff.2 ⟨hallocator, htype⟩⟩
  · rintro ⟨hmemory, f, hallocator⟩
    obtain ⟨hexport, htype⟩ := allocator?_ok_iff.1 hallocator
    refine ⟨?_, ?_⟩
    · intro e he
      exact Option.some.inj (he.symm.trans (exportsMemory_iff.1 hmemory))
    · intro e he
      exact ⟨f, Option.some.inj (he.symm.trans hexport), htype⟩

end Guest

/-! ## Faults of a running guest -/

/-- What goes wrong while a guest runs by itself: it traps, or a call that it makes fails. -/
inductive GuestFault.IsOfRunning : GuestFault → Prop where
  | trap (t : Trap) : IsOfRunning (.execution (.trap t))
  | logRead (access : BadAccess) : IsOfRunning (.execution (.logRead access))
  | raised (reason : String) : IsOfRunning (.execution (.raised reason))

namespace Action

variable {S T α β : Type}

/-- An action fails only for what the guest does while it runs. -/
def FailsRunning (x : Action S GuestFault α) : Prop :=
  ∀ s cause, (x s).result = .error cause → cause.IsOfRunning

namespace FailsRunning

theorem of_ok {x : Action S GuestFault α} (h : ∀ s, ∃ a, (x s).result = .ok a) :
    FailsRunning x := by
  intro s cause herror
  obtain ⟨a, hok⟩ := h s
  rw [hok] at herror
  cases herror

theorem pure (a : α) : FailsRunning (Pure.pure a : Action S GuestFault α) := of_ok fun _ => ⟨a, rfl⟩

theorem throw {cause : GuestFault} (h : cause.IsOfRunning) :
    FailsRunning (MonadExcept.throw cause : Action S GuestFault α) := by
  intro s e he
  obtain rfl := Except.error.inj he
  exact h

theorem ofExcept {r : Except GuestFault α} (h : ∀ cause, r = .error cause → cause.IsOfRunning) :
    FailsRunning (Action.ofExcept r : Action S GuestFault α) := by
  cases r with
  | ok a => exact pure a
  | error cause => exact throw (h cause rfl)

theorem bind {x : Action S GuestFault α} {f : α → Action S GuestFault β} (hx : FailsRunning x)
    (hf : ∀ a, FailsRunning (f a)) : FailsRunning (x >>= f) := by
  intro s cause h
  cases hresult : (x s).result with
  | ok a =>
      rw [bind_of_ok f hresult] at h
      exact hf a _ cause h
  | error e =>
      rw [bind_of_error f hresult] at h
      obtain rfl := Except.error.inj h
      exact hx s e hresult

theorem finalState {x : Action S GuestFault α} (hx : FailsRunning x) (s : S) :
    FailsRunning (Action.finalState x s : Action T GuestFault S) := by
  intro t cause h
  rw [finalState_apply] at h
  cases hresult : (x s).result with
  | ok a =>
      rw [hresult] at h
      cases h
  | error e =>
      rw [hresult] at h
      obtain rfl := Except.error.inj h
      exact hx s e hresult

end FailsRunning

end Action

namespace Session

open CompilerHost.Action (FailsRunning)

variable {σ : Type}

theorem failsRunning_setLive (live : Instance σ) :
    FailsRunning (setLive live : Action (Session σ) GuestFault Unit) := .of_ok fun _ => ⟨(), rfl⟩

theorem failsRunning_answer (call : HostCall) :
    FailsRunning (answer call : Action (Session σ) GuestFault Unit) := by
  cases call with
  | flush => exact .of_ok fun _ => ⟨(), rfl⟩
  | write start length =>
      refine .bind (.of_ok fun s => ⟨s, rfl⟩) fun s => ?_
      split
      · cases s.live.memory.readTextLossy start length.toNat with
        | error access => exact .throw (.logRead access)
        | ok read =>
            obtain ⟨text, repaired⟩ := read
            refine .of_ok fun _ => ⟨(), ?_⟩
            cases repaired with
            | true => rfl
            | false => rfl
      · exact .throw (.raised _)

/-- The induction is on the calls, each of which is answered for itself. -/
theorem failsRunning_answerAll (calls : List (HostCall × Instance σ)) :
    FailsRunning (answerAll calls : Action (Session σ) GuestFault Unit) := by
  induction calls with
  | nil => exact .pure ()
  | cons c calls ih =>
      exact .bind (failsRunning_setLive c.2) fun _ => .bind (failsRunning_answer c.1) fun _ => ih

theorem failsRunning_call (f : Function σ) (args : List UInt32) :
    FailsRunning (call f args : Action (Session σ) GuestFault UInt32) := by
  refine .bind (.of_ok fun s => ⟨s, rfl⟩) fun s => ?_
  split
  · exact .bind (failsRunning_setLive _) fun _ => .throw (.trap _)
  · refine .bind (failsRunning_answerAll _) fun _ => .bind (failsRunning_setLive _) fun _ => ?_
    split
    · exact .pure _
    · exact .throw (.trap _)

end Session

/-! ## Initialisation -/

namespace Loaded

open CompilerHost.Action (FailsRunning)

variable {σ : Type}

/-- What a guest does by itself when it is instantiated: it is set up, and starts. -/
def initialise (l : Loaded σ) (log : Log) : Action Unit GuestFault (Session σ) := do
  let globals ← Action.ofExcept (l.guest.globals.mapError fun t => .execution (.trap t))
  let memory ← Action.ofExcept (initialMemory l.guest.data l.guest.memory)
  l.start (l.unstarted globals memory log)

theorem fault_of_initialMemory {data : List (UInt32 × ByteArray)} {m : Memory} {cause : GuestFault}
    (h : initialMemory data m = .error cause) : cause.IsOfRunning := by
  induction data generalizing m with
  | nil => cases h
  | cons piece data ih =>
      unfold initialMemory at h
      split at h
      · exact ih h
      · obtain rfl := Except.error.inj h
        exact .trap _

theorem failsRunning_initialise (l : Loaded σ) (log : Log) : FailsRunning (l.initialise log) := by
  refine .bind (.ofExcept ?_) fun globals => ?_
  · intro cause h
    cases hglobals : l.guest.globals with
    | ok globals =>
        rw [hglobals] at h
        cases h
    | error t =>
        rw [hglobals] at h
        obtain rfl := Except.error.inj h
        exact .trap t
  · refine .bind (.ofExcept fun cause h => fault_of_initialMemory h) fun memory => ?_
    -- a guest starts with nothing, with a function of its own, or with one of the host's
    unfold start
    split
    · exact .pure _
    · exact .finalState (Session.failsRunning_call _ _) _
    · exact .finalState (Session.failsRunning_answer _) _

/-- Instantiation is initialisation between two questions: whether the guest can be linked, and
whether it has what any compile needs. -/
theorem instantiate_of_linkable {l : Loaded σ} (log : Log) (h : l.guest.linkable = true) :
    l.instantiate log = l.initialise log >>= l.settle := by
  rw [instantiate_eq, setUp, if_pos h, initialise]
  cases l.guest.globals with
  | error t => rfl
  | ok globals =>
      cases initialMemory l.guest.data l.guest.memory with
      | error cause => rfl
      | ok memory => rfl

theorem instantiate_of_not_linkable {l : Loaded σ} (log : Log) (h : ¬l.guest.linkable = true) :
    (l.instantiate log ()).result = .error (.execution .refused) := by
  rw [instantiate_eq, setUp, if_neg h]
  rfl

/-- The guest's memory and its allocator are looked up, and what is missing is reported. -/
theorem settle_ok_iff {l : Loaded σ} (session : Session σ) :
    (l.settle session ()).result.isOk = true ↔
      l.guest.exportsMemory = true ∧ ∃ f, l.guest.allocator? Guest.allocatorExport = .ok f := by
  unfold settle
  split
  · rename_i hmemory
    cases hallocator : l.guest.allocator? Guest.allocatorExport with
    | ok f => exact ⟨fun _ => ⟨hmemory, f, rfl⟩, fun _ => rfl⟩
    | error cause =>
        constructor
        · intro h
          cases h
        · rintro ⟨_, f, hf⟩
          cases hf
  · rename_i hmemory
    constructor
    · intro h
      cases h
    · intro h
      exact absurd h.1 hmemory

/-- A guest cannot be instantiated only for what it does by itself: it fails to run. -/
def FailsOnlyInitialising (l : Loaded σ) (log : Log) : Prop :=
  ∀ cause, (l.instantiate log ()).result = .error cause →
    (l.initialise log ()).result = .error cause ∧ cause.IsOfRunning

/-- Where names are right, types decide whether instantiation can fail for anything but what the
guest does by itself. -/
theorem failsOnlyInitialising_of_named {l : Loaded σ} (log : Log) (hnamed : l.guest.Named) :
    l.FailsOnlyInitialising log ↔
      l.guest.ImportsTyped ∧
        ∀ session, (l.initialise log ()).result = .ok session → l.guest.ExportsTyped := by
  rw [← hnamed.linkable_iff, hnamed.exportsTyped_iff]
  constructor
  · intro honly
    -- a guest that is refused was never run
    have hlink : l.guest.linkable = true := by
      refine Decidable.byContradiction fun hlink => ?_
      obtain ⟨_, hrunning⟩ := honly _ (instantiate_of_not_linkable log hlink)
      cases hrunning
    refine ⟨hlink, ?_⟩
    intro session hinitialised
    rw [← settle_ok_iff (l := l) session]
    cases hsettle : (l.settle session ()).result with
    | ok opened => rfl
    | error cause =>
        -- then instantiation fails where initialisation did not
        have hfails : (l.instantiate log ()).result = .error cause := by
          rw [instantiate_of_linkable log hlink, Action.bind_of_ok _ hinitialised]
          exact hsettle
        rw [(honly cause hfails).1] at hinitialised
        cases hinitialised
  · rintro ⟨hlink, hexports⟩ cause hfails
    rw [instantiate_of_linkable log hlink] at hfails
    cases hinitialised : (l.initialise log ()).result with
    | error e =>
        rw [Action.bind_of_error _ hinitialised] at hfails
        obtain rfl := Except.error.inj hfails
        exact ⟨rfl, failsRunning_initialise l log () e hinitialised⟩
    | ok session =>
        rw [Action.bind_of_ok _ hinitialised] at hfails
        have hok := (settle_ok_iff session).2 (hexports session hinitialised)
        rw [Ended.behind_result] at hfails
        rw [hfails] at hok
        cases hok

/-! ## What was accepted -/

section Accepted

variable {S : Type} {engine : Engine σ} {bytes : ByteArray} {fuel : UInt64} {s : S} {l : Loaded σ}

/-- What is required and not refused is exported. -/
theorem mem_exports_of_require {told : Binary.Manifest} {names : List String}
    (h : told.require names = .ok ()) : ∀ name ∈ names, name ∈ told.exports := by
  unfold Binary.Manifest.require at h
  split at h
  · cases h
  · rename_i hnone
    intro name hname
    have hfound := List.find?_eq_none.1 hnone name hname
    simpa [Binary.Manifest.exportsName] using hfound

/-- A binary that is accepted was inspected, and has the exports that are asked for. -/
theorem inspected_of_ofBytes (h : (ofBytes engine bytes fuel s).result = .ok l) :
    ∃ told, Binary.inspect bytes = .ok told ∧ told.require requiredExports = .ok () ∧
      ∃ guest, engine bytes = some guest ∧ l = ⟨guest, fuel⟩ := by
  obtain ⟨_, _, h⟩ := Action.ok_of_bind_ok h
  obtain ⟨told, htold, h⟩ := Action.ok_of_bind_ok h
  obtain ⟨_, hrequired, h⟩ := Action.ok_of_bind_ok h
  obtain ⟨_, _, h⟩ := Action.ok_of_bind_ok h
  obtain ⟨_, _, h⟩ := Action.ok_of_bind_ok h
  refine ⟨told, Action.ok_of_ofExcept htold, Action.ok_of_ofExcept hrequired, ?_⟩
  cases hengine : engine bytes with
  | none =>
      rw [hengine] at h
      cases h
  | some guest =>
      rw [hengine] at h
      exact ⟨guest, rfl, (Except.ok.inj h).symm⟩

/-- An accepted guest has the right names. -/
theorem named_of_ofBytes (hreads : engine.ReadsNames bytes)
    (h : (ofBytes engine bytes fuel s).result = .ok l) : l.guest.Named := by
  obtain ⟨told, hinspect, hrequired, guest, hengine, rfl⟩ := inspected_of_ofBytes h
  have hmanifest := hreads guest told hengine hinspect
  refine ⟨?_, ?_⟩
  · intro i hi
    have hasked : (i.module, i.name) ∈ told.imports := by
      rw [← hmanifest]
      exact List.mem_map_of_mem hi
    exact Option.isSome_iff_exists.1 (Binary.provided_of_inspect hinspect _ hasked)
  · intro name hname
    refine Guest.exists_export?_of_mem ?_
    rw [hmanifest]
    exact mem_exports_of_require hrequired name hname

/-- An accepted guest can be instantiated, unless it fails to run by itself, exactly if what it
imports has the types of the host's functions, and what it exports under the names of a memory and
of an allocator is a memory and allocates. -/
theorem failsOnlyInitialising_iff (log : Log) (hreads : engine.ReadsNames bytes)
    (hloaded : (ofBytes engine bytes fuel s).result = .ok l) :
    l.FailsOnlyInitialising log ↔
      l.guest.ImportsTyped ∧
        ∀ session, (l.initialise log ()).result = .ok session → l.guest.ExportsTyped :=
  failsOnlyInitialising_of_named log (named_of_ofBytes hreads hloaded)

end Accepted

/-- A module that imports the end of blocks as a function of a type of its own choice: of words, or
of nothing. Its allocator, which is its entry point as well, gives nothing. -/
def flushing (type : Nat) : ByteArray :=
  ⟨(Binary.writeHeader
    ++ Binary.writeSection 1 [2, 0x60, 1, 0x7F, 1, 0x7F, 0x60, 0, 0]
    ++ Binary.writeSection 2 (Binary.writeCounted id
      [Binary.writeFunctionImport hostModule logFlushImport type])
    ++ Binary.writeSection 3 [1, 0]
    ++ Binary.writeSection 5 [1, 0, 1]
    ++ Binary.writeSection 7 (Binary.writeCounted Binary.writeExport
      [⟨Guest.memoryExport, 2, 0⟩, ⟨Guest.allocatorExport, 0, 1⟩, ⟨compileExport, 0, 1⟩])
    ++ Binary.writeSection 10 [1, 4, 0, 0x41, 0, 0x0B]).toArray⟩

theorem readsNames_flushing {type : Nat} (h : type < 2) :
    Engine.standard.ReadsNames (flushing type) := by
  have hplain : ∀ type < 2, (Binary.sections? ((flushing type).toList.drop
      Binary.headerBytes)).all (·.findSome? Engine.scriptIn? = none) = true := by decide +kernel
  refine Engine.readsNames_standard ?_
  intro sections hsections
  have hscript := hplain type h
  rw [hsections] at hscript
  simpa using hscript

/-- Whatever the type, the module is accepted. It can be linked exactly if the type is right, and
its exports are what they are said to be. -/
theorem ofBytes_flushing {type : Nat} (h : type < 2) :
    ∃ l : Loaded Engine.State,
      (ofBytes Engine.standard (flushing type) 1000 ()).result = .ok l ∧
        (l.guest.linkable = true ↔ type = 1) ∧ l.guest.exportsMemory = true ∧
          ∃ f, l.guest.allocator? Guest.allocatorExport = .ok f := by
  have heval : ∀ type < 2,
      (match (ofBytes Engine.standard (flushing type) 1000 ()).result with
        | .ok l => l.guest.linkable == (type == 1) && l.guest.exportsMemory
            && (l.guest.allocator? Guest.allocatorExport).isOk
        | .error _ => false) = true := by decide +kernel
  have htype := heval type h
  split at htype
  · rename_i l hl
    simp only [Bool.and_eq_true, beq_iff_eq] at htype
    obtain ⟨⟨hlink, hmemory⟩, hallocator⟩ := htype
    refine ⟨l, hl, by rw [hlink, beq_iff_eq], hmemory, ?_⟩
    cases hfound : l.guest.allocator? Guest.allocatorExport with
    | ok f => exact ⟨f, rfl⟩
    | error cause =>
        rw [hfound] at hallocator
        cases hallocator
  · cases htype

theorem failsOnlyInitialising_flushing :
    Engine.standard.ReadsNames (flushing 1) ∧ ∃ l : Loaded Engine.State,
      (ofBytes Engine.standard (flushing 1) 1000 ()).result = .ok l ∧
        l.FailsOnlyInitialising (.fresh none) := by
  have hreads := @readsNames_flushing 1 (by decide)
  obtain ⟨l, hl, hlink, hexports⟩ := @ofBytes_flushing 1 (by decide)
  refine ⟨hreads, l, hl, (failsOnlyInitialising_iff (.fresh none) hreads hl).2 ⟨?_, ?_⟩⟩
  · exact (named_of_ofBytes hreads hl).linkable_iff.1 (hlink.2 rfl)
  · intro _ _
    exact (named_of_ofBytes hreads hl).exportsTyped_iff.2 hexports

theorem not_failsOnlyInitialising_flushing :
    Engine.standard.ReadsNames (flushing 0) ∧ ∃ l : Loaded Engine.State,
      (ofBytes Engine.standard (flushing 0) 1000 ()).result = .ok l ∧
        (l.instantiate (.fresh none) ()).result = .error (.execution .refused) ∧
          ¬l.FailsOnlyInitialising (.fresh none) := by
  obtain ⟨l, hl, hlink, _⟩ := @ofBytes_flushing 0 (by decide)
  have hrefused := instantiate_of_not_linkable (.fresh none) (mt hlink.1 (by decide))
  refine ⟨readsNames_flushing (by decide), l, hl, hrefused, ?_⟩
  intro honly
  obtain ⟨_, hrunning⟩ := honly _ hrefused
  cases hrunning

end Loaded

end CompilerHost
