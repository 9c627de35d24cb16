import CompilerHost.Proofs.Bump
import CompilerHost.Proofs.Linking
import CompilerHost.Proofs.Placing
import CompilerHost.Proofs.Result
import CompilerHost.Proofs.Spending

/-! # What a compile takes

A session starts with some fuel, and all that its guest does goes off that. An allocator that hands
anything over takes two units at least, and the entry point begins only with more than one.

* `Guest.Spends`: no function of a guest gives fuel back, and a value costs two units;
* `Engine.spends_of_plain`: that is so for every module that runs by its own code;
* `Session.Costs`, `Session.Needs`: how much less an action leaves, and without how much it fails;
* `Pipeline.fuelNeeded_le_of_decoded`: with less than that, no run comes to a result.
-/

namespace CompilerHost

/-! ## Functions of a guest -/

section Functions

variable {σ τ : Type}

/-- A function is exported, or is what the guest starts with. -/
inductive Guest.HasFunction (g : Guest σ) (f : Function σ) : Prop
  | exported (name : String) (h : (name, .function f) ∈ g.exports)
  | started (h : g.start = some (.own f))

/-- Where a guest remembers more, its functions do what they did. -/
theorem Guest.hasFunction_within {g : Guest σ} {get : τ → σ} {set : τ → σ → τ} {whole : τ}
    {f : Function τ} (h : (g.within get set whole).HasFunction f) :
    ∃ own, g.HasFunction own ∧ f = own.within get set := by
  cases h with
  | exported name hmem =>
      obtain ⟨⟨name', e⟩, hmem', hsame⟩ := List.mem_map.1 hmem
      obtain ⟨rfl, hwithin⟩ := Prod.mk.inj hsame
      cases e with
      | function own =>
          obtain rfl := Export.function.inj hwithin
          exact ⟨own, .exported name' hmem', rfl⟩
      | memory => cases hwithin
      | other => cases hwithin
  | started hstart =>
      obtain ⟨start, hstart', hwithin⟩ := Option.map_eq_some_iff.1 hstart
      cases start with
      | own own =>
          obtain rfl := Start.own.inj hwithin
          exact ⟨own, .started hstart', rfl⟩
      | host call => cases hwithin

/-- The functions of a module's guest are those of its program. -/
theorem Binary.Module.function?_of_hasFunction {m : Module} {f : Function State}
    (h : m.guest.HasFunction f) : ∃ index, m.program.function? index = some f := by
  cases h with
  | exported name hmem =>
      obtain ⟨e, _, hsame⟩ := List.mem_map.1 hmem
      have hexported : m.program.exported e = .function f := (Prod.mk.inj hsame).2
      unfold Program.exported at hexported
      split at hexported
      · cases hfunction : m.program.function? e.index with
        | none =>
            rw [hfunction] at hexported
            cases hexported
        | some own =>
            rw [hfunction] at hexported
            obtain rfl := Export.function.inj hexported
            exact ⟨e.index, hfunction⟩
      · split at hexported
        · cases hexported
        · cases hexported
  | started hstart =>
      obtain ⟨index, _, hstart⟩ := Option.bind_eq_some_iff.1 hstart
      unfold Program.startAt? at hstart
      split at hstart
      · cases hstart
      · obtain ⟨own, hown, hsame⟩ := Option.map_eq_some_iff.1 hstart
        obtain rfl := Start.own.inj hsame
        exact ⟨index, hown⟩

end Functions

/-! ## Guests that spend -/

section Spending

variable {σ τ : Type}

/-- A function never leaves more fuel than there was, and at least two units less where it hands
over anything but zero. -/
structure Function.Spends (f : Function σ) : Prop where
  fuel_le : ∀ args live, (f.run args live).final.fuel.toNat ≤ live.fuel.toNat
  value : ∀ args live result, args.length = f.type.params.length → 1 < live.fuel.toNat →
    (f.run args live).ending = .ok result → result ≠ 0 →
    (f.run args live).final.fuel.toNat + 2 ≤ live.fuel.toNat

/-- All functions of a guest spend. -/
structure Guest.Spends (g : Guest σ) : Prop where
  exports : ∀ named ∈ g.exports, ∀ f, named.2 = .function f → f.Spends
  start : ∀ f, g.start = some (.own f) → f.Spends

theorem Guest.spends_iff {g : Guest σ} : g.Spends ↔ ∀ f, g.HasFunction f → f.Spends := by
  constructor
  · intro h f hf
    cases hf with
    | exported name hmem => exact h.exports _ hmem f rfl
    | started hstart => exact h.start f hstart
  · intro h
    refine ⟨?_, fun f hstart => h f (.started hstart)⟩
    rintro ⟨name, e⟩ hmem f rfl
    exact h f (.exported name hmem)

theorem Guest.Spends.of_export {g : Guest σ} (h : g.Spends) {name : String} {f : Function σ}
    (hexport : g.export? name = some (.function f)) : f.Spends :=
  h.exports _ (Guest.mem_exports_of_export? hexport) f rfl

/-- A function spends the same where the guest remembers more. -/
theorem Function.Spends.within {f : Function σ} (h : f.Spends) (get : τ → σ)
    (set : τ → σ → τ) : (f.within get set).Spends where
  fuel_le := fun args live => h.fuel_le args (live.part get)
  value := fun args live result => h.value args (live.part get) result

theorem Guest.Spends.within {g : Guest σ} (h : g.Spends) (get : τ → σ) (set : τ → σ → τ)
    (whole : τ) : (g.within get set whole).Spends := by
  rw [Guest.spends_iff] at h ⊢
  intro f hf
  obtain ⟨own, hown, rfl⟩ := Guest.hasFunction_within hf
  exact (h own hown).within get set

end Spending

namespace Binary

theorem Program.asFunction_run (p : Program) (f : Callee) (args : List UInt32)
    (live : Instance State) : (p.asFunction f).run args live = p.run f (args.map (·.toNat)) live :=
  rfl

theorem Program.spends_asFunction (p : Program) (f : Callee) : (p.asFunction f).Spends where
  fuel_le := by
    intro args live
    rw [asFunction_run]
    exact p.fuel_run_le f _ live
  value := by
    intro args live result hargs hfuel hok hresult
    rw [asFunction_run] at hok ⊢
    have hlength : (args.map (·.toNat)).length = f.type.params.length := by
      rw [List.length_map]
      exact hargs
    exact fuel_run_of_value hlength hfuel hok hresult

theorem Program.spends_of_function? {p : Program} {index : Nat} {f : Function State}
    (h : p.function? index = some f) : f.Spends := by
  obtain ⟨callee, _, rfl⟩ := Option.map_eq_some_iff.1 h
  exact p.spends_asFunction callee

/-- A module spends as its machine does. -/
theorem Module.spends_guest (m : Module) : m.guest.Spends := by
  rw [Guest.spends_iff]
  intro f hf
  obtain ⟨index, hfunction⟩ := Module.function?_of_hasFunction hf
  exact Program.spends_of_function? hfunction

end Binary

namespace Engine

/-- Whether a binary is nothing but a module: there is no script in it. -/
def IsPlain (bytes : ByteArray) : Prop :=
  ∀ sections, Binary.sections? (bytes.toList.drop Binary.headerBytes) = some sections →
    sections.findSome? scriptIn? = none

/-- What the engine makes of a plain binary is what its module is. -/
theorem module_of_plain {bytes : ByteArray} (hplain : IsPlain bytes) {g : Guest State}
    (h : standard bytes = some g) : ∃ m, g = ofModule m := by
  unfold standard at h
  split at h
  · obtain ⟨sections, hsections, hguest⟩ := Option.bind_eq_some_iff.1 h
    rw [ofSections?, hplain sections hsections] at hguest
    obtain ⟨m, _, rfl⟩ := Option.map_eq_some_iff.1 hguest
    exact ⟨m, rfl⟩
  · cases h

theorem spends_of_plain {bytes : ByteArray} (hplain : IsPlain bytes) {g : Guest State}
    (h : standard bytes = some g) : g.Spends := by
  obtain ⟨m, rfl⟩ := module_of_plain hplain h
  exact m.spends_guest.within _ _ _

end Engine

/-! ## Actions that take fuel -/

namespace Session

variable {σ α β : Type}

/-- An action that succeeds leaves the guest as it is, and so much less fuel. -/
def Costs (n : Nat) (x : Action (Session σ) GuestFault α) : Prop :=
  ∀ s a, s.guest.Spends → (x s).result = .ok a →
    (x s).state.guest = s.guest ∧ (x s).state.live.fuel.toNat + n ≤ s.live.fuel.toNat

/-- An action fails with less fuel than that. -/
def Needs (n : Nat) (x : Action (Session σ) GuestFault α) : Prop :=
  ∀ s a, s.guest.Spends → (x s).result = .ok a → n ≤ s.live.fuel.toNat

namespace Costs

theorem of_free {x : Action (Session σ) GuestFault α}
    (h : ∀ s, (x s).state.guest = s.guest ∧ (x s).state.live.fuel = s.live.fuel) : Costs 0 x := by
  intro s a _ _
  obtain ⟨hguest, hfuel⟩ := h s
  exact ⟨hguest, by rw [hfuel]; exact Nat.le_refl _⟩

theorem pure (a : α) : Costs 0 (Pure.pure a : Action (Session σ) GuestFault α) :=
  of_free fun _ => ⟨rfl, rfl⟩

theorem throw (n : Nat) (e : GuestFault) :
    Costs n (MonadExcept.throw e : Action (Session σ) GuestFault α) := by
  intro s a _ h
  cases h

theorem ofExcept (r : Except GuestFault α) :
    Costs 0 (Action.ofExcept r : Action (Session σ) GuestFault α) := by
  cases r with
  | ok a => exact pure a
  | error e => exact throw 0 e

theorem emit (e : Event) : Costs 0 (Action.emit e : Action (Session σ) GuestFault Unit) :=
  of_free fun _ => ⟨rfl, rfl⟩

variable {n m : Nat} {x : Action (Session σ) GuestFault α}
  {f : α → Action (Session σ) GuestFault β}

theorem bind (hx : Costs n x) (hf : ∀ a, Costs m (f a)) : Costs (n + m) (x >>= f) := by
  intro s b hs h
  obtain ⟨a, ha, hb⟩ := Action.ok_of_bind_ok h
  obtain ⟨hguest, hfuel⟩ := hx s a hs ha
  obtain ⟨hguest', hfuel'⟩ := hf a _ b (hguest ▸ hs) hb
  rw [Action.bind_of_ok f ha, Ended.behind_state]
  exact ⟨hguest'.trans hguest, by omega⟩

theorem mono {k : Nat} (hx : Costs n x) (hle : k ≤ n) : Costs k x := by
  intro s a hs h
  obtain ⟨hguest, hfuel⟩ := hx s a hs h
  exact ⟨hguest, by omega⟩

/-- What is needed behind something that costs is needed on top of that. -/
theorem needs (hx : Costs n x) (hf : ∀ a, Needs m (f a)) : Needs (n + m) (x >>= f) := by
  intro s b hs h
  obtain ⟨a, ha, hb⟩ := Action.ok_of_bind_ok h
  obtain ⟨hguest, hfuel⟩ := hx s a hs ha
  have hrest := hf a _ b (hguest ▸ hs) hb
  omega

end Costs

theorem Needs.bind {n : Nat} {x : Action (Session σ) GuestFault α}
    {f : α → Action (Session σ) GuestFault β} (hx : Needs n x) : Needs n (x >>= f) := by
  intro s b hs h
  obtain ⟨a, ha, _⟩ := Action.ok_of_bind_ok h
  exact hx s a hs ha

theorem Needs.throw (n : Nat) (e : GuestFault) :
    Needs n (MonadExcept.throw e : Action (Session σ) GuestFault α) := by
  intro s a _ h
  cases h

/-! ## Calls -/

/-- What the host does for a guest takes nothing. -/
theorem costs_answer (call : HostCall) :
    Costs 0 (answer call : Action (Session σ) GuestFault Unit) := by
  cases call with
  | flush => exact .of_free fun _ => ⟨rfl, rfl⟩
  | write start length =>
      refine .of_free fun s => ?_
      rw [answer, Action.get_bind_apply]
      split
      · cases s.live.memory.readTextLossy start length.toNat with
        | error access => exact ⟨rfl, rfl⟩
        | ok read =>
            obtain ⟨text, repaired⟩ := read
            cases repaired with
            | true => exact ⟨rfl, rfl⟩
            | false => exact ⟨rfl, rfl⟩
      · exact ⟨rfl, rfl⟩

theorem one_lt_of_call {f : Function σ} {args : List UInt32} {s : Session σ} {result : UInt32}
    (h : (call f args s).result = .ok result) : 1 < s.live.fuel.toNat := by
  have hfuel := (ending_of_call h).1
  rw [UInt64.lt_iff_toNat_lt] at hfuel
  exact hfuel

theorem needs_call (f : Function σ) (args : List UInt32) : Needs 2 (call f args) := by
  intro s result _ h
  exact one_lt_of_call h

theorem costs_call {f : Function σ} (hf : f.Spends) (args : List UInt32) :
    Costs 0 (call f args) := by
  intro s result _ h
  refine ⟨(keeps_call f args s).guest, ?_⟩
  rw [(ending_of_call h).2.2]
  exact hf.fuel_le args s.live

/-- An allocator that hands anything over takes two units. -/
theorem costs_allocate (name : String) (size : UInt32) :
    Costs 2 (allocate name size : Action (Session σ) GuestFault Region) := by
  intro s region hs h
  rw [allocate, Action.get_bind_apply] at h ⊢
  cases hallocator : s.guest.allocator? name with
  | error e =>
      rw [hallocator] at h
      cases h
  | ok f =>
      rw [hallocator] at h
      rw [Action.ofExcept_ok, Action.pure_bind_apply] at h ⊢
      obtain ⟨hexport, htype⟩ := Guest.allocator?_ok_iff.1 hallocator
      split at h
      · rename_i hsize
        rw [if_pos hsize]
        obtain ⟨result, hresult, hregion⟩ := Action.ok_of_bind_ok h
        rw [Action.bind_of_ok _ hresult, Ended.behind_state]
        obtain ⟨_, hending, hlive⟩ := ending_of_call hresult
        by_cases hnull : result = 0
        · rw [if_pos hnull] at hregion
          cases hregion
        · rw [if_neg hnull]
          refine ⟨(keeps_call f [size] s).guest, ?_⟩
          show (call f [size] s).state.live.fuel.toNat + 2 ≤ s.live.fuel.toNat
          rw [hlive]
          refine (hs.of_export hexport).value [size] s.live result ?_ (one_lt_of_call hresult)
            hending hnull
          rw [htype]
          rfl
      · cases h

theorem costs_writeRegion (r : Region) (data : ByteArray) :
    Costs 0 (writeRegion r data : Action (Session σ) GuestFault Unit) := by
  refine .of_free fun s => ?_
  rw [writeRegion, Action.get_bind_apply]
  cases s.live.memory.writeRegion r data with
  | ok memory => exact ⟨rfl, rfl⟩
  | error e => exact ⟨rfl, rfl⟩

theorem costs_place (allocator : String) (data : ByteArray) (length : Nat) :
    Costs 2 (place allocator data length : Action (Session σ) GuestFault Region) := by
  unfold place
  split
  · exact (costs_allocate _ _).bind fun region =>
      (costs_writeRegion region data).bind fun _ => .pure region
  · exact .throw 2 _

theorem costs_encode (text : String) :
    Costs 2 (encode text : Action (Session σ) GuestFault EncodedText) :=
  (costs_place Guest.allocatorExport (text.toUTF8.push 0) text.utf8ByteSize).bind fun region =>
    .pure (EncodedText.mk region)

theorem costs_prepareInputs (options : Options) (source : String) :
    Costs 4 (prepareInputs options source :
      Action (Session σ) GuestFault (EncodedText × EncodedText)) := by
  refine (costs_encode _).bind (m := 2) fun optionsText => ?_
  refine (costs_encode _).bind (m := 0) fun sourceText => ?_
  exact (Costs.emit _).bind fun _ => .pure (optionsText, sourceText)

theorem costs_loadFilesystem (image : ByteArray) :
    Costs 2 (loadFilesystem image : Action (Session σ) GuestFault Region) := by
  refine (costs_place _ _ _).bind (m := 0) fun region => ?_
  refine (Costs.emit _).bind (m := 0) fun _ => ?_
  exact (Costs.of_free fun _ => ⟨rfl, rfl⟩).bind fun _ => .pure region

/-! ## Compiles -/

theorem costs_entryPoint : Costs 0 (entryPoint : Action (Session σ) GuestFault (Function σ)) := by
  refine .of_free fun s => ?_
  rw [entryPoint, Action.get_bind_apply]
  cases s.guest.function? compileExport with
  | none => exact ⟨rfl, rfl⟩
  | some f => exact ⟨rfl, rfl⟩

theorem needs_enter (f : Function σ) (args : List Address) : Needs 2 (enter f args) := by
  unfold enter
  split
  · exact .throw 2 _
  · split
    · exact .throw 2 _
    · exact needs_call f _

theorem costs_warned (told : Prop) [Decidable told] (e : Event) :
    Costs 0 (unless told do Action.emit e : Action (Session σ) GuestFault Unit) := by
  split
  · exact .pure ()
  · exact .emit e

/-- However the inputs go in, the entry point is called behind them. -/
theorem needs_enterWith (form : EntryForm) (f : Function σ) (options : Options) (source : String) :
    Needs 2 (Watched.enterWith form f options source).action := by
  cases form with
  | optionsAndSource =>
      simp only [Watched.enterWith, Watched.action_bind, Watched.action_prepareInputs,
        Watched.action_enter]
      refine ((costs_prepareInputs options source).mono (Nat.zero_le 4)).needs (m := 2) ?_
      exact fun texts => needs_enter f _
  | source =>
      simp only [Watched.enterWith, Watched.action_bind, Watched.action_alone,
        Watched.action_encode, Watched.action_enter]
      refine (costs_warned _ _).needs (m := 2) fun _ => ?_
      exact ((costs_encode source).mono (Nat.zero_le 2)).needs fun text => needs_enter f _
  | noInputs =>
      simp only [Watched.enterWith, Watched.action_bind, Watched.action_alone,
        Watched.action_enter]
      exact (costs_warned _ _).needs (m := 2) fun _ => needs_enter f _

theorem needs_compile (options : Options) (source : String) :
    Needs 2 (compile options source : Action (Session σ) GuestFault Address) := by
  rw [← Watched.action_compile]
  simp only [Watched.compile, Watched.action_bind, Watched.action_alone]
  have hform : Costs 0 (entryForm : Action (Session σ) GuestFault EntryForm) :=
    costs_entryPoint.bind fun f => .ofExcept (formOf? f)
  refine hform.needs (m := 2) fun form => ?_
  refine (Costs.emit _).needs (m := 2) fun _ => ?_
  refine costs_entryPoint.needs (m := 2) fun f => ?_
  exact (needs_enterWith form f options source).bind

end Session

/-! ## Runs -/

namespace Loaded

variable {σ : Type} {l : Loaded σ} {session : Session σ}

/-- A guest that starts gets no fuel back. -/
theorem fuel_of_start (hspends : l.guest.Spends) {fresh : Session σ}
    (hfresh : fresh.guest = l.guest) (h : (l.start fresh ()).result = .ok session) :
    session.live.fuel.toNat ≤ fresh.live.fuel.toNat := by
  have hbegun : fresh.guest.Spends := hfresh ▸ hspends
  rw [start] at h
  cases hstart : l.guest.start with
  | none =>
      rw [hstart] at h
      obtain rfl := Except.ok.inj h
      exact Nat.le_refl _
  | some start =>
      rw [hstart] at h
      cases start with
      | own f =>
          obtain ⟨result, hcall, rfl⟩ := Action.ok_of_finalState_ok h
          exact (Session.costs_call (hspends.start f hstart) [] fresh result hbegun hcall).2
      | host call =>
          obtain ⟨result, hanswer, rfl⟩ := Action.ok_of_finalState_ok h
          exact (Session.costs_answer call fresh result hbegun hanswer).2

/-- A session opens with the fuel of its guest, or less. -/
theorem fuel_of_instantiate (hspends : l.guest.Spends) {log : Log}
    (h : (l.instantiate log ()).result = .ok session) :
    session.live.fuel.toNat ≤ l.fuel.toNat := by
  rw [instantiate_eq] at h
  obtain ⟨first, _, hopened⟩ := Action.ok_of_bind_ok h
  obtain ⟨started, hstarted, hsettled⟩ := Action.ok_of_bind_ok hopened
  obtain rfl := (l.settle_keeps started).2 session hsettled
  exact fuel_of_start hspends rfl hstarted

end Loaded

namespace Pipeline

variable {σ : Type}

/-- The least fuel that a compile can do with: an image takes as much as the entry point. -/
def fuelNeeded (image : Option α) : Nat := if image.isSome then 4 else 2

/-- With less fuel than that, no run comes to a result. -/
theorem fuelNeeded_le_of_decoded {p : Pipeline σ} (hspends : p.loaded.guest.Spends)
    {request : Request} {log : Log} {outcome : Outcome}
    (h : p.decoded request log = .ok outcome) :
    fuelNeeded p.image ≤ p.loaded.fuel.toNat := by
  cases hopen : (p.loaded.instantiate log ()).result with
  | error cause =>
      rw [decoded_of_not_opened request hopen] at h
      cases h
  | ok session =>
      rw [decoded_of_opened request hopen] at h
      have hguest := (p.loaded.opens_instantiate log).guest session hopen
      have hcompile : Session.Needs (fuelNeeded p.image) (p.compileIn request) := by
        have hrest : Session.Needs (σ := σ) 2 (Session.compile request.options request.source >>=
            Session.outcomeAt) := (Session.needs_compile _ _).bind
        unfold compileIn
        cases p.image with
        | none => exact hrest
        | some image => exact (Session.costs_loadFilesystem image).needs fun _ => hrest
      have hneeded := hcompile session outcome (hguest ▸ hspends) h
      exact Nat.le_trans hneeded (Loaded.fuel_of_instantiate hspends hopen)

end Pipeline

end CompilerHost
