import CompilerHost.Proofs.Budget

/-! # Calls to the host

Code has no way to the host but through the functions that its module imports: a machine calls the
host only by functions of the host that its program has, and a program has only those that were
imported.

* `Program.makes_run`: all calls of a run are ones that the program makes;
* `Guest.CallsImports`, `Engine.callsImports_of_plain`: a guest that a plain module is makes no call
  to anything that it does not import.
-/

namespace CompilerHost

/-- The module and the name under which guests import what they call. -/
def HostCall.asked : HostCall → String × String
  | .write .. => (hostModule, logWriteImport)
  | .flush => (hostModule, logFlushImport)

namespace Binary

/-- All calls of a run are ones that the program makes. -/
theorem Program.makes_run {p : Program} {f : Callee} (hf : f ∈ p.functions) (args : List Nat)
    (live : Instance State) : ∀ c ∈ (p.run f args live).calls, p.Makes c.1 := by
  obtain ⟨last, ending, hleads, hrun⟩ := p.leads_run f args live
  obtain ⟨_, hcalls⟩ := hleads.follows ((Machine.begun f args live).follows_call f)
  rw [hrun]
  intro c hc
  have hc : c ∈ last.calls := List.mem_reverse.1 hc
  rcases hcalls c hc with hnone | hmade | hmakes
  · cases hnone
  · exact ⟨f, hf, hmade⟩
  · exact hmakes

end Binary

/-! ## Guests -/

section Guests

variable {σ τ : Type} {allowed : HostCall → Prop}

/-- A function makes only some calls. -/
def Function.CallsOnly (f : Function σ) (allowed : HostCall → Prop) : Prop :=
  ∀ args live, ∀ c ∈ (f.run args live).calls, allowed c.1

/-- A guest makes only some calls, in its functions and when it starts. -/
structure Guest.CallsOnly (g : Guest σ) (allowed : HostCall → Prop) : Prop where
  functions : ∀ f, g.HasFunction f → f.CallsOnly allowed
  host : ∀ call, g.start = some (.host call) → allowed call

/-- The guest imports the function that is called. -/
def Guest.Imports (g : Guest σ) (call : HostCall) : Prop := call.asked ∈ g.manifest.imports

/-- A guest calls nothing that it does not import. -/
def Guest.CallsImports (g : Guest σ) : Prop := g.CallsOnly g.Imports

theorem Guest.CallsOnly.mono {g : Guest σ} {more : HostCall → Prop} (h : g.CallsOnly allowed)
    (hmore : ∀ call, allowed call → more call) : g.CallsOnly more where
  functions := fun f hf args live c hc => hmore c.1 (h.functions f hf args live c hc)
  host := fun call hcall => hmore call (h.host call hcall)

/-- A function makes the same calls where the guest remembers more. -/
theorem Function.CallsOnly.within {f : Function σ} (h : f.CallsOnly allowed) (get : τ → σ)
    (set : τ → σ → τ) : (f.within get set).CallsOnly allowed := by
  intro args live c hc
  obtain ⟨made, hmade, rfl⟩ := List.mem_map.1 hc
  exact h args (live.part get) made hmade

theorem Guest.CallsOnly.within {g : Guest σ} (h : g.CallsOnly allowed) (get : τ → σ)
    (set : τ → σ → τ) (whole : τ) : (g.within get set whole).CallsOnly allowed where
  functions := by
    intro f hf
    obtain ⟨own, hown, rfl⟩ := Guest.hasFunction_within hf
    exact (h.functions own hown).within get set
  host := by
    intro call hcall
    obtain ⟨start, hstart, hwithin⟩ := Option.map_eq_some_iff.1 hcall
    cases start with
    | own f => cases hwithin
    | host call' =>
        obtain rfl := Start.host.inj hwithin
        exact h.host call' hstart

end Guests

namespace Binary

theorem Program.callsOnly_of_function? {p : Program} {index : Nat} {f : Function State}
    (h : p.function? index = some f) : f.CallsOnly p.Makes := by
  obtain ⟨callee, hcallee, rfl⟩ := Option.map_eq_some_iff.1 h
  intro args live c hc
  exact Program.makes_run (Array.mem_of_getElem? hcallee) _ live c hc

/-- A module makes the calls that its program makes. -/
theorem Module.callsOnly_guest (m : Module) : m.guest.CallsOnly m.program.Makes where
  functions := by
    intro f hf
    obtain ⟨index, hfunction⟩ := Module.function?_of_hasFunction hf
    exact Program.callsOnly_of_function? hfunction
  host := by
    intro call hcall
    obtain ⟨index, _, hstart⟩ := Option.bind_eq_some_iff.1 hcall
    unfold Program.startAt? at hstart
    split at hstart
    · rename_i make hbody
      obtain rfl := Start.host.inj (Option.some.inj hstart)
      obtain ⟨callee, hcallee, hmake⟩ := Option.map_eq_some_iff.1 hbody
      exact ⟨callee, Array.mem_of_getElem? hcallee, ⟨make, [], hmake, rfl⟩⟩
    · obtain ⟨own, _, hsame⟩ := Option.map_eq_some_iff.1 hstart
      cases hsame

/-- What is imported under a name calls the host's function of that name, or nothing. -/
theorem asked_of_importedBody {module name : String} {make : List Nat → HostCall}
    (h : Module.importedBody module name = .host make) (args : List Nat) :
    (make args).asked = (module, name) := by
  unfold Module.importedBody at h
  split at h
  · rename_i hflush
    obtain rfl := Body.host.inj h
    rw [hflush.1, hflush.2]
    rfl
  · split at h
    · rename_i hwrite
      obtain rfl := Body.host.inj h
      rw [hwrite.1, hwrite.2]
      rfl
    · cases h

/-- All functions of the host's that a program has were imported. -/
theorem Module.imports_of_makes {m : Module} {call : HostCall} (h : m.program.Makes call) :
    call.asked ∈ m.manifest.imports := by
  obtain ⟨f, hf, ⟨make, args, hbody, rfl⟩⟩ := h
  have hcallee : f ∈ m.callees := List.mem_toArray.1 hf
  -- the imported functions come first, and those behind them have code
  rcases List.mem_append.1 hcallee with himported | hown
  · obtain ⟨i, hi, hsome⟩ := List.mem_filterMap.1 himported
    split at hsome
    · obtain rfl := Option.some.inj hsome
      rw [asked_of_importedBody hbody]
      exact List.mem_map_of_mem hi
    · cases hsome
  · rw [← List.map_uncurry_zip_eq_zipWith] at hown
    obtain ⟨pair, _, rfl⟩ := List.mem_map.1 hown
    cases hbody

end Binary

namespace Engine

/-- A guest that the engine makes of the binary calls nothing that it does not import. -/
def CallsImports {σ : Type} (engine : Engine σ) (bytes : ByteArray) : Prop :=
  ∀ guest, engine bytes = some guest → guest.CallsImports

theorem callsImports_ofModule (m : Binary.Module) : (ofModule m).CallsImports := by
  refine (m.callsOnly_guest.within State.module _ _).mono ?_
  intro call hmakes
  rw [Guest.Imports, manifest_ofModule]
  exact Binary.Module.imports_of_makes hmakes

/-- A plain module is what its code is, and code has no other way out. -/
theorem callsImports_of_plain {bytes : ByteArray} (hplain : IsPlain bytes) :
    standard.CallsImports bytes := by
  intro guest hguest
  obtain ⟨m, rfl⟩ := module_of_plain hplain hguest
  exact callsImports_ofModule m

end Engine

end CompilerHost
