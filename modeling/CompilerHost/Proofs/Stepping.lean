import CompilerHost.Proofs.Halting

/-! # What one step does beside the code

A machine has fuel, and it has called the host. Whatever a step does otherwise, it gives no fuel
back, and it makes one call at most, by a function of the host that the program has.

* `Progress.Follows`: what is left of the fuel, and which calls there are;
* `Machine.follows_step`: that one step leaves, with one lemma for each part of a step;
* `Progress.Leads.follows`: that all steps leave.
-/

namespace CompilerHost.Binary

/-- A function of the host's makes the call. -/
def Callee.Makes (f : Callee) (call : HostCall) : Prop :=
  ∃ make args, f.body = .host make ∧ call = make args

/-- The program has a function of the host's that makes the call. -/
def Program.Makes (p : Program) (call : HostCall) : Prop := ∃ f ∈ p.functions, f.Makes call

namespace Progress

/-- No more than so much fuel is left, unless there was none anyhow. -/
def Within (fuel : Int) : Progress → Prop
  | .running m => m.fuel ≤ fuel
  | .ended m _ => m.fuel ≤ max fuel 0

/-- The calls that were made by then, the latest first. -/
def calls : Progress → List (HostCall × Instance State)
  | .running m => m.calls
  | .ended m _ => m.calls

/-- Beside the calls that were made before there is one at most, of those that may be made. -/
def Adds (may : HostCall → Prop) (before : List (HostCall × Instance State))
    (progress : Progress) : Prop :=
  progress.calls = before ∨ ∃ call live, may call ∧ progress.calls = (call, live) :: before

/-- What follows on some fuel and some calls: no more fuel, and one more call at most. -/
structure Follows (progress : Progress) (may : HostCall → Prop) (fuel : Int)
    (before : List (HostCall × Instance State)) : Prop where
  within : progress.Within fuel
  adds : progress.Adds may before

variable {may : HostCall → Prop} {fuel : Int} {before : List (HostCall × Instance State)}
  {progress : Progress}

theorem Within.mono {fuel' : Int} (h : progress.Within fuel) (hle : fuel ≤ fuel') :
    progress.Within fuel' := by
  cases progress with
  | running m => exact Int.le_trans h hle
  | ended m ending => exact Int.le_trans h (by omega)

theorem Adds.of_mem (h : progress.Adds may before) {c : HostCall × Instance State}
    (hc : c ∈ progress.calls) : c ∈ before ∨ may c.1 := by
  rcases h with hsame | ⟨call, live, hmay, hcalls⟩
  · rw [hsame] at hc
    exact .inl hc
  · rw [hcalls] at hc
    rcases List.mem_cons.1 hc with rfl | hbefore
    · exact .inr hmay
    · exact .inl hbefore

namespace Follows

/-- Neither fuel nor calls are touched. -/
theorem untouched (m : Machine) : (Progress.running m).Follows may m.fuel m.calls :=
  ⟨Int.le_refl m.fuel, .inl rfl⟩

theorem of_quiet {m : Machine} (h : progress.Quiet m) : progress.Follows may m.fuel m.calls := by
  cases progress with
  | running next => exact ⟨Int.le_of_eq h.fuel, .inl h.calls⟩
  | ended last ending =>
      refine ⟨?_, .inl h.2⟩
      show last.fuel ≤ max m.fuel 0
      rw [h.1]
      exact Int.le_max_left _ _

theorem mono {fuel' : Int} (h : progress.Follows may fuel before) (hle : fuel ≤ fuel') :
    progress.Follows may fuel' before :=
  ⟨h.within.mono hle, h.adds⟩

theorem allow {more : HostCall → Prop} (h : progress.Follows may fuel before)
    (hmore : ∀ call, may call → more call) : progress.Follows more fuel before := by
  refine ⟨h.within, ?_⟩
  rcases h.adds with hsame | ⟨call, live, hmay, hcalls⟩
  · exact .inl hsame
  · exact .inr ⟨call, live, hmore call hmay, hcalls⟩

/-- What follows without a call follows on what came before. -/
theorem behind {m : Machine} (h : (Progress.running m).Follows may fuel before)
    (hrest : progress.Follows (fun _ => False) m.fuel m.calls) :
    progress.Follows may fuel before := by
  refine ⟨hrest.within.mono h.within, ?_⟩
  rcases hrest.adds with hsame | ⟨_, _, hnone, _⟩
  · unfold Adds
    rw [hsame]
    exact h.adds
  · exact hnone.elim

end Follows

end Progress

namespace Machine

open Progress (Follows)

variable {p : Program} {may : HostCall → Prop} (m : Machine)

theorem follows_trap (t : Trap) : (m.trap t).Follows may m.fuel m.calls :=
  ⟨Int.le_max_left _ _, .inl rfl⟩

theorem follows_refuel : m.refuel.Follows may m.fuel m.calls := by
  unfold refuel
  split
  · exact ⟨Int.le_max_right _ _, .inl rfl⟩
  · exact .untouched m

theorem follows_finish : m.finish.Follows may m.fuel m.calls := by
  unfold finish
  split
  · exact ⟨Int.le_max_left _ _, .inl rfl⟩
  · exact .untouched _

theorem follows_branch (depth : Nat) : (m.branch depth).Follows may m.fuel m.calls := by
  unfold branch
  split
  · exact m.follows_finish
  · exact .untouched _

theorem follows_close : m.close.Follows may m.fuel m.calls := by
  unfold close
  split
  · exact m.follows_finish
  · exact .untouched _

/-- To begin, a function takes a unit; a function of the host's takes nothing, and is a call. -/
theorem follows_call (f : Callee) : (m.call f).Follows f.Makes m.fuel m.calls := by
  cases hbody : f.body with
  | host make =>
      rw [call_host m hbody]
      exact ⟨Int.le_refl m.fuel, .inr ⟨_, _, ⟨make, _, hbody, rfl⟩, rfl⟩⟩
  | code extra body =>
      unfold call
      simp only [hbody]
      split
      · exact follows_trap _ _
      · exact (follows_refuel _).mono (Int.sub_le_self _ Int.one_nonneg)

theorem follows_callInstead (f : Callee) :
    (m.callInstead f).Follows f.Makes m.fuel m.calls := by
  have hcall := m.follows_call f
  cases hbody : f.body with
  | host make =>
      rw [call_host m hbody] at hcall
      unfold callInstead
      simp only [hbody, call_host m hbody]
      -- the call is over at once, and only then is the function left that made it
      exact hcall.behind (follows_finish _)
  | code extra body =>
      unfold callInstead
      simp only [hbody]
      exact (follows_refuel _).mono (Int.sub_le_self _ Int.one_nonneg)

theorem follows_withEntry (type table : Nat) {go : Machine → Callee → Progress}
    (hgo : ∀ m f, (go m f).Follows f.Makes m.fuel m.calls) :
    (m.withEntry p type table go).Follows p.Makes m.fuel m.calls := by
  unfold withEntry
  split
  · exact follows_trap _ _
  · simp only
    split
    · exact follows_trap _ _
    · exact follows_trap _ _
    · split
      · exact follows_trap _ _
      · rename_i f hf
        split
        · exact (hgo _ f).allow fun call hcall => ⟨f, Array.mem_of_getElem? hf, hcall⟩
        · exact follows_trap _ _

theorem follows_getD_map {index : Nat} {go : Callee → Progress}
    (hgo : ∀ f, (go f).Follows f.Makes m.fuel m.calls) :
    ((p.functions[index]?.map go).getD m.stuck).Follows p.Makes m.fuel m.calls := by
  cases hf : p.functions[index]? with
  | none => exact follows_trap _ _
  | some f => exact (hgo f).allow fun call hcall => ⟨f, Array.mem_of_getElem? hf, hcall⟩

/-- The cases are those of the instructions that do more than to compute. -/
theorem follows_stepInstruction (i : Instruction) :
    (stepInstruction p m i).Follows p.Makes m.fuel m.calls := by
  unfold stepInstruction
  split
  · exact follows_trap _ _
  · exact .untouched _
  · exact follows_refuel _
  · split
    · exact follows_trap _ _
    · exact .untouched _
  · exact m.follows_branch _
  · split
    · exact follows_trap _ _
    · simp only
      split
      · exact .untouched _
      · exact follows_branch _ _
  · split
    · exact follows_trap _ _
    · exact follows_branch _ _
  · exact m.follows_finish
  · exact m.follows_getD_map m.follows_call
  · exact m.follows_withEntry _ _ follows_call
  · exact m.follows_getD_map m.follows_callInstead
  · exact m.follows_withEntry _ _ follows_callInstead
  all_goals first
    | exact .of_quiet (m.quiet_stepTable _)
    | exact .of_quiet (m.quiet_stepMemory _)
    | exact .of_quiet (m.quiet_stepPlain _)

theorem follows_step (p : Program) : (m.step p).Follows p.Makes m.fuel m.calls := by
  unfold step
  split
  · exact m.follows_close
  · refine (follows_stepInstruction _ _).mono ?_
    exact Int.sub_le_self _ (Int.natCast_nonneg _)

end Machine

/-- What steps leave of the fuel, and which calls they make. The induction is on the steps. -/
theorem Progress.Leads.follows {p : Program} {progress : Progress} {last : Machine}
    {ending : Except Trap (List Nat)} {may : HostCall → Prop} {fuel : Int}
    {before : List (HostCall × Instance State)} (h : progress.Leads p last ending)
    (hfollows : progress.Follows may fuel before) :
    last.fuel ≤ max fuel 0 ∧ ∀ c ∈ last.calls, c ∈ before ∨ may c.1 ∨ p.Makes c.1 := by
  induction h generalizing may fuel before with
  | ended =>
      refine ⟨hfollows.within, ?_⟩
      intro c hc
      rcases hfollows.adds.of_mem hc with hbefore | hmay
      · exact .inl hbefore
      · exact .inr (.inl hmay)
  | @running m h ih =>
      obtain ⟨hfuel, hcalls⟩ := ih (m.follows_step p)
      have hle : m.fuel ≤ fuel := hfollows.within
      refine ⟨Int.le_trans hfuel (by omega), ?_⟩
      intro c hc
      have hmade : c ∈ m.calls ∨ p.Makes c.1 := (hcalls c hc).imp_right or_self_iff.1
      rcases hmade with hmade | hmakes
      · exact (hfollows.adds.of_mem hmade).imp_right .inl
      · exact .inr (.inr hmakes)

end CompilerHost.Binary
