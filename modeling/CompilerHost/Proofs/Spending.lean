import CompilerHost.Proofs.Machine

/-! # What runs cost

Nothing that code does gives fuel back. A function takes some to begin with, and a value has to come
from an instruction that takes some as well, so that whoever hands over anything but nothing has
spent two units of fuel by then.

* `Machine.Bare`: there are no values anywhere, which stays so for as long as nothing is spent;
* `Machine.Thrifty`, `Progress.Leads.thrifty`: from which follows what is spent by the end;
* `Program.fuel_run_le`, `Program.fuel_run_of_value`: the same for a function as guests have it.
-/

namespace CompilerHost.Binary

/-! ## Values that cost nothing -/

/-- A function that has no values, not even below those of the blocks that it is in. -/
structure Activation.Bare (a : Activation) : Prop where
  values : a.values = []
  below : ∀ label ∈ a.labels, label.below = []

/-- There are no values anywhere. -/
structure Machine.Bare (m : Machine) : Prop where
  active : m.toActivation.Bare
  callers : ∀ a ∈ m.callers, a.Bare

/-- There are still no values, and none among the results. -/
def Progress.Bare : Progress → Prop
  | .running m => m.Bare
  | .ended _ ending => ∀ results, ending = .ok results → results = []

namespace Machine

variable {p : Program} {m : Machine}

theorem bare_trap (m : Machine) (t : Trap) : (m.trap t).Bare := by
  intro results hresults
  cases hresults

theorem Bare.refuel (h : m.Bare) : m.refuel.Bare := by
  unfold Machine.refuel
  split
  · exact bare_trap _ _
  · exact h

theorem Bare.finish (h : m.Bare) : m.finish.Bare := by
  have hnone : m.values.take m.results = [] := by rw [h.active.values, List.take_nil]
  unfold Machine.finish
  split
  · intro results hresults
    obtain rfl := Except.ok.inj hresults
    rw [hnone, List.reverse_nil]
  · rename_i caller callers hcallers
    have hwaits := h.callers
    rw [hcallers, List.forall_mem_cons] at hwaits
    refine ⟨⟨?_, hwaits.1.below⟩, hwaits.2⟩
    show m.values.take m.results ++ caller.values = []
    rw [hnone, hwaits.1.values, List.nil_append]

theorem Bare.close (h : m.Bare) : m.close.Bare := by
  unfold Machine.close
  split
  · exact h.finish
  · rename_i label labels hlabels
    have hbelow := h.active.below
    rw [hlabels, List.forall_mem_cons] at hbelow
    refine ⟨⟨?_, hbelow.2⟩, h.callers⟩
    show m.values ++ label.below = []
    rw [h.active.values, hbelow.1, List.nil_append]

theorem Bare.enter (h : m.Bare) (arity taken : Nat) (target next body : List Instruction) :
    (m.enter arity taken target next body).Bare := by
  refine ⟨⟨?_, ?_⟩, h.callers⟩
  · show m.values.take taken = []
    rw [h.active.values, List.take_nil]
  · show ∀ label ∈ _ :: m.labels, label.below = []
    rw [List.forall_mem_cons]
    refine ⟨?_, h.active.below⟩
    show m.values.drop taken = []
    rw [h.active.values, List.drop_nil]

/-- What takes no fuel gives no value. -/
theorem Bare.stepInstruction (h : m.Bare) {i : Instruction} (hfree : cost i = 0) :
    (stepInstruction p m i).Bare := by
  unfold cost at hfree
  split at hfree
  · exact h
  · show (stepPlain m .drop).Bare
    unfold stepPlain
    rw [h.active.values]
    exact bare_trap _ _
  · exact h.enter _ _ _ _ _
  · exact (h.enter _ _ _ _ _).refuel
  · exact bare_trap _ _
  · exact h.finish
  · cases hfree

end Machine

/-! ## What a value costs -/

/-- Some fuel was spent, and more than a unit unless there are no values. -/
def Machine.Thrifty (start : Int) (m : Machine) : Prop :=
  m.fuel + 2 ≤ start ∨ m.fuel + 1 ≤ start ∧ m.Bare

/-- The same, and results come with more than a unit spent. -/
def Progress.Thrifty (start : Int) : Progress → Prop
  | .running m => m.Thrifty start
  | .ended m ending => ∀ results, ending = .ok results → results ≠ [] → m.fuel + 2 ≤ start

namespace Progress

variable {progress : Progress} {start fuel : Int}

theorem Within.thrifty (h : progress.Within fuel) (hfuel : fuel + 2 ≤ start) (hstart : 2 ≤ start) :
    progress.Thrifty start := by
  cases progress with
  | running m => exact .inl (Int.le_trans (Int.add_le_add_right h 2) hfuel)
  | ended m ending =>
      intro results hresults hsome
      have hleft : m.fuel ≤ max fuel 0 := h
      omega

theorem Bare.thrifty (h : progress.Bare) (hwithin : progress.Within fuel)
    (hfuel : fuel + 1 ≤ start) : progress.Thrifty start := by
  cases progress with
  | running m => exact .inr ⟨Int.le_trans (Int.add_le_add_right hwithin 1) hfuel, h⟩
  | ended m ending =>
      intro results hresults hsome
      exact absurd (h results hresults) hsome

end Progress

namespace Machine

variable {p : Program} {m : Machine} {start : Int}

theorem Thrifty.step (h : m.Thrifty start) (hstart : 2 ≤ start) : (m.step p).Thrifty start := by
  have hwithin := (m.follows_step p).within
  rcases h with hspent | ⟨hbegun, hbare⟩
  · exact hwithin.thrifty hspent hstart
  · unfold Machine.step at hwithin ⊢
    split
    · exact hbare.close.thrifty (@follows_close p.Makes m).within hbegun
    · rename_i i rest hcode
      -- the machine without the instruction in front has no values either
      have hleft : Machine.Bare { m with
          toActivation := { m.toActivation with code := rest }, fuel := m.fuel - cost i } :=
        ⟨⟨hbare.active.values, hbare.active.below⟩, hbare.callers⟩
      have hwithin := (follows_stepInstruction (p := p) { m with
        toActivation := { m.toActivation with code := rest }, fuel := m.fuel - cost i } i).within
      by_cases hfree : cost i = 0
      · refine (hleft.stepInstruction hfree).thrifty hwithin ?_
        show m.fuel - cost i + 1 ≤ start
        omega
      · refine hwithin.thrifty ?_ hstart
        show m.fuel - cost i + 2 ≤ start
        omega

end Machine

/-- The induction is on the steps, each of which leaves the machine thrifty or ends. -/
theorem Progress.Leads.thrifty {p : Program} {progress : Progress} {last : Machine}
    {ending : Except Trap (List Nat)} {start : Int} (h : progress.Leads p last ending)
    (hthrifty : progress.Thrifty start) (hstart : 2 ≤ start) {results : List Nat}
    (hresults : ending = .ok results) (hsome : results ≠ []) : last.fuel + 2 ≤ start := by
  induction h with
  | ended => exact hthrifty results hresults hsome
  | running h ih => exact ih (Machine.Thrifty.step hthrifty hstart)

/-! ## Whole functions -/

namespace Program

variable {p : Program} {f : Callee} {args : List Nat} {live : Instance State}

/-- A function of the host's, called from outside, hands over nothing. -/
theorem ending_of_host {make : List Nat → HostCall} (hbody : f.body = .host make)
    (hargs : args.length = f.type.params.length) {last : Machine}
    {ending : Except Trap (List Nat)}
    (h : ((Machine.begun f args live).call f).Leads p last ending) : ending = .ok [] := by
  have hdrop : (Machine.begun f args live).values.drop f.type.params.length = [] := by
    refine List.drop_eq_nil_of_le (Nat.le_of_eq ?_)
    rw [← hargs]
    exact List.length_reverse
  rw [Machine.call_host _ hbody, hdrop] at h
  -- the only step there is goes back to nobody
  cases h with
  | running h =>
      cases h
      show Except.ok (List.take _ []).reverse = .ok []
      rw [List.take_nil, List.reverse_nil]

theorem thrifty_call_begun (hargs : args.length = f.type.params.length) {extra : Nat}
    {body : List Instruction} (hbody : f.body = .code extra body) :
    ((Machine.begun f args live).call f).Thrifty live.fuel.toNat := by
  rw [Machine.call_begun hbody hargs]
  have hbare : Machine.Bare (Shared.machine ⟨live.globals, live.memory, []⟩
      [.taking f.type.results.length]
      ⟨f.type.results.length, args.toArray ++ Array.replicate extra 0, [], body, []⟩
      (live.fuel.toNat - 1)) :=
    ⟨⟨rfl, by nofun⟩, List.forall_mem_singleton.2 ⟨rfl, by nofun⟩⟩
  refine hbare.refuel.thrifty (@Machine.follows_refuel f.Makes _).within ?_
  show (live.fuel.toNat : Int) - 1 + 1 ≤ live.fuel.toNat
  omega

/-- A run leaves no more fuel than it was given. -/
theorem fuel_run_le (p : Program) (f : Callee) (args : List Nat) (live : Instance State) :
    (p.run f args live).final.fuel.toNat ≤ live.fuel.toNat := by
  obtain ⟨last, ending, hleads, hrun⟩ := p.leads_run f args live
  have hleft : last.fuel ≤ max (live.fuel.toNat : Int) 0 :=
    (hleads.follows ((Machine.begun f args live).follows_call f)).1
  rw [hrun, fuel_executed hleads]
  omega

/-- A run that hands over a value has spent two units: one to begin, and one for the value. -/
theorem fuel_run_of_value (hargs : args.length = f.type.params.length)
    (hfuel : 1 < live.fuel.toNat) {result : UInt32} (hok : (p.run f args live).ending = .ok result)
    (hresult : result ≠ 0) : (p.run f args live).final.fuel.toNat + 2 ≤ live.fuel.toNat := by
  obtain ⟨last, ending, hleads, hrun⟩ := p.leads_run f args live
  rw [hrun] at hok ⊢
  rw [fuel_executed hleads]
  cases ending with
  | error t => cases hok
  | ok results =>
      have hsome : results ≠ [] := by
        rintro rfl
        exact hresult (Except.ok.inj hok).symm
      cases hbody : f.body with
      | host make => exact absurd (Except.ok.inj (ending_of_host hbody hargs hleads)) hsome
      | code extra body =>
          have hspent := hleads.thrifty (thrifty_call_begun hargs hbody) (by omega) rfl hsome
          omega

end Program

end CompilerHost.Binary
