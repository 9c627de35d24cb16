import CompilerHost.Proofs.Contents
import CompilerHost.Proofs.Stepping

/-! # Runs of a machine

What a run of code can come to, told from the code one instruction at a time. Without enough fuel a
run may stop wherever fuel is looked at; how much is enough is counted along with the code.

* `Ends` says that all runs from a place in the code have an outcome of some sort, and with how much
  fuel they do not stop on the way;
* `Ends.compute` passes over instructions that only move values and compute with them;
* the other rules are one for each instruction, and for the ways into a function and out of it;
* `Program.run_of_ends` is about whole functions.
-/

namespace CompilerHost.Binary

/-- What all functions of a machine share. -/
structure Shared where
  state : State
  memory : Memory
  /-- The calls to the host so far, the latest first. -/
  calls : List (HostCall × Instance State)

def Machine.shared (m : Machine) : Shared := ⟨m.state, m.memory, m.calls⟩

/-- A function at work, and those that wait for it. -/
def Shared.machine (s : Shared) (waiting : List Activation) (a : Activation) (fuel : Int) :
    Machine where
  toActivation := a
  callers := waiting
  depth := waiting.length
  state := s.state
  memory := s.memory
  fuel := fuel
  calls := s.calls

namespace Machine

theorem branch_of_drop (m : Machine) {depth : Nat} {label : Label} {outer : List Label}
    (h : m.labels.drop depth = label :: outer) :
    m.branch depth = m.activate { m.toActivation with
      labels := outer, code := label.target
      values := m.values.take label.arity ++ label.below } := by
  rw [branch, h]

theorem stepMemory_load (m : Machine) {form : Load} {offset place n : Nat} {values : List Nat}
    (hvalues : m.values = place :: values)
    (hread : m.read? (place + offset) form.bytes = some n) :
    m.stepMemory (.load form offset) = .running (m.setValues (form.expand n :: values)) := by
  simp only [stepMemory, hvalues, hread]

theorem stepMemory_memoryGrow_of_some (m : Machine) {count : Nat} {values : List Nat}
    {grown : Memory} (hvalues : m.values = count :: values)
    (hgrow : m.memory.grow? count = some grown) :
    m.stepMemory .memoryGrow =
      { m.setValues values with memory := grown }.push m.memory.pages.size := by
  simp only [stepMemory, hvalues, setValues, hgrow]

theorem stepMemory_memoryGrow_of_none (m : Machine) {count : Nat} {values : List Nat}
    (hvalues : m.values = count :: values) (hgrow : m.memory.grow? count = none) :
    m.stepMemory .memoryGrow = (m.setValues values).push failure := by
  simp only [stepMemory, hvalues, setValues, hgrow]

end Machine

/-- How steps end that began with some fuel: in an outcome of some sort, and with `need` units of
fuel, or more, not for lack of it and with the rest left. -/
structure Machine.Settles (outcome : Shared → Except Trap (List Nat) → Prop) (need : Nat)
    (fuel : Int) (last : Machine) (ending : Except Trap (List Nat)) : Prop where
  outcome : outcome last.shared ending
  goes : need ≤ fuel → ending ≠ .error .outOfFuel
  left : need ≤ fuel → fuel ≤ last.fuel + need

/-- However much fuel there is, steps from a place in the code lead to an outcome of some sort, and
so many units of fuel are enough for that. -/
structure Ends (p : Program) (outcome : Shared → Except Trap (List Nat) → Prop) (need : Nat)
    (s : Shared) (waiting : List Activation) (a : Activation) : Prop where
  /-- A lack of fuel is an outcome of that sort. -/
  stopped : outcome s (.error .outOfFuel)
  settles : ∀ {fuel last ending},
    (Progress.running (s.machine waiting a fuel)).Leads p last ending →
      last.Settles outcome need fuel ending

namespace Ends

variable {p : Program} {outcome : Shared → Except Trap (List Nat) → Prop} {need : Nat} {s : Shared}
  {waiting : List Activation} {a : Activation}

theorem mono {need' : Nat} (h : Ends p outcome need s waiting a) (hle : need ≤ need') :
    Ends p outcome need' s waiting a := by
  refine ⟨h.stopped, ?_⟩
  intro fuel last ending hleads
  have hsettles := h.settles hleads
  refine ⟨hsettles.outcome, fun hfuel => hsettles.goes (by omega), ?_⟩
  intro hfuel
  have hleft := hsettles.left (by omega)
  omega

/-- Where steps go on elsewhere, with some fuel less. -/
theorem settles_of_less (cost : Nat) {s' : Shared} {waiting' : List Activation} {a' : Activation}
    {fuel : Int} {last : Machine} {ending : Except Trap (List Nat)}
    (h : Ends p outcome need s' waiting' a')
    (hleads : (Progress.running (s'.machine waiting' a' (fuel - cost))).Leads p last ending) :
    last.Settles outcome (need + cost) fuel ending := by
  have hsettles := h.settles hleads
  refine ⟨hsettles.outcome, fun hfuel => hsettles.goes (by omega), ?_⟩
  intro hfuel
  have hleft := hsettles.left (by omega)
  omega

/-- A step to somewhere else. -/
theorem of_step (cost : Nat) {s' : Shared} {waiting' : List Activation} {a' : Activation}
    (hstopped : outcome s (.error .outOfFuel)) (hends : Ends p outcome need s' waiting' a')
    (h : ∀ fuel, (s.machine waiting a fuel).step p =
      .running (s'.machine waiting' a' (fuel - cost))) :
    Ends p outcome (need + cost) s waiting a := by
  refine ⟨hstopped, ?_⟩
  intro fuel last ending hleads
  cases hleads with
  | running hleads =>
      rw [h fuel] at hleads
      exact hends.settles_of_less cost hleads

/-- A step of the function at work that no other function notices. -/
theorem of_active (cost : Nat) {a' : Activation} (hends : Ends p outcome need s waiting a')
    (h : ∀ fuel, (s.machine waiting a fuel).step p =
      .running (s.machine waiting a' (fuel - cost))) :
    Ends p outcome (need + cost) s waiting a :=
  of_step cost hends.stopped hends h

/-- Where fuel is looked at, steps go on if there is some. -/
theorem settles_refuel {fuel : Int} {last : Machine} {ending : Except Trap (List Nat)}
    (h : Ends p outcome (need + 1) s waiting a)
    (hleads : (s.machine waiting a fuel).refuel.Leads p last ending) :
    last.Settles outcome (need + 1) fuel ending := by
  unfold Machine.refuel at hleads
  by_cases hempty : fuel ≤ 0
  · rw [if_pos (c := (s.machine waiting a fuel).fuel ≤ 0) hempty] at hleads
    cases hleads
    -- what is needed is one unit at least, and there is none
    exact ⟨h.stopped, fun hfuel => by omega, fun hfuel => by omega⟩
  · rw [if_neg (c := (s.machine waiting a fuel).fuel ≤ 0) hempty] at hleads
    exact h.settles hleads

end Ends

/-! ## Values -/

/-- What is left of code, locals and values when the instructions in front that only move values, or
compute with them, are carried out, and how many those are. -/
def compute (s : Shared) :
    List Instruction → Array Nat → List Nat → Nat × List Instruction × Array Nat × List Nat
  | .localGet i :: code, locals, values =>
    (compute s code locals (locals[i]?.getD 0 :: values)).map (· + 1) id
  | .localSet i :: code, locals, v :: values =>
    (compute s code (locals.setIfInBounds i v) values).map (· + 1) id
  | .globalGet i :: code, locals, values =>
    (compute s code locals (s.state.globals[i]?.getD 0 :: values)).map (· + 1) id
  | .constant _ bits :: code, locals, values =>
    (compute s code locals (bits :: values)).map (· + 1) id
  | .memorySize :: code, locals, values =>
    (compute s code locals (s.memory.pages.size :: values)).map (· + 1) id
  | .operate op :: code, locals, values =>
    match op.apply (values.take op.params.length).reverse with
    | .ok v => (compute s code locals (v :: values.drop op.params.length)).map (· + 1) id
    | .error _ => (0, .operate op :: code, locals, values)
  | code, locals, values => (0, code, locals, values)

namespace Ends

variable {p : Program} {outcome : Shared → Except Trap (List Nat) → Prop} {need : Nat} {s : Shared}
  {waiting : List Activation} {results : Nat} {locals : Array Nat} {labels : List Label}
  {code : List Instruction} {values : List Nat}

/-- Each instruction that is passed over takes a unit of fuel. -/
theorem of_compute
    (hends : Ends p outcome need s waiting
      ⟨results, (Binary.compute s code locals values).2.2.1, labels,
        (Binary.compute s code locals values).2.1, (Binary.compute s code locals values).2.2.2⟩) :
    Ends p outcome (need + (Binary.compute s code locals values).1) s waiting
      ⟨results, locals, labels, code, values⟩ := by
  -- one case for each instruction that is passed over, and two where `compute` stops
  fun_induction Binary.compute s code locals values with
  | case1 locals values i code ih => exact of_active 1 (ih hends) fun fuel => rfl
  | case2 locals i code v values ih => exact of_active 1 (ih hends) fun fuel => rfl
  | case3 locals values i code ih => exact of_active 1 (ih hends) fun fuel => rfl
  | case4 locals values type bits code ih => exact of_active 1 (ih hends) fun fuel => rfl
  | case5 locals values code ih => exact of_active 1 (ih hends) fun fuel => rfl
  | case6 op code locals values v hv ih =>
      refine of_active 1 (ih hends) fun fuel => ?_
      show (match op.apply (values.take op.params.length).reverse with
        | .ok value => Progress.running _
        | .error t => _) = _
      rw [hv]
      rfl
  | case7 => exact hends
  | case8 => exact hends

theorem compute (count : Nat) (code' : List Instruction) (locals' : Array Nat) (values' : List Nat)
    (h : Binary.compute s code locals values = (count, code', locals', values'))
    (hends : Ends p outcome need s waiting ⟨results, locals', labels, code', values'⟩) :
    Ends p outcome (need + count) s waiting ⟨results, locals, labels, code, values⟩ := by
  have hcount : (Binary.compute s code locals values).1 = count := by rw [h]
  rw [← hcount]
  refine of_compute ?_
  rw [h]
  exact hends

/-! ## Blocks -/

variable {rest : List Instruction} {v : Nat}

theorem block {body : List Instruction}
    (h : Ends p outcome need s waiting
      ⟨results, locals, ⟨0, rest, rest, values⟩ :: labels, body, []⟩) :
    Ends p outcome need s waiting
      ⟨results, locals, labels, .block (.plain none) body :: rest, values⟩ :=
  of_active 0 h fun _ => rfl

/-- A loop is a place where fuel is looked at. It takes none, but there has to be some. -/
theorem loop {body : List Instruction}
    (h : Ends p outcome (need + 1) s waiting
      ⟨results, locals, ⟨0, .loop (.plain none) body :: rest, rest, values⟩ :: labels, body, []⟩) :
    Ends p outcome (need + 1) s waiting
      ⟨results, locals, labels, .loop (.plain none) body :: rest, values⟩ := by
  refine ⟨h.stopped, ?_⟩
  intro fuel last ending hleads
  cases hleads with
  | running hleads =>
      have hstep : (s.machine waiting
          ⟨results, locals, labels, .loop (.plain none) body :: rest, values⟩ fuel).step p =
          (s.machine waiting ⟨results, locals,
            ⟨0, .loop (.plain none) body :: rest, rest, values⟩ :: labels, body, []⟩
            (fuel - (0 : Nat))).refuel := rfl
      rw [hstep, show fuel - (0 : Nat) = fuel from Int.sub_zero fuel] at hleads
      exact h.settles_refuel hleads

theorem choose {yes no : List Instruction}
    (hno : v = 0 → Ends p outcome need s waiting
      ⟨results, locals, ⟨0, rest, rest, values⟩ :: labels, no, []⟩)
    (hyes : v ≠ 0 → Ends p outcome need s waiting
      ⟨results, locals, ⟨0, rest, rest, values⟩ :: labels, yes, []⟩) :
    Ends p outcome (need + 1) s waiting
      ⟨results, locals, labels, .choose (.plain none) yes no :: rest, v :: values⟩ := by
  have h : Ends p outcome need s waiting
      ⟨results, locals, ⟨0, rest, rest, values⟩ :: labels, if v = 0 then no else yes, []⟩ := by
    split
    · exact hno ‹_›
    · exact hyes ‹_›
  exact of_active 1 h fun _ => rfl

theorem branch {depth : Nat} {label : Label} {outer : List Label}
    (hlabels : labels.drop depth = label :: outer)
    (h : Ends p outcome need s waiting
      ⟨results, locals, outer, label.target, values.take label.arity ++ label.below⟩) :
    Ends p outcome (need + 1) s waiting
      ⟨results, locals, labels, .branch depth :: rest, values⟩ := by
  refine of_active 1 h fun fuel => ?_
  exact Machine.branch_of_drop
    (s.machine waiting ⟨results, locals, labels, rest, values⟩ (fuel - (1 : Nat))) hlabels

theorem branchIf {depth : Nat} {label : Label} {outer : List Label}
    (hlabels : labels.drop depth = label :: outer)
    (hno : v = 0 → Ends p outcome need s waiting ⟨results, locals, labels, rest, values⟩)
    (hyes : v ≠ 0 → Ends p outcome need s waiting
      ⟨results, locals, outer, label.target, values.take label.arity ++ label.below⟩) :
    Ends p outcome (need + 1) s waiting
      ⟨results, locals, labels, .branchIf depth :: rest, v :: values⟩ := by
  by_cases hv : v = 0
  · refine of_active 1 (hno hv) fun fuel => ?_
    show (if v = 0 then _ else _) = _
    rw [if_pos hv]
    rfl
  · refine of_active 1 (hyes hv) fun fuel => ?_
    refine (if_neg hv).trans ?_
    exact Machine.branch_of_drop
      (s.machine waiting ⟨results, locals, labels, rest, values⟩ (fuel - (1 : Nat))) hlabels

theorem close {label : Label}
    (h : Ends p outcome need s waiting
      ⟨results, locals, labels, label.next, values ++ label.below⟩) :
    Ends p outcome need s waiting ⟨results, locals, label :: labels, [], values⟩ :=
  of_active 0 h fun fuel => congrArg (fun left => Progress.running (s.machine waiting _ left))
    (Int.sub_zero fuel).symm

/-! ## Functions -/

/-- The function that waits goes on with what this one leaves. -/
theorem finish {caller : Activation} {code : List Instruction} {labels : List Label}
    (hcode : code = [] ∧ labels = [] ∨ ∃ rest, code = .leave :: rest)
    (h : Ends p outcome need s waiting
      { caller with values := values.take results ++ caller.values }) :
    Ends p outcome need s (caller :: waiting) ⟨results, locals, labels, code, values⟩ := by
  refine of_step 0 h.stopped h fun fuel => ?_
  rcases hcode with ⟨rfl, rfl⟩ | ⟨rest, rfl⟩
  · exact congrArg (fun left => Progress.running (s.machine waiting _ left))
      (Int.sub_zero fuel).symm
  · rfl

/-- With none that waits, this is the end. -/
theorem done (h : outcome s (.ok (values.take results).reverse))
    (hstopped : outcome s (.error .outOfFuel)) :
    Ends p outcome need s [] ⟨results, locals, [], [], values⟩ := by
  refine ⟨hstopped, ?_⟩
  intro fuel last ending hleads
  cases hleads with
  | running hleads =>
      have hstep : (s.machine [] ⟨results, locals, [], [], values⟩ fuel).step p =
          .ended (s.machine [] ⟨results, locals, [], [], values⟩ fuel)
            (.ok (values.take results).reverse) := rfl
      rw [hstep] at hleads
      cases hleads
      refine ⟨h, ?_, ?_⟩
      · intro _ heq
        cases heq
      · intro _
        show fuel ≤ fuel + need
        omega

theorem step_call {f : Nat} {callee : Callee} (hcallee : p.functions[f]? = some callee)
    (fuel : Int) :
    (s.machine waiting ⟨results, locals, labels, .call f :: rest, values⟩ fuel).step p =
      Machine.call (s.machine waiting ⟨results, locals, labels, rest, values⟩ (fuel - (1 : Nat)))
        callee := by
  show (p.functions[f]?.map (Machine.call _)).getD _ = _
  rw [hcallee]
  rfl

/-- A call takes a unit of fuel, and so does the function that it goes into. -/
theorem call {f : Nat} {callee : Callee} {extra : Nat} {body : List Instruction}
    (hcallee : p.functions[f]? = some callee) (hbody : callee.body = .code extra body)
    (hdepth : waiting.length < Machine.maxDepth)
    (h : Ends p outcome (need + 1) s
      (⟨results, locals, labels, rest, values.drop callee.type.params.length⟩ :: waiting)
      ⟨callee.type.results.length,
        (values.take callee.type.params.length).reverse.toArray ++ Array.replicate extra 0, [],
        body, []⟩) :
    Ends p outcome (need + 3) s waiting ⟨results, locals, labels, .call f :: rest, values⟩ := by
  refine ⟨h.stopped, ?_⟩
  intro fuel last ending hleads
  cases hleads with
  | running hleads =>
      rw [step_call hcallee, Machine.call_code _ hbody hdepth] at hleads
      -- the instruction is paid for, then the function, and then fuel is looked at
      have hsettles : last.Settles outcome (need + 1) (fuel - (1 : Nat) - 1) ending :=
        h.settles_refuel hleads
      refine ⟨hsettles.outcome, fun hfuel => hsettles.goes (by omega), ?_⟩
      intro hfuel
      have hleft := hsettles.left (by omega)
      omega

theorem callHost {f : Nat} {callee : Callee} {make : List Nat → HostCall}
    (hcallee : p.functions[f]? = some callee) (hbody : callee.body = .host make)
    (hstopped : outcome s (.error .outOfFuel))
    (h : ∀ fuel, Ends p outcome need
      { s with calls :=
        (make (values.take callee.type.params.length).reverse, ⟨s.memory, s.state, fuel⟩) ::
          s.calls }
      waiting ⟨results, locals, labels, rest, values.drop callee.type.params.length⟩) :
    Ends p outcome (need + 1) s waiting ⟨results, locals, labels, .call f :: rest, values⟩ := by
  refine ⟨hstopped, ?_⟩
  intro fuel last ending hleads
  cases hleads with
  | running hleads =>
      rw [step_call hcallee, Machine.call_host _ hbody] at hleads
      exact (h _).settles_of_less 1 hleads

/-! ## Globals and memory -/

theorem globalSet {i : Nat} (hstopped : outcome s (.error .outOfFuel))
    (h : Ends p outcome need
      { s with state := { s.state with globals := s.state.globals.setIfInBounds i v } } waiting
      ⟨results, locals, labels, rest, values⟩) :
    Ends p outcome (need + 1) s waiting
      ⟨results, locals, labels, .globalSet i :: rest, v :: values⟩ :=
  of_step 1 hstopped h fun _ => rfl

theorem memoryGrow {count : Nat} (hstopped : outcome s (.error .outOfFuel))
    (hgrown : ∀ m, s.memory.grow? count = some m → Ends p outcome need { s with memory := m }
      waiting ⟨results, locals, labels, rest, s.memory.pages.size :: values⟩)
    (hfull : s.memory.grow? count = none → Ends p outcome need s waiting
      ⟨results, locals, labels, rest, Machine.failure :: values⟩) :
    Ends p outcome (need + 1) s waiting
      ⟨results, locals, labels, .memoryGrow :: rest, count :: values⟩ := by
  have hstep : ∀ fuel, (s.machine waiting
      ⟨results, locals, labels, .memoryGrow :: rest, count :: values⟩ fuel).step p =
      Machine.stepMemory (s.machine waiting
        ⟨results, locals, labels, rest, count :: values⟩ (fuel - (1 : Nat))) .memoryGrow :=
    fun _ => rfl
  cases hgrow : s.memory.grow? count with
  | some grown =>
      refine of_step 1 hstopped (hgrown grown hgrow) fun fuel => ?_
      rw [hstep, Machine.stepMemory_memoryGrow_of_some _ rfl hgrow]
      rfl
  | none =>
      refine of_step 1 hstopped (hfull hgrow) fun fuel => ?_
      rw [hstep, Machine.stepMemory_memoryGrow_of_none _ rfl hgrow]
      rfl

/-- A number is loaded from the bytes that it has in memory. -/
theorem load {form : Load} {offset place n : Nat}
    (hread : ∀ m : Machine, m.memory = s.memory → m.read? (place + offset) form.bytes = some n)
    (h : Ends p outcome need s waiting
      ⟨results, locals, labels, rest, form.expand n :: values⟩) :
    Ends p outcome (need + 1) s waiting
      ⟨results, locals, labels, .load form offset :: rest, place :: values⟩ := by
  refine of_active 1 h fun fuel => ?_
  exact Machine.stepMemory_load
    (s.machine waiting ⟨results, locals, labels, rest, place :: values⟩ (fuel - (1 : Nat))) rfl
    (hread _ rfl)

/-- A byte is loaded as a number. -/
theorem load8 {place : Nat} (hplace : place < s.memory.size)
    (h : Ends p outcome need s waiting
      ⟨results, locals, labels, rest, (s.memory.byte place).toNat :: values⟩) :
    Ends p outcome (need + 1) s waiting
      ⟨results, locals, labels, .load (.plain .i32 1) 0 :: rest, place :: values⟩ := by
  refine load ?_ h
  intro m hm
  rw [Machine.read?, hm]
  exact if_pos hplace

theorem store {form : Store} {offset n place : Nat} (hstopped : outcome s (.error .outOfFuel))
    (hroom : place + offset + form.bytes ≤ s.memory.size)
    (h : Ends p outcome need
      { s with memory := s.memory.overwrite (place + offset) (Machine.lowerBytes form.bytes n) }
      waiting ⟨results, locals, labels, rest, values⟩) :
    Ends p outcome (need + 1) s waiting
      ⟨results, locals, labels, .store form offset :: rest, n :: place :: values⟩ := by
  refine of_step 1 hstopped h fun fuel => ?_
  have hlength : (Machine.lowerBytes form.bytes n).length = form.bytes := by
    rw [Machine.lowerBytes, List.length_map, List.length_range]
  have hstep : (s.machine waiting
      ⟨results, locals, labels, .store form offset :: rest, n :: place :: values⟩ fuel).step p =
      Machine.write (s.machine waiting ⟨results, locals, labels, rest, values⟩ (fuel - (1 : Nat)))
        (place + offset) (Machine.lowerBytes form.bytes n) := rfl
  rw [hstep, Machine.write, if_pos (by rw [hlength]; exact hroom)]
  rfl

theorem memoryCopy {count origin target : Nat} (hstopped : outcome s (.error .outOfFuel))
    (horigin : origin + count ≤ s.memory.size) (htarget : target + count ≤ s.memory.size)
    (h : Ends p outcome need
      { s with memory := s.memory.overwrite target (s.memory.slice origin count).toList }
      waiting ⟨results, locals, labels, rest, values⟩) :
    Ends p outcome (need + 1) s waiting
      ⟨results, locals, labels, .memoryCopy :: rest, count :: origin :: target :: values⟩ := by
  refine of_step 1 hstopped h fun fuel => ?_
  have hlength : (s.memory.slice origin count).toList.length = count := by
    rw [length_toList_byteArray, Memory.size_slice]
  have hstep : (s.machine waiting ⟨results, locals, labels, .memoryCopy :: rest,
        count :: origin :: target :: values⟩ fuel).step p =
      if origin + count ≤ s.memory.size ∧ target + count ≤ s.memory.size then
        Machine.write (s.machine waiting ⟨results, locals, labels, rest, values⟩ (fuel - (1 : Nat)))
          target (s.memory.slice origin count).toList
      else Machine.trap
        (s.machine waiting ⟨results, locals, labels, rest, values⟩ (fuel - (1 : Nat)))
        .outOfBounds := rfl
  rw [hstep, if_pos ⟨horigin, htarget⟩, Machine.write, if_pos (by rw [hlength]; exact htarget)]
  rfl

end Ends

/-! ## Whole functions -/

/-- What a function waits on when nothing else does: something that only takes its results. -/
def Activation.taking (results : Nat) : Activation := ⟨results, #[], [], [], []⟩

section Whole

variable {p : Program} {f : Callee} {extra : Nat} {body : List Instruction} {args : List Nat}
  {live : Instance State}

/-- A function begins with its arguments, and nothing waits for it but the machine that it began
on. -/
theorem Machine.call_begun (hbody : f.body = .code extra body)
    (hargs : args.length = f.type.params.length) :
    (Machine.begun f args live).call f =
      (Shared.machine ⟨live.globals, live.memory, []⟩ [.taking f.type.results.length]
        ⟨f.type.results.length, args.toArray ++ Array.replicate extra 0, [], body, []⟩
        (live.fuel.toNat - 1)).refuel := by
  have hlength : args.reverse.length = f.type.params.length := by rw [List.length_reverse, hargs]
  have htake : (begun f args live).values.take f.type.params.length = args.reverse :=
    List.take_of_length_le (Nat.le_of_eq hlength)
  have hdrop : (begun f args live).values.drop f.type.params.length = [] :=
    List.drop_eq_nil_of_le (Nat.le_of_eq hlength)
  rw [call_code _ hbody (show 0 < maxDepth by decide), htake, hdrop, List.reverse_reverse]
  rfl

/-- The fuel that a run leaves, as the host reads it. -/
theorem Program.fuel_executed {last : Machine} {ending : Except Trap (List Nat)}
    (h : ((Machine.begun f args live).call f).Leads p last ending) :
    (Program.executed last ending).final.fuel.toNat = last.fuel.toNat := by
  have hle : last.fuel ≤ max (live.fuel.toNat : Int) 0 :=
    (h.follows ((Machine.begun f args live).follows_call f)).1
  have hbound := live.fuel.toNat_lt
  refine UInt64.toNat_ofNat_of_lt' ?_
  show last.fuel.toNat < 2 ^ 64
  omega

/-- The run of a function is a run of its code, and takes a unit of fuel more. -/
theorem Program.run_of_ends (hbody : f.body = .code extra body)
    (hargs : args.length = f.type.params.length)
    {outcome : Shared → Except Trap (List Nat) → Prop} (need : Nat)
    (h : Ends p outcome (need + 1) ⟨live.globals, live.memory, []⟩ [.taking f.type.results.length]
      ⟨f.type.results.length, args.toArray ++ Array.replicate extra 0, [], body, []⟩) :
    ∃ s ending, outcome s ending ∧ (p.run f args live).calls = s.calls.reverse ∧
      (p.run f args live).ending = ending.map (fun results => UInt32.ofNat (results.head?.getD 0)) ∧
      (p.run f args live).final.memory = s.memory ∧
      (p.run f args live).final.globals = s.state ∧
      (need + 2 ≤ live.fuel.toNat → ending ≠ .error .outOfFuel ∧
        live.fuel.toNat ≤ (p.run f args live).final.fuel.toNat + (need + 2)) := by
  obtain ⟨last, ending, hleads, hrun⟩ := p.leads_run f args live
  have hfuel := fuel_executed hleads
  rw [Machine.call_begun hbody hargs] at hleads
  have hsettles := h.settles_refuel hleads
  rw [hrun]
  refine ⟨last.shared, ending, hsettles.outcome, rfl, rfl, rfl, rfl, ?_⟩
  intro hneed
  have hleft := hsettles.left (by omega)
  exact ⟨hsettles.goes (by omega), by omega⟩

end Whole

end CompilerHost.Binary
