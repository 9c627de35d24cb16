import CompilerHost.Binary.Machine

/-! # Runs halt

Code comes round again where a function starts or a loop does, and there fuel is looked at. Between
two such places there are no more steps than the code has instructions, so that fuel is all that
bounds a run: the number of steps that a run may take is never what ends it.

* `Progress.Leads`: where steps lead, however many they are;
* `Progress.Nears`: how a step goes on, with one lemma for each part of a step;
* `Machine.Nears.potential_lt`: each step lowers the potential;
* `Machine.Bounded.leads_run`: so a machine that may take as many steps gets to its end;
* `Program.leads_run`: every function does, with the steps that it may take.
-/

namespace CompilerHost.Binary

/-! ## Where steps lead -/

/-- Steps lead to a machine that ends so. -/
inductive Progress.Leads (p : Program) (last : Machine) (ending : Except Trap (List Nat)) :
    Progress → Prop
  | ended : Leads p last ending (.ended last ending)
  | running {m : Machine} (h : Leads p last ending (m.step p)) : Leads p last ending (.running m)

/-- They lead to one end only. -/
theorem Progress.Leads.unique {p : Program} {progress : Progress} {last last' : Machine}
    {ending ending' : Except Trap (List Nat)} (h : progress.Leads p last ending)
    (h' : progress.Leads p last' ending') : last = last' ∧ ending = ending' := by
  induction h with
  | ended =>
      cases h'
      exact ⟨rfl, rfl⟩
  | running _ ih =>
      cases h' with
      | running h' => exact ih h'

/-! ## Steps that stay where they are -/

/-- The next machine is at the same place with as much fuel, and no call was made. -/
structure Machine.Beside (m next : Machine) : Prop where
  code : next.code = m.code
  labels : next.labels = m.labels
  callers : next.callers = m.callers
  fuel : next.fuel = m.fuel
  calls : next.calls = m.calls

/-- No more is touched than what can be computed with. -/
def Progress.Quiet (m : Machine) : Progress → Prop
  | .running next => m.Beside next
  | .ended last _ => last.fuel = m.fuel ∧ last.calls = m.calls

namespace Machine

variable {m next : Machine}

theorem Beside.refl (m : Machine) : m.Beside m := ⟨rfl, rfl, rfl, rfl, rfl⟩

theorem Beside.setValues (h : m.Beside next) (values : List Nat) :
    m.Beside (next.setValues values) := ⟨h.code, h.labels, h.callers, h.fuel, h.calls⟩

theorem Beside.setState (h : m.Beside next) (state : State) : m.Beside (next.setState state) :=
  ⟨h.code, h.labels, h.callers, h.fuel, h.calls⟩

theorem Beside.trap (h : m.Beside next) (t : Trap) : (next.trap t).Quiet m := ⟨h.fuel, h.calls⟩

theorem Beside.push (h : m.Beside next) (value : Nat) : (next.push value).Quiet m :=
  ⟨h.code, h.labels, h.callers, h.fuel, h.calls⟩

theorem Beside.write (h : m.Beside next) (place : Nat) (content : List UInt8) :
    (next.write place content).Quiet m := by
  unfold Machine.write
  split
  · exact ⟨h.code, h.labels, h.callers, h.fuel, h.calls⟩
  · exact h.trap _

theorem Beside.fillTable (h : m.Beside next) (table place : Nat) (references : Option (List Nat)) :
    (next.fillTable table place references).Quiet m := by
  unfold Machine.fillTable
  split
  · split
    · exact h.setState _
    · exact h.trap _
  · exact h.trap _
  · exact h.trap _

variable (m : Machine)

theorem quiet_stepPlain (i : Instruction) : (m.stepPlain i).Quiet m := by
  have h := Beside.refl m
  unfold stepPlain
  split
  case h_7 =>
    simp only
    split
    · exact h.setValues _
    · exact h.trap _
  all_goals first | exact ⟨rfl, rfl, rfl, rfl, rfl⟩ | exact h.trap _

theorem quiet_stepTable (i : Instruction) : (m.stepTable i).Quiet m := by
  have h := Beside.refl m
  unfold stepTable
  split
  · split
    · exact h.setValues _
    · exact h.trap _
  · exact (h.setValues _).fillTable _ _ _
  · exact h.push _
  · simp only
    split
    · exact (h.setValues _).trap _
    · split
      · exact ((h.setValues _).setState _).push _
      · exact (h.setValues _).push _
  · simp only
    split
    · exact (h.setValues _).trap _
    · split
      · exact (h.setValues _).fillTable _ _ _
      · exact (h.setValues _).trap _
  · exact (h.setValues _).fillTable _ _ _
  · exact (h.setValues _).fillTable _ _ _
  · exact h.setState _
  · exact h.trap _

theorem quiet_stepMemory (i : Instruction) : (m.stepMemory i).Quiet m := by
  have h := Beside.refl m
  unfold stepMemory
  split
  · split
    · exact h.setValues _
    · exact h.trap _
  · exact (h.setValues _).write _ _
  · split
    · exact h.setValues _
    · exact h.trap _
  · exact (h.setValues _).write _ _
  · exact h.push _
  · simp only
    split
    · exact ⟨rfl, rfl, rfl, rfl, rfl⟩
    · exact (h.setValues _).push _
  · simp only
    split
    · exact (h.setValues _).write _ _
    · exact (h.setValues _).trap _
  · simp only
    split
    · exact (h.setValues _).write _ _
    · exact (h.setValues _).trap _
  · simp only
    split
    · exact (h.setValues _).write _ _
    · exact (h.setValues _).trap _
  · exact h.setState _
  · exact h.trap _

end Machine

/-! ## Calls -/

namespace Machine

variable (m : Machine)

theorem call_code {f : Callee} {extra : Nat} {body : List Instruction}
    (hbody : f.body = .code extra body) (hdepth : m.depth < maxDepth) :
    m.call f =
      refuel { m with
        toActivation :=
          ⟨f.type.results.length,
            (m.values.take f.type.params.length).reverse.toArray ++ Array.replicate extra 0, [],
            body, []⟩
        callers :=
          { m.toActivation with values := m.values.drop f.type.params.length } :: m.callers
        depth := m.depth + 1
        fuel := m.fuel - 1 } := by
  have hroom : ¬maxDepth ≤ m.depth := Nat.not_le.2 hdepth
  rw [call, hbody]
  exact if_neg hroom

theorem call_host {f : Callee} {make : List Nat → HostCall} (hbody : f.body = .host make) :
    m.call f = .running { m with
      toActivation := { m.toActivation with values := m.values.drop f.type.params.length }
      calls := (make (m.values.take f.type.params.length).reverse, m.live) :: m.calls } := by
  rw [call, hbody]
  rfl

end Machine

/-! ## What is left to do -/

/-- How much code blocks go on with, and the end of each. -/
def labelsLeft : List Label → Nat
  | [] => 0
  | label :: outer => codeSize label.next + 1 + labelsLeft outer

/-- How much code a function has left, if it goes straight on. -/
def Activation.left (a : Activation) : Nat := codeSize a.code + labelsLeft a.labels

/-- How much code is left to those who wait, and the way back to each. -/
def callersLeft : List Activation → Nat
  | [] => 0
  | a :: callers => a.left + 1 + callersLeft callers

/-- How much code a machine has left, if it goes straight on. -/
def Machine.left (m : Machine) : Nat := m.toActivation.left + callersLeft m.callers

/-- Whether a loop is next. -/
def Machine.atLoop (m : Machine) : Bool :=
  match m.code with
  | .loop .. :: _ => true
  | _ => false

/-- A block of code of so many instructions at most. Who branches to it goes on behind it, or where
a loop begins. -/
structure Label.Bounded (most : Nat) (label : Label) : Prop where
  next : codeSize label.next ≤ most
  target : codeSize label.target ≤ most
  ahead : label.target = label.next ∨ ∃ type body rest, label.target = .loop type body :: rest

structure Activation.Bounded (most : Nat) (a : Activation) : Prop where
  code : codeSize a.code ≤ most
  labels : ∀ label ∈ a.labels, label.Bounded most

/-- Whatever a machine is at or waits for is in code of so many instructions at most. -/
structure Machine.Bounded (most : Nat) (m : Machine) : Prop where
  active : m.toActivation.Bounded most
  callers : ∀ a ∈ m.callers, a.Bounded most

/-- How a machine goes on where so much code and so much fuel was left. -/
inductive Machine.Nears (most left : Nat) (fuel : Int) (next : Machine) : Prop
  /-- Straight on, so that there is less code left. -/
  | along (hleft : next.left < left) (hfuel : next.fuel ≤ fuel)
  /-- Into code that was left before, or anew into a function. That takes fuel, and there is some
  left or it is looked at next. -/
  | around (hleft : next.left ≤ left + most) (hfuel : next.fuel < fuel)
      (hlooked : 0 < next.fuel ∨ next.atLoop = true)

/-- Who goes on goes on so. -/
def Progress.Nears (most left : Nat) (fuel : Int) : Progress → Prop
  | .running next => next.Bounded most ∧ next.Nears most left fuel
  | .ended _ _ => True

namespace Progress.Nears

variable {most left : Nat} {fuel : Int} {progress : Progress} {m : Machine}

theorem mono {left' : Nat} {fuel' : Int} (h : progress.Nears most left fuel) (hleft : left ≤ left')
    (hfuel : fuel ≤ fuel') : progress.Nears most left' fuel' := by
  cases progress with
  | ended last ending => trivial
  | running next =>
      refine ⟨h.1, ?_⟩
      cases h.2 with
      | along hless hle => exact .along (Nat.lt_of_lt_of_le hless hleft) (Int.le_trans hle hfuel)
      | around hle hless hlooked =>
          refine .around (Nat.le_trans hle (Nat.add_le_add_right hleft most)) ?_ hlooked
          exact Int.lt_of_lt_of_le hless hfuel

/-- With one instruction done, the rest is less. -/
theorem of_beside {next : Machine} (hm : m.Bounded most) (h : m.Beside next) :
    (Progress.running next).Nears most (m.left + 1) m.fuel := by
  have hleft : next.left = m.left := by
    rw [Machine.left, Machine.left, Activation.left, Activation.left, h.code, h.labels, h.callers]
  refine ⟨⟨⟨?_, ?_⟩, ?_⟩, ?_⟩
  · rw [h.code]
    exact hm.active.code
  · rw [h.labels]
    exact hm.active.labels
  · rw [h.callers]
    exact hm.callers
  · refine .along ?_ (Int.le_of_eq h.fuel)
    rw [hleft]
    exact Nat.lt_succ_self _

theorem of_quiet (hm : m.Bounded most) (h : progress.Quiet m) :
    progress.Nears most (m.left + 1) m.fuel := by
  cases progress with
  | ended last ending => trivial
  | running next => exact of_beside hm h

end Progress.Nears

/-! ## Each part of a step -/

namespace Machine

variable {p : Program} {most : Nat} {m : Machine}

theorem Bounded.setValues (h : m.Bounded most) (values : List Nat) :
    (m.setValues values).Bounded most := ⟨⟨h.active.code, h.active.labels⟩, h.callers⟩

theorem Bounded.finish (h : m.Bounded most) : m.finish.Nears most m.left m.fuel := by
  unfold Machine.finish
  split
  · trivial
  · rename_i caller callers hcallers
    have hwaits := h.callers
    rw [hcallers, List.forall_mem_cons] at hwaits
    refine ⟨⟨⟨hwaits.1.code, hwaits.1.labels⟩, hwaits.2⟩, .along ?_ (Int.le_refl _)⟩
    have hleft : m.left = m.toActivation.left + (caller.left + 1 + callersLeft callers) := by
      rw [Machine.left, hcallers, callersLeft]
    show caller.left + callersLeft callers < m.left
    omega

theorem Bounded.close (h : m.Bounded most) : m.close.Nears most m.left m.fuel := by
  unfold Machine.close
  split
  · exact h.finish
  · rename_i label labels hlabels
    have hbounded := h.active.labels
    rw [hlabels, List.forall_mem_cons] at hbounded
    refine ⟨⟨⟨hbounded.1.next, hbounded.2⟩, h.callers⟩, .along ?_ (Int.le_refl _)⟩
    have hleft : m.left = codeSize m.code + (codeSize label.next + 1 + labelsLeft labels) +
        callersLeft m.callers := by
      rw [Machine.left, Activation.left, hlabels, labelsLeft]
    show codeSize label.next + labelsLeft labels + callersLeft m.callers < m.left
    omega

theorem labelsLeft_drop_le (labels : List Label) (depth : Nat) :
    labelsLeft (labels.drop depth) ≤ labelsLeft labels := by
  induction labels generalizing depth with
  | nil => exact Nat.le_of_eq (congrArg labelsLeft List.drop_nil)
  | cons label outer ih =>
      cases depth with
      | zero => exact Nat.le_refl _
      | succ depth => exact Nat.le_trans (ih depth) (Nat.le_add_left _ _)

/-- A branch goes behind a block, or back to where a loop begins. -/
theorem Bounded.branch (h : m.Bounded most) (depth : Nat) :
    (m.branch depth).Nears most m.left (m.fuel + 1) := by
  unfold Machine.branch
  split
  · -- out of all blocks is the end of the function
    exact h.finish.mono (Nat.le_refl _) (Int.le_of_lt (Int.lt_succ _))
  · rename_i label labels hlabels
    have hmem : ∀ l ∈ label :: labels, l ∈ m.labels := by
      rw [← hlabels]
      exact fun l => List.mem_of_mem_drop
    have hlabel := h.active.labels label (hmem _ List.mem_cons_self)
    have hdropped := labelsLeft_drop_le m.labels depth
    rw [hlabels, labelsLeft] at hdropped
    have hleft : m.left = codeSize m.code + labelsLeft m.labels + callersLeft m.callers := rfl
    refine ⟨⟨⟨hlabel.target, ?_⟩, h.callers⟩, ?_⟩
    · exact fun l hl => h.active.labels l (hmem l (List.mem_cons_of_mem _ hl))
    · rcases hlabel.ahead with hbehind | ⟨type, body, rest, hloop⟩
      · refine .along ?_ (Int.le_of_lt (Int.lt_succ _))
        show codeSize label.target + labelsLeft labels + callersLeft m.callers < m.left
        rw [hbehind]
        omega
      · -- the loop is more code again, but the branch took fuel, and there is a look at it next
        refine .around ?_ (Int.lt_succ _) (.inr ?_)
        · have htarget := hlabel.target
          show codeSize label.target + labelsLeft labels + callersLeft m.callers ≤ m.left + most
          omega
        · rw [atLoop]
          show (match label.target with | .loop .. :: _ => true | _ => false) = true
          rw [hloop]

theorem left_enter (m : Machine) (arity taken : Nat) (target body : List Instruction) :
    (m.enter arity taken target m.code body).left = m.left + codeSize body + 1 := by
  have hleft : m.left = codeSize m.code + labelsLeft m.labels + callersLeft m.callers := rfl
  show codeSize body + (codeSize m.code + 1 + labelsLeft m.labels) + callersLeft m.callers = _
  omega

/-- Into a block, and behind it the code goes on. -/
theorem Bounded.enter (h : m.Bounded most) {arity taken : Nat} {target body : List Instruction}
    (hbody : codeSize body ≤ most) (htarget : codeSize target ≤ most)
    (hahead : target = m.code ∨ ∃ type body rest, target = .loop type body :: rest) :
    (Progress.running (m.enter arity taken target m.code body)).Nears most
      (m.left + (codeSize body + 2)) m.fuel := by
  refine ⟨⟨⟨hbody, ?_⟩, h.callers⟩, .along ?_ (Int.le_refl _)⟩
  · exact List.forall_mem_cons.2 ⟨⟨h.active.code, htarget, hahead⟩, h.active.labels⟩
  · rw [left_enter]
    omega

theorem nears_refuel {left : Nat} {fuel : Int}
    (h : 0 < m.fuel → (Progress.running m).Nears most left fuel) :
    m.refuel.Nears most left fuel := by
  unfold Machine.refuel
  split
  · trivial
  · exact h (Int.not_le.1 ‹_›)

/-- A function begins with some fuel, or not at all. -/
theorem nears_begin {a : Activation} {callers : List Activation} {depth left : Nat}
    (hcode : codeSize a.code ≤ most) (hlabels : a.labels = [])
    (hcallers : ∀ a ∈ callers, a.Bounded most) (hleft : callersLeft callers ≤ left) :
    (refuel { m with
      toActivation := a, callers := callers, depth := depth, fuel := m.fuel - 1 }).Nears most left
      m.fuel := by
  refine nears_refuel ?_
  intro hfuel
  refine ⟨⟨⟨hcode, ?_⟩, hcallers⟩, .around ?_ (Int.sub_lt_self _ Int.one_pos) (.inl hfuel)⟩
  · show ∀ label ∈ a.labels, _
    rw [hlabels]
    exact List.forall_mem_nil _
  · show codeSize a.code + labelsLeft a.labels + callersLeft callers ≤ left + most
    rw [hlabels, labelsLeft]
    omega

theorem Bounded.call (h : m.Bounded most) {f : Callee} (hf : f.size ≤ most) :
    (m.call f).Nears most (m.left + 1) m.fuel := by
  unfold Callee.size at hf
  unfold Machine.call
  split
  · rename_i make hbody
    exact ⟨⟨⟨h.active.code, h.active.labels⟩, h.callers⟩,
      .along (Nat.lt_succ_self m.left) (Int.le_refl _)⟩
  · rename_i extra body hbody
    rw [hbody] at hf
    simp only
    split
    · trivial
    · refine nears_begin (m := m.setValues _) hf rfl ?_ ?_
      · exact List.forall_mem_cons.2 ⟨⟨h.active.code, h.active.labels⟩, h.callers⟩
      · have hleft : m.left = m.toActivation.left + callersLeft m.callers := rfl
        show m.toActivation.left + 1 + callersLeft m.callers ≤ m.left + 1
        omega

theorem Bounded.callInstead (h : m.Bounded most) {f : Callee} (hf : f.size ≤ most) :
    (m.callInstead f).Nears most (m.left + 1) m.fuel := by
  have hcall := h.call hf
  unfold Callee.size at hf
  unfold Machine.callInstead
  split
  · rename_i make hbody
    -- the call is over at once, and only then is the function left that made it
    rw [call_host m hbody] at hcall ⊢
    exact hcall.1.finish.mono (Nat.le_succ _) (Int.le_refl _)
  · rename_i extra body hbody
    rw [hbody] at hf
    refine nears_begin hf rfl h.callers ?_
    have hleft : m.left = m.toActivation.left + callersLeft m.callers := rfl
    omega

end Machine

/-- No function is larger than the largest. -/
theorem Program.size_le_largest {p : Program} {index : Nat} {f : Callee}
    (h : p.functions[index]? = some f) : f.size ≤ p.largest := by
  have hmem : f ∈ p.functions.toList := Array.mem_toList_iff.2 (Array.mem_of_getElem? h)
  unfold largest
  generalize p.functions.toList = functions at hmem
  induction functions with
  | nil => exact absurd hmem List.not_mem_nil
  | cons first rest ih =>
      rw [List.foldr_cons]
      rcases List.mem_cons.1 hmem with rfl | hrest
      · exact Nat.le_max_left _ _
      · exact Nat.le_trans (ih hrest) (Nat.le_max_right _ _)

namespace Machine

variable {p : Program} {most : Nat} {m : Machine}

theorem Bounded.withEntry (h : m.Bounded most) (hp : p.largest ≤ most) (type table : Nat)
    {go : Machine → Callee → Progress}
    (hgo : ∀ {m : Machine} {f : Callee}, m.Bounded most → f.size ≤ most →
      (go m f).Nears most (m.left + 1) m.fuel) :
    (m.withEntry p type table go).Nears most (m.left + 1) m.fuel := by
  unfold Machine.withEntry
  split
  · trivial
  · simp only
    split
    · trivial
    · trivial
    · split
      · trivial
      · rename_i f hf
        split
        · exact hgo (h.setValues _) (Nat.le_trans (Program.size_le_largest hf) hp)
        · trivial

theorem Bounded.getD_map (hp : p.largest ≤ most) {index left : Nat} {fuel : Int}
    {go : Callee → Progress} (hgo : ∀ {f : Callee}, f.size ≤ most → (go f).Nears most left fuel) :
    ((p.functions[index]?.map go).getD m.stuck).Nears most left fuel := by
  cases hf : p.functions[index]? with
  | none => trivial
  | some f => exact hgo (Nat.le_trans (Program.size_le_largest hf) hp)

/-- An instruction that stays where it is was one of those that were left. -/
theorem Bounded.quiet (h : m.Bounded most) {progress : Progress} (hquiet : progress.Quiet m)
    (cost : Nat) : progress.Nears most (m.left + 1) (m.fuel + cost) :=
  (Progress.Nears.of_quiet h hquiet).mono (Nat.le_refl _) (by omega)

/-- The cases are those of the instructions that go anywhere but on. -/
theorem Bounded.stepInstruction (h : m.Bounded most) (hp : p.largest ≤ most) (i : Instruction)
    (hi : i.size + codeSize m.code ≤ most) :
    (stepInstruction p m i).Nears most (m.left + i.size) (m.fuel + cost i) := by
  have hfree : m.fuel ≤ m.fuel + (0 : Nat) := by omega
  have hpaid : m.fuel ≤ m.fuel + (1 : Nat) := by omega
  have hplain := m.quiet_stepPlain i
  have htable := m.quiet_stepTable i
  have hmemory := m.quiet_stepMemory i
  cases i with
  | unreachable => trivial
  | block type body =>
      rw [Instruction.size] at hi
      exact (h.enter (by omega) h.active.code (.inl rfl)).mono (Nat.le_refl _) hfree
  | loop type body =>
      refine nears_refuel fun _ => ?_
      have htarget : codeSize (.loop type body :: m.code) ≤ most := hi
      rw [Instruction.size] at hi
      refine (h.enter (by omega) htarget (.inr ⟨type, body, _, rfl⟩)).mono (Nat.le_refl _) hfree
  | choose type yes no =>
      rw [Instruction.size] at hi ⊢
      unfold Machine.stepInstruction
      simp only
      split
      · trivial
      · rename_i chosen values hvalues
        have hbody : codeSize (if chosen = 0 then no else yes) ≤ codeSize yes + codeSize no := by
          split
          · exact Nat.le_add_left _ _
          · exact Nat.le_add_right _ _
        refine ((h.setValues values).enter (by omega) h.active.code (.inl rfl)).mono ?_ hpaid
        show m.left + _ ≤ _
        omega
  | branch depth => exact (h.branch depth).mono (Nat.le_succ _) (Int.le_refl _)
  | branchIf depth =>
      unfold Machine.stepInstruction
      simp only
      split
      · trivial
      · split
        · have hbeside := (Beside.refl m).setValues ‹List Nat›
          have hquiet : (Progress.running (m.setValues ‹List Nat›)).Quiet m := hbeside
          exact h.quiet hquiet 1
        · exact ((h.setValues _).branch depth).mono (Nat.le_succ _) (Int.le_refl _)
  | branchTable depths otherwise =>
      unfold Machine.stepInstruction
      simp only
      split
      · trivial
      · exact ((h.setValues _).branch _).mono (Nat.le_succ _) (Int.le_refl _)
  | leave => exact h.finish.mono (Nat.le_succ _) hfree
  | call f => exact (getD_map hp fun hf => h.call hf).mono (Nat.le_refl _) hpaid
  | callIndirect type table =>
      exact (h.withEntry hp _ _ fun h hf => h.call hf).mono (Nat.le_refl _) hpaid
  | leaveToCall f => exact (getD_map hp fun hf => h.callInstead hf).mono (Nat.le_refl _) hpaid
  | leaveToCallIndirect type table =>
      exact (h.withEntry hp _ _ fun h hf => h.callInstead hf).mono (Nat.le_refl _) hpaid
  -- all others only compute
  | _ => first | exact h.quiet hplain _ | exact h.quiet htable _ | exact h.quiet hmemory _

theorem left_of_code {i : Instruction} {rest : List Instruction} (hcode : m.code = i :: rest)
    (fuel : Int) :
    m.left =
      left { m with toActivation := { m.toActivation with code := rest }, fuel := fuel } +
        i.size := by
  have hleft : m.left = codeSize m.code + labelsLeft m.labels + callersLeft m.callers := rfl
  rw [hleft, hcode, codeSize]
  show _ = codeSize rest + labelsLeft m.labels + callersLeft m.callers + i.size
  omega

theorem Bounded.step (h : m.Bounded most) (hp : p.largest ≤ most) :
    (m.step p).Nears most m.left m.fuel := by
  unfold Machine.step
  split
  · exact h.close
  · rename_i i rest hcode
    have hsize : i.size + codeSize rest ≤ most := by
      have hactive := h.active.code
      rw [hcode, codeSize] at hactive
      exact hactive
    have hrest : Machine.Bounded most { m with
        toActivation := { m.toActivation with code := rest }, fuel := m.fuel - cost i } :=
      ⟨⟨Nat.le_trans (Nat.le_add_left _ _) hsize, h.active.labels⟩, h.callers⟩
    refine (hrest.stepInstruction hp i hsize).mono ?_ ?_
    · exact Nat.le_of_eq (left_of_code hcode _).symm
    · show m.fuel - cost i + cost i ≤ m.fuel
      omega

/-! ## The potential -/

/-- So many steps are left at most, in code of no more than `most` instructions: those straight on,
and for each unit of fuel the code once more. Without fuel, a loop that is next is the end. -/
def potential (most : Nat) (m : Machine) : Nat :=
  if 0 < m.fuel then m.left + (most + 1) * m.fuel.toNat + 2
  else if m.atLoop then 1 else m.left + 2

theorem potential_of_fuel (h : 0 < m.fuel) :
    m.potential most = m.left + (most + 1) * m.fuel.toNat + 2 := if_pos h

theorem potential_of_loop (h : ¬0 < m.fuel) (hloop : m.atLoop = true) : m.potential most = 1 :=
  (if_neg h).trans (if_pos hloop)

theorem potential_pos (most : Nat) (m : Machine) : 0 < m.potential most := by
  unfold potential
  split
  · exact Nat.succ_pos _
  · split
    · exact Nat.one_pos
    · exact Nat.succ_pos _

theorem potential_le_of_empty (most : Nat) (h : ¬0 < m.fuel) : m.potential most ≤ m.left + 2 := by
  rw [potential, if_neg h]
  split
  · exact Nat.le_add_left _ _
  · exact Nat.le_refl _

theorem lt_potential_of_starts (most : Nat) (h : m.atLoop = true → 0 < m.fuel) :
    m.left + 1 < m.potential most := by
  unfold potential
  split
  · omega
  · rename_i hempty
    rw [if_neg fun hloop => hempty (h hloop)]
    exact Nat.lt_succ_self _

/-- Straight on there is less code, and around less fuel. -/
theorem Nears.potential_lt {next : Machine} (h : next.Nears most m.left m.fuel)
    (hstarts : m.atLoop = true → 0 < m.fuel) : next.potential most < m.potential most := by
  by_cases hfuel : 0 < m.fuel
  · rw [potential_of_fuel hfuel]
    by_cases hnext : 0 < next.fuel
    · rw [potential_of_fuel hnext]
      cases h with
      | along hleft hle =>
          have hmul := Nat.mul_le_mul_left (most + 1) (Int.toNat_le_toNat hle)
          omega
      | around hleft hless _ =>
          -- a unit of fuel outweighs the code that is left again
          have hmul : (most + 1) * (next.fuel.toNat + 1) ≤ (most + 1) * m.fuel.toNat :=
            Nat.mul_le_mul_left (most + 1) (by omega)
          rw [Nat.mul_succ] at hmul
          omega
    · -- the last fuel was used
      have hnext := potential_le_of_empty most hnext
      have hmul : (most + 1) * 1 ≤ (most + 1) * m.fuel.toNat :=
        Nat.mul_le_mul_left (most + 1) (by omega)
      cases h with
      | along hleft _ => omega
      | around hleft _ _ => omega
  · -- without fuel no loop was next, or it would have ended there
    have hbefore := lt_potential_of_starts most hstarts
    cases h with
    | along hleft hle =>
        have hnext := potential_le_of_empty most (m := next) (by omega)
        omega
    | around hleft hless hlooked =>
        -- a loop is next, where fuel is looked at
        have hempty : ¬0 < next.fuel := by omega
        rw [potential_of_loop hempty (hlooked.resolve_left hempty)]
        omega

/-- A loop does not begin without fuel. -/
theorem fuel_pos_of_loop {next : Machine} (hloop : m.atLoop = true)
    (hstep : m.step p = .running next) : 0 < m.fuel := by
  unfold atLoop at hloop
  split at hloop
  · rename_i type body rest hcode
    have hfuel : m.fuel - cost (.loop type body) = m.fuel := Int.sub_zero _
    simp only [step, hcode, stepInstruction, refuel, enter, hfuel] at hstep
    split at hstep
    · cases hstep
    · exact Int.not_le.1 ‹_›
  · cases hloop

/-- A step lowers the potential, and the code stays bounded. -/
theorem Bounded.running {next : Machine} (h : m.Bounded most) (hp : p.largest ≤ most)
    (hstep : m.step p = .running next) :
    next.Bounded most ∧ next.potential most < m.potential most := by
  have hnears := h.step hp
  rw [hstep] at hnears
  exact ⟨hnears.1, hnears.2.potential_lt fun hloop => fuel_pos_of_loop hloop hstep⟩

/-- With as many steps as the potential, a run gets to where they lead. The induction is on the
steps. -/
theorem Bounded.leads_run (h : m.Bounded most) (hp : p.largest ≤ most) {steps : Nat}
    (hsteps : m.potential most ≤ steps) :
    (m.step p).Leads p (m.run p steps).1 (m.run p steps).2 := by
  induction steps generalizing m with
  | zero => exact absurd (m.potential_pos most) (Nat.not_lt.2 hsteps)
  | succ n ih =>
      rw [run]
      cases hstep : m.step p with
      | running next =>
          obtain ⟨hnext, hless⟩ := h.running hp hstep
          exact .running (ih hnext (by omega))
      | ended last ending => exact .ended

/-- Where nothing was left but to take results, one call does not add more than a function. -/
theorem Nears.potential_le {next : Machine} {fuel : Nat} (h : next.Nears most 1 fuel) :
    next.potential most ≤ (most + 1) * fuel + 2 := by
  by_cases hnext : 0 < next.fuel
  · rw [potential_of_fuel hnext]
    cases h with
    | along hleft hle =>
        have hmul := Nat.mul_le_mul_left (most + 1) (show next.fuel.toNat ≤ fuel by omega)
        omega
    | around hleft hless _ =>
        have hmul := Nat.mul_le_mul_left (most + 1) (show next.fuel.toNat + 1 ≤ fuel by omega)
        rw [Nat.mul_succ] at hmul
        omega
  · cases h with
    | along hleft _ =>
        have hempty := potential_le_of_empty most hnext
        omega
    | around _ _ hlooked =>
        rw [potential_of_loop hnext (hlooked.resolve_left hnext)]
        omega

/-- The machine that a function begins on: one with nothing to do but to call it and to take its
results. -/
def begun (f : Callee) (args : List Nat) (live : Instance State) : Machine :=
  { idle live with results := f.type.results.length, values := args.reverse }

theorem bounded_begun (most : Nat) (f : Callee) (args : List Nat) (live : Instance State) :
    (begun f args live).Bounded most :=
  ⟨⟨Nat.zero_le _, List.forall_mem_nil _⟩, List.forall_mem_nil _⟩

end Machine

/-! ## Whole functions -/

namespace Program

variable {p : Program} {f : Callee} {args : List Nat} {live : Instance State}

/-- What a guest's function shows of where its steps lead. -/
def executed (last : Machine) (ending : Except Trap (List Nat)) : Execution State where
  calls := last.calls.reverse
  ending := ending.map fun results => UInt32.ofNat (results.head?.getD 0)
  final := last.live

/-- A run of a function gets to where its steps lead. As many steps as it may take are enough,
however much fuel there is, so that nothing but fuel can cut it short. -/
theorem leads_run (p : Program) (f : Callee) (args : List Nat) (live : Instance State) :
    ∃ last ending, ((Machine.begun f args live).call f).Leads p last ending ∧
      p.run f args live = executed last ending := by
  have hcall := (Machine.bounded_begun (max f.size p.largest) f args live).call
    (Nat.le_max_left _ _)
  unfold run
  change ∃ last ending, _ ∧ Execution.mk _ _ _ = _
  rw [show ({ Machine.idle live with results := f.type.results.length, values := args.reverse } :
    Machine) = Machine.begun f args live from rfl]
  cases hstep : (Machine.begun f args live).call f with
  | running m =>
      rw [hstep] at hcall
      exact ⟨_, _, .running (hcall.1.leads_run (Nat.le_max_right _ _) hcall.2.potential_le), rfl⟩
  | ended last ending => exact ⟨last, ending, .ended, rfl⟩

/-- Where steps lead is what a run comes to. -/
theorem run_of_leads {last : Machine} {ending : Except Trap (List Nat)}
    (h : ((Machine.begun f args live).call f).Leads p last ending) :
    p.run f args live = executed last ending := by
  obtain ⟨last', ending', hleads, hrun⟩ := p.leads_run f args live
  obtain ⟨rfl, rfl⟩ := h.unique hleads
  exact hrun

end Program

end CompilerHost.Binary
