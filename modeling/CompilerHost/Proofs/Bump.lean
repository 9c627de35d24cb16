import CompilerHost.Binary.Guest
import CompilerHost.Proofs.Machine

/-! # A heap that is handed out

An allocator that keeps one number, where its heap goes on, and hands out what is there. It never
takes anything back, and adds pages to memory as it needs them.

* `allocatorCode` is its code, and `Program.Allocates` tells the functions that are this allocator
  or leave everything to it;
* `ends_growing` is about its loop, and `ends_allocator` about the whole of it;
* `Program.run_allocator`: asked for bytes, it gives those that come next, or none where memory
  has no room for them, and with too little fuel it is stopped.
-/

namespace CompilerHost.Binary

namespace Operation

/-- The sum of two words. -/
def addWords : Operation := (binary .i32 .i32 fun a b => bitsOf 32 (a + b)).constant

/-- The product of two words. -/
def multiplyWords : Operation := (binary .i32 .i32 fun a b => bitsOf 32 (a * b)).constant

/-- Whether a word is zero. -/
def isZeroWord : Operation := unary .i32 .i32 fun a => flag (a = 0)

/-- Whether two words compare in some way, without their signs. -/
def compared (r : Relation) (a b : Nat) : Nat :=
  flag (r.holds (Sign.unsigned.number 32 a) (Sign.unsigned.number 32 b))

def compareWords (r : Relation) : Operation := binary .i32 .i32 (compared r)

example : (integerArithmetic .i32 32)[3]? = some addWords := rfl
example : (integerArithmetic .i32 32)[5]? = some multiplyWords := rfl
example : (integerTests .i32 32)[0]? = some isZeroWord := rfl
example : (integerTests .i32 32)[1]? = some (compareWords .equal) := rfl

theorem flag_eq_zero {b : Bool} : flag b = 0 ↔ b = false := by
  cases b <;> decide

theorem flag_eq_zero_decide {c : Prop} [Decidable c] : flag (decide c) = 0 ↔ ¬c := by
  rw [flag_eq_zero, decide_eq_false_iff_not]

theorem compared_less_eq_zero {a b : Nat} : compared .less a b = 0 ↔ b ≤ a := by
  rw [show compared .less a b = flag (decide ((a : Int) < b)) from rfl, flag_eq_zero_decide]
  omega

theorem compared_atMost_eq_zero {a b : Nat} : compared .atMost a b = 0 ↔ b < a := by
  rw [show compared .atMost a b = flag (decide ((a : Int) ≤ b)) from rfl, flag_eq_zero_decide]
  omega

theorem compared_equal_eq_zero {a b : Nat} : compared .equal a b = 0 ↔ a ≠ b := by
  rw [show compared .equal a b = flag (decide ((a : Int) = b)) from rfl, flag_eq_zero_decide]
  omega

end Operation

open Operation

/-! ## The allocator -/

/-- Adds pages one by one until memory reaches the end in local 2. -/
def growing : List Instruction :=
  [.localGet 2, .memorySize, .constant .i32 65536, .operate multiplyWords,
    .operate (compareWords .atMost), .branchIf 1,
    .constant .i32 1, .memoryGrow, .constant .i32 0xFFFFFFFF, .operate (compareWords .equal),
    .choose (.plain none) [.constant .i32 0, .leave] [],
    .branch 0]

/-- Hands out the heap, which goes on where a global says: so many bytes as asked for, and memory
grows to have them. -/
def allocatorCode (heap : Nat) : List Instruction :=
  [.globalGet heap, .localSet 1,
    .localGet 1, .localGet 0, .operate addWords, .localSet 2,
    .localGet 2, .localGet 1, .operate (compareWords .less),
    .choose (.plain none) [.constant .i32 0, .leave] [],
    .block (.plain none) [.loop (.plain none) growing],
    .localGet 2, .globalSet heap, .localGet 1]

def bumpAllocator (heap : Nat) : Callee := ⟨Guest.allocatorType, .code 2 (allocatorCode heap)⟩

/-- Leaves everything to another allocator. -/
def callingAllocator (allocator : Nat) : Callee :=
  ⟨Guest.allocatorType, .code 0 [.localGet 0, .call allocator]⟩

section

variable {p : Program} {outcome : Shared → Except Trap (List Nat) → Prop} {s : Shared}
  {waiting : List Activation} {caller : Activation} {size start finish after : Nat}
  {rest : List Instruction}

/-- What the loop looks at first. The size of a page is any: with the number itself, the two sides
are compared by counting. -/
theorem compute_reaching (page : Nat) (code : List Instruction) :
    compute s (.localGet 2 :: .memorySize :: .constant .i32 page :: .operate multiplyWords ::
        .operate (compareWords .atMost) :: .branchIf 1 :: code) #[size, start, finish] [] =
      (5, .branchIf 1 :: code, #[size, start, finish],
        [compared .atMost finish (s.memory.pages.size * page % 2 ^ 32)]) := rfl

/-- The loop adds pages until there are enough, or no more can be had. It goes round once for each
page, with twelve instructions. -/
theorem ends_growing (after : Nat) (memory : Memory)
    (hstopped : ∀ m, memory.Grown m → outcome { s with memory := m } (.error .outOfFuel))
    (hfull : ∀ m, memory.Grown m → ¬memory.HasRoom finish →
      Ends p outcome after { s with memory := m } waiting
        { caller with values := 0 :: caller.values })
    (henough : ∀ m, memory.Grown m → finish ≤ m.size →
      Ends p outcome after { s with memory := m } (caller :: waiting)
        ⟨1, #[size, start, finish], [], rest, []⟩) :
    Ends p outcome (12 * memory.growth + after + 12) { s with memory := memory } (caller :: waiting)
      ⟨1, #[size, start, finish], [⟨0, rest, rest, []⟩], [.loop (.plain none) growing], []⟩ := by
  -- each page that is added leaves one less that can be
  induction hgrowth : memory.growth using Nat.strongRecOn generalizing memory with
  | ind room ih =>
      refine .loop ?_
      refine .compute 5 (growing.drop 5) #[size, start, finish] _
        (compute_reaching 65536 (growing.drop 6)) ?_
      refine .branchIf rfl ?_ ?_
      · intro hmissing
        have hless : memory.pages.size * 65536 % 2 ^ 32 < finish :=
          compared_atMost_eq_zero.1 hmissing
        refine .compute 1 (.memoryGrow :: growing.drop 8) _ [1] rfl ?_
        refine .memoryGrow (hstopped memory .refl) ?_ ?_
        · intro grown hgrow
          have hgrow : memory.grow? 1 = some grown := hgrow
          obtain ⟨hpages, rfl⟩ := Memory.grow?_eq_some_iff.1 hgrow
          have hgrown : memory.Grown _ := .step .refl hgrow
          have hcount : memory.pages.size + 1 ≤ 65536 := Nat.le_trans hpages (Nat.min_le_right _ _)
          -- no count of pages is the number that stands for a failure
          have hdone : compared .equal memory.pages.size 0xFFFFFFFF = 0 :=
            compared_equal_eq_zero.2 (by omega)
          refine .compute 2 (growing.drop 10) _
            [compared .equal memory.pages.size 0xFFFFFFFF] rfl ?_
          refine .choose (fun _ => ?_) (absurd hdone)
          refine .close ?_
          refine .branch rfl ?_
          have hmore : (memory.pages ++ Array.replicate 1 ByteArray.empty).size =
              memory.pages.size + 1 := by rw [Array.size_append, Array.size_replicate]
          have hleft : Memory.growth
              { memory with pages := memory.pages ++ Array.replicate 1 ByteArray.empty } + 1 =
              room := by
            rw [← hgrowth, Memory.growth, Memory.growth]
            dsimp only
            omega
          refine (ih _ (by omega) _ ?_ ?_ ?_ rfl).mono (by omega)
          · exact fun m hm => hstopped m (hgrown.trans hm)
          · exact fun m hm hroom => hfull m (hgrown.trans hm) fun h => hroom (h.grown hgrown)
          · exact fun m hm => henough m (hgrown.trans hm)
        · intro hgrow
          have hgrow : memory.grow? 1 = none := hgrow
          have hfailed : compared .equal Machine.failure 0xFFFFFFFF ≠ 0 := by decide
          refine .compute 2 (growing.drop 10) _ [compared .equal Machine.failure 0xFFFFFFFF] rfl ?_
          refine .choose (fun h => absurd h hfailed) fun _ => ?_
          refine .compute 1 [.leave] _ [0] rfl ?_
          refine .finish (.inr ⟨_, rfl⟩) ?_
          refine (hfull memory .refl ?_).mono (by omega)
          intro hroom
          have hfits : finish ≤ memory.pages.size * 65536 := hroom.le_of_grow?_eq_none hgrow
          have hpages := hroom.pages
          have hlimit : memory.limit < 65536 := hroom.limit
          rw [Nat.mod_eq_of_lt (by omega)] at hless
          omega
      · intro hfits
        refine (henough memory .refl ?_).mono (by omega)
        -- the product may wrap, but only to something smaller
        have hmod : memory.pages.size * 65536 % 2 ^ 32 ≤ memory.pages.size * 65536 := Nat.mod_le _ _
        have hle : finish ≤ memory.pages.size * 65536 % 2 ^ 32 :=
          Nat.not_lt.1 fun h => hfits (compared_atMost_eq_zero.2 h)
        exact Nat.le_trans hle hmod

/-- The allocator hands out the heap from where it goes on, or null if there is no room. Memory may
have grown either way. -/
theorem ends_allocator (after : Nat) {heap : Nat} (hheap : s.state.globals[heap]? = some start)
    (hstart : start < 2 ^ 32) (hsize : size < 2 ^ 32)
    (hstopped : ∀ m, s.memory.Grown m → outcome { s with memory := m } (.error .outOfFuel))
    (hfull : ∀ m, s.memory.Grown m → ¬s.memory.HasRoom (start + size) →
      Ends p outcome after { s with memory := m } waiting
        { caller with values := 0 :: caller.values })
    (henough : ∀ m, s.memory.Grown m → start + size < 2 ^ 32 → start + size ≤ m.size →
      Ends p outcome after
        { s with
          state := { s.state with globals := s.state.globals.setIfInBounds heap (start + size) }
          memory := m }
        waiting { caller with values := start :: caller.values }) :
    Ends p outcome (12 * s.memory.growth + after + 25) s (caller :: waiting)
      ⟨1, #[size, 0, 0], [], allocatorCode heap, []⟩ := by
  refine .compute 9 ((allocatorCode heap).drop 9) #[size, start, (start + size) % 2 ^ 32]
    [compared .less ((start + size) % 2 ^ 32) start] ?_ ?_
  · have hget : s.state.globals[heap]?.getD 0 = start := by
      rw [hheap]
      rfl
    rw [← hget]
    rfl
  refine .choose ?_ ?_
  · intro hless
    -- a sum that wraps is less than what was added to
    rw [compared_less_eq_zero] at hless
    have hwrap : start + size < 2 ^ 32 := by omega
    rw [Nat.mod_eq_of_lt hwrap]
    refine .close ?_
    refine .block ?_
    refine (ends_growing (after + 3) s.memory hstopped ?_ ?_).mono (by omega)
    · exact fun m hm hroom => (hfull m hm hroom).mono (Nat.le_add_right _ _)
    · intro m hm hfits
      refine .compute 1 (.globalSet heap :: [.localGet 1]) _ [start + size] rfl ?_
      refine .globalSet (hstopped m hm) ?_
      refine .compute 1 [] _ [start] rfl ?_
      refine .finish (.inl ⟨rfl, rfl⟩) ?_
      exact henough m hm hwrap hfits
  · intro hwraps
    rw [Ne, compared_less_eq_zero] at hwraps
    refine .compute 1 [.leave] _ [0] rfl ?_
    refine .finish (.inr ⟨_, rfl⟩) ?_
    refine (hfull s.memory .refl ?_).mono (by omega)
    intro hroom
    have hword := hroom.lt_word
    rw [Nat.mod_eq_of_lt hword] at hwraps
    omega

variable {results : Nat} {locals : Array Nat} {labels : List Label} {values : List Nat}

/-- A call of the allocator, from wherever there is room for one. -/
theorem ends_call_allocator (after : Nat) {heap f : Nat}
    (hcallee : p.functions[f]? = some (bumpAllocator heap))
    (hheap : s.state.globals[heap]? = some start) (hstart : start < 2 ^ 32)
    (hsize : size < 2 ^ 32) (hdepth : waiting.length < Machine.maxDepth)
    (hstopped : ∀ m, s.memory.Grown m → outcome { s with memory := m } (.error .outOfFuel))
    (hfull : ∀ m, s.memory.Grown m → ¬s.memory.HasRoom (start + size) →
      Ends p outcome after { s with memory := m } waiting
        ⟨results, locals, labels, rest, 0 :: values⟩)
    (henough : ∀ m, s.memory.Grown m → start + size < 2 ^ 32 → start + size ≤ m.size →
      Ends p outcome after
        { s with
          state := { s.state with globals := s.state.globals.setIfInBounds heap (start + size) }
          memory := m }
        waiting ⟨results, locals, labels, rest, start :: values⟩) :
    Ends p outcome (12 * s.memory.growth + after + 27) s waiting
      ⟨results, locals, labels, .call f :: rest, size :: values⟩ := by
  refine .call hcallee rfl hdepth ?_
  exact ends_allocator after hheap hstart hsize hstopped hfull henough

end

/-! ## As functions of a guest -/

/-- A function of a program, as a guest has it. -/
def Program.asFunction (p : Program) (f : Callee) : Function State :=
  ⟨f.type, fun args => p.run f (args.map (·.toNat))⟩

/-- A function that hands out the heap, which goes on where a global says. -/
inductive Program.Allocates (p : Program) (heap : Nat) : Callee → Prop
  | itself : Allocates p heap (bumpAllocator heap)
  | calling {f : Nat} (hcallee : p.functions[f]? = some (bumpAllocator heap)) :
      Allocates p heap (callingAllocator f)

/-- The state with the heap going on elsewhere. -/
def State.withHeap (s : State) (heap next : Nat) : State :=
  { s with globals := s.globals.setIfInBounds heap next }

/-- What comes of asking for so many bytes of the heap, which goes on at `start`. -/
inductive Granting (heap start size : Nat) (live live' : Instance State) : Except Trap UInt32 → Prop
  /-- There is no room for them, and the heap stays. -/
  | full (hroom : ¬live.memory.HasRoom (start + size)) (hglobals : live'.globals = live.globals) :
      Granting heap start size live live' (.ok 0)
  /-- There are such bytes, and the heap goes on behind them. -/
  | granted (hwrap : start + size < 2 ^ 32) (hfits : start + size ≤ live'.memory.size)
      (hglobals : live'.globals = live.globals.withHeap heap (start + size)) :
      Granting heap start size live live' (.ok (UInt32.ofNat start))
  /-- Fuel ran out, before the heap was moved or behind that. -/
  | stopped
      (hglobals : live'.globals = live.globals ∨
        start + size < 2 ^ 32 ∧ live'.globals = live.globals.withHeap heap (start + size)) :
      Granting heap start size live live' (.error .outOfFuel)

/-- An answer that is not null is where the heap went on. -/
theorem Granting.of_ok {heap start size : Nat} {live live' : Instance State} {a : UInt32}
    (h : Granting heap start size live live' (.ok a)) (ha : a ≠ 0) :
    a = UInt32.ofNat start ∧ start + size ≤ live'.memory.size := by
  cases h with
  | full => exact absurd rfl ha
  | granted _ hfits => exact ⟨rfl, hfits⟩

/-- An answer that is null is given for want of room. -/
theorem Granting.not_hasRoom {heap start size : Nat} {live live' : Instance State}
    (h : Granting heap start size live live' (.ok 0)) (hstart : start ≠ 0)
    (hword : start < 2 ^ 32) : ¬live.memory.HasRoom (start + size) := by
  generalize hresult : (Except.ok 0 : Except Trap UInt32) = result at h
  cases h with
  | full hroom => exact hroom
  | granted =>
      have hnull : (UInt32.ofNat start).toNat = 0 := by
        rw [← Except.ok.inj hresult]
        rfl
      rw [UInt32.toNat_ofNat_of_lt' hword] at hnull
      exact absurd hnull hstart
  | stopped => cases hresult

/-- So much fuel is enough to ask for bytes: twelve units for each page that memory may add, and
the rest of the code. -/
def allocating (m : Memory) : Nat := 12 * m.growth + 29

/-- What the code of an allocator comes to, in a guest that was `live` when it began. -/
structure Allocated (heap start size : Nat) (live : Instance State) (s : Shared)
    (ending : Except Trap (List Nat)) : Prop where
  calls : s.calls = []
  grown : live.memory.Grown s.memory
  granting : ∀ final : Instance State, final.memory = s.memory → final.globals = s.state →
    Granting heap start size live final
      (ending.map fun results => UInt32.ofNat (results.head?.getD 0))

section

variable {p : Program} {heap start size : Nat} {live : Instance State}

theorem Allocated.stopped {m : Memory} (hm : live.memory.Grown m) :
    Allocated heap start size live ⟨live.globals, m, []⟩ (.error .outOfFuel) :=
  ⟨rfl, hm, fun _ _ hglobals => .stopped (.inl hglobals)⟩

theorem ends_full {m : Memory} (hm : live.memory.Grown m)
    (hroom : ¬live.memory.HasRoom (start + size)) :
    Ends p (Allocated heap start size live) 0 ⟨live.globals, m, []⟩ [] ⟨1, #[], [], [], [0]⟩ :=
  .done ⟨rfl, hm, fun _ _ hglobals => .full hroom hglobals⟩ (.stopped hm)

theorem ends_granted {m : Memory} (hm : live.memory.Grown m) (hwrap : start + size < 2 ^ 32)
    (hfits : start + size ≤ m.size) :
    Ends p (Allocated heap start size live) 0 ⟨live.globals.withHeap heap (start + size), m, []⟩ []
      ⟨1, #[], [], [], [start]⟩ := by
  refine .done ⟨rfl, hm, ?_⟩ ⟨rfl, hm, fun _ _ hglobals => .stopped (.inr ⟨hwrap, hglobals⟩)⟩
  intro final hmemory hglobals
  exact .granted hwrap (hmemory ▸ hfits) hglobals

/-- Either function is code that hands over what the allocator leaves. -/
theorem Program.Allocates.ends {callee : Callee} (h : p.Allocates heap callee)
    (hheap : live.globals.globals[heap]? = some start) (hstart : start < 2 ^ 32)
    (hsize : size < 2 ^ 32) :
    callee.type = Guest.allocatorType ∧ ∃ extra body, callee.body = .code extra body ∧
      Ends p (Allocated heap start size live) (12 * live.memory.growth + 28)
        ⟨live.globals, live.memory, []⟩ [.taking 1]
        ⟨1, #[size] ++ Array.replicate extra 0, [], body, []⟩ := by
  cases h with
  | itself =>
      refine ⟨rfl, _, _, rfl, ?_⟩
      refine (ends_allocator 0 hheap hstart hsize (fun _ => .stopped) ?_ ?_).mono ?_
      · exact fun _ hm hroom => ends_full hm hroom
      · exact fun _ hm hwrap hfits => ends_granted hm hwrap hfits
      · exact Nat.add_le_add_left (show 25 ≤ 28 by decide) (12 * live.memory.growth)
  | calling hcallee =>
      refine ⟨rfl, _, _, rfl, ?_⟩
      refine .compute 1 [.call _] _ [size] rfl ?_
      refine ends_call_allocator 0 (s := ⟨live.globals, live.memory, []⟩) hcallee hheap hstart hsize
        (show 1 < Machine.maxDepth by decide) (fun _ => .stopped) ?_ ?_
      · exact fun _ hm hroom => .finish (.inl ⟨rfl, rfl⟩) (ends_full hm hroom)
      · exact fun _ hm hwrap hfits => .finish (.inl ⟨rfl, rfl⟩) (ends_granted hm hwrap hfits)

/-- The heap is handed out from where it goes on. There is an answer unless fuel was short. -/
theorem Program.run_allocator {callee : Callee} (h : p.Allocates heap callee)
    (hheap : live.globals.globals[heap]? = some start) (hstart : start < 2 ^ 32)
    (hsize : size < 2 ^ 32) :
    let e := p.run callee [size] live
    e.calls = [] ∧ live.memory.Grown e.final.memory ∧
      Granting heap start size live e.final e.ending ∧
      (allocating live.memory ≤ live.fuel.toNat → e.ending ≠ .error .outOfFuel ∧
        live.fuel.toNat ≤ e.final.fuel.toNat + allocating live.memory) := by
  intro e
  obtain ⟨htype, extra, body, hbody, hends⟩ := h.ends hheap hstart hsize
  have hargs : [size].length = callee.type.params.length := by
    rw [htype]
    rfl
  have hresults : callee.type.results.length = 1 := by
    rw [htype]
    rfl
  rw [← hresults] at hends
  obtain ⟨s, ending, hallocated, hcalls, hending, hmemory, hglobals, hfuel⟩ :=
    Program.run_of_ends hbody hargs (12 * live.memory.growth + 27) hends
  rw [hallocated.calls] at hcalls
  refine ⟨hcalls, hmemory ▸ hallocated.grown,
    hending ▸ hallocated.granting e.final hmemory hglobals, ?_⟩
  intro henough
  obtain ⟨hgoes, hleft⟩ := hfuel henough
  refine ⟨?_, hleft⟩
  rw [hending]
  intro hdry
  cases ending with
  | ok results => cases hdry
  | error t => exact hgoes (congrArg Except.error (Except.error.inj hdry))

end

end CompilerHost.Binary
