import CompilerHost.Proofs.Bump
import CompilerHost.Proofs.Hearing
import CompilerHost.Proofs.Input

/-! # Inputs on a heap

In a guest whose allocators hand out a heap, no input is ever touched again: the next one goes
behind it, and memory grows behind both.

* `Session.ask_allocator`: what asking such an allocator does to a session;
* `OnHeap` is the invariant, `OnHeap.put` that one input keeps it, and `OnHeap.performAll` that all
  do, whether they go in or not;
* `inputs_intact`: so everything that went in can be read back.
-/

namespace CompilerHost

open Binary

/-- Both allocators of a guest hand out the same heap, as far as it has them. -/
def Guest.UsesHeap (g : Guest State) (p : Program) (heap : Nat) : Prop :=
  ∀ name ∈ [Guest.allocatorExport, Guest.imageAllocatorExport], ∀ f, g.allocator? name = .ok f →
    ∃ callee, p.Allocates heap callee ∧ f = p.asFunction callee

theorem Guest.usesHeap_of_allocators {g : Guest State} {p : Program} {heap : Nat}
    {callee imageCallee : Callee} (hcallee : p.Allocates heap callee)
    (himage : p.Allocates heap imageCallee)
    (hallocator : g.allocator? Guest.allocatorExport = .ok (p.asFunction callee))
    (himageAllocator :
      g.allocator? Guest.imageAllocatorExport = .ok (p.asFunction imageCallee)) :
    g.UsesHeap p heap := by
  intro name hname f hf
  rcases List.mem_cons.1 hname with rfl | hname
  · rw [hallocator] at hf
    exact ⟨callee, hcallee, (Except.ok.inj hf).symm⟩
  · obtain rfl := List.mem_singleton.1 hname
    rw [himageAllocator] at hf
    exact ⟨imageCallee, himage, (Except.ok.inj hf).symm⟩

namespace Session

/-- Running out of fuel, as the host reports it. -/
def noFuel : GuestFault := .execution (.trap .outOfFuel)

/-- A function that makes no calls only leaves an instance and a result behind. -/
theorem call_of_silent {σ : Type} {f : Function σ} {args : List UInt32} {s : Session σ}
    (hfuel : ¬s.live.fuel ≤ entryFuel) (hcalls : (f.run args s.live).calls = []) :
    call f args s =
      ⟨(f.run args s.live).ending.mapError fun t => .execution (.trap t),
        { s with live := (f.run args s.live).final }, []⟩ := by
  rw [call_of_fuel f args hfuel, hcalls]
  show finish (f.run args s.live) s = _
  unfold finish
  cases (f.run args s.live).ending with
  | ok result => rfl
  | error trap => rfl

/-- Asking for bytes of the heap changes only the instance, and takes nothing out of memory. -/
theorem ask_allocator {p : Program} {heap : Nat} {callee : Callee} (h : p.Allocates heap callee)
    {s : Session State} {start : Nat} (hheap : s.live.globals.globals[heap]? = some start)
    (hstart : start < 2 ^ 32) {size : Nat} (hsize : size < 2 ^ 32) :
    ∃ ending live, ask (p.asFunction callee) size s =
        ⟨ending.mapError fun t => .execution (.trap t), { s with live := live }, []⟩ ∧
      s.live.memory.Grown live.memory ∧ Granting heap start size s.live live ending ∧
      (allocating s.live.memory ≤ s.live.fuel.toNat → ending ≠ .error .outOfFuel) ∧
      s.live.fuel.toNat ≤ live.fuel.toNat + allocating s.live.memory := by
  by_cases hfuel : s.live.fuel ≤ entryFuel
  · -- with a unit of fuel at most, the host does not even call
    have hlittle : s.live.fuel.toNat ≤ 1 := UInt64.le_iff_toNat_le.1 hfuel
    refine ⟨.error .outOfFuel, { s.live with fuel := 0 }, call_of_no_fuel _ _ hfuel, .refl,
      .stopped (.inl rfl), ?_, ?_⟩
    · intro henough
      unfold allocating at henough
      omega
    · unfold allocating
      omega
  · have hargs : [UInt32.ofNat size].map (·.toNat) = [size] :=
      congrArg (· :: []) (UInt32.toNat_ofNat_of_lt' hsize)
    have hrun : (p.asFunction callee).run [UInt32.ofNat size] s.live = p.run callee [size] s.live :=
      congrArg (p.run callee · s.live) hargs
    obtain ⟨hcalls, hgrown, hgranting, henough⟩ := Program.run_allocator h hheap hstart hsize
    rw [← hrun] at hcalls hgrown hgranting henough
    refine ⟨_, _, call_of_silent hfuel hcalls, hgrown, hgranting, fun hle => (henough hle).1, ?_⟩
    rcases Nat.lt_or_ge s.live.fuel.toNat (allocating s.live.memory) with hlt | hle
    · exact Nat.le_of_lt (Nat.lt_of_lt_of_le hlt (Nat.le_add_left _ _))
    · exact (henough hle).2

end Session

/-! ## Shortages -/

/-- The faults of inputs that a guest has no room for, or that are too large for any guest. -/
inductive Unplaced (inputs : List Input) : GuestFault → Prop
  | full {input : Input} (hinput : input ∈ inputs) :
      Unplaced inputs (.allocationFailed input.allocator input.bytes.size)
  | large {input : Input} (hinput : input ∈ inputs) (hlarge : 2 ^ 31 ≤ input.bytes.size)
      (length : Nat) : Unplaced inputs (.inputTooLarge length)

/-- Why inputs do not go into a guest that has allocators: it is `dry`, or it is `full`. -/
inductive Shortage (inputs : List Input) (dry full : Prop) : GuestFault → Prop
  | fuel (h : dry) : Shortage inputs dry full Session.noFuel
  | room {fault : GuestFault} (hfault : Unplaced inputs fault) (h : full) :
      Shortage inputs dry full fault

theorem Unplaced.mono {few many : List Input} {fault : GuestFault} (h : Unplaced few fault)
    (hsub : few ⊆ many) : Unplaced many fault := by
  cases h with
  | full hinput => exact .full (hsub hinput)
  | large hinput hlarge length => exact .large (hsub hinput) hlarge length

theorem Shortage.mono {few many : List Input} {dry dry' full full' : Prop} {fault : GuestFault}
    (h : Shortage few dry full fault) (hsub : few ⊆ many) (hdry : dry → dry')
    (hfull : full → full') : Shortage many dry' full' fault := by
  cases h with
  | fuel h => exact .fuel (hdry h)
  | room hfault h => exact .room (hfault.mono hsub) (hfull h)

/-- Whatever goes in, one of the two allocators is asked. -/
theorem Input.allocator_mem (input : Input) :
    input.allocator ∈ [Guest.allocatorExport, Guest.imageAllocatorExport] := by
  cases input with
  | text t => exact List.mem_cons_self
  | image bytes => exact List.mem_cons_of_mem _ List.mem_cons_self

/-- Onto a heap, an input goes right where the heap goes on, or there is a shortage. -/
theorem Input.put_of_usesHeap {p : Program} {heap start : Nat} {input : Input} {s : Session State}
    {f : Function State} (hguest : s.guest.UsesHeap p heap)
    (hheap : s.live.globals.globals[heap]? = some start) (hnull : start ≠ 0)
    (hstart : start < 2 ^ 32) (husable : s.guest.allocator? input.allocator = .ok f) :
    (∃ fault, (input.put s).result = .error fault ∧
      Shortage [input] (s.live.fuel.toNat < allocating s.live.memory)
        (s.live.memory.HasRoom (start + input.bytes.size) → 2 ^ 31 ≤ input.bytes.size) fault) ∨
    ∃ r, (input.put s).result = .ok r ∧ r.start.offset.toNat = start ∧
      r.length.toNat = input.bytes.size ∧
      (input.put s).state.guest = s.guest ∧ (input.put s).state.log = s.log ∧
      (input.put s).state.live.memory.limit = s.live.memory.limit ∧
      (∀ most, s.live.memory.Within most → (input.put s).state.live.memory.Within most) ∧
      s.live.fuel.toNat ≤ (input.put s).state.live.fuel.toNat + allocating s.live.memory := by
  obtain ⟨callee, hcallee, rfl⟩ := hguest input.allocator input.allocator_mem f husable
  have hmember : input ∈ [input] := List.mem_singleton_self input
  have hword : ∀ {size}, size < 2 ^ 31 → size < 2 ^ 32 :=
    fun hsize => Nat.lt_trans hsize (by decide)
  obtain ⟨result, state, turns, hplacing, -, hresult, -, hrecord⟩ := input.put_placing s
  rw [hresult]
  -- the ways of `put`, each held against what this allocator can answer
  cases hplacing with
  | endless hsize =>
      have hlarge : 2 ^ 31 ≤ input.bytes.size := Nat.le_trans (by decide) hsize
      exact .inl ⟨_, rfl, .room (.large hmember hlarge _) fun _ => hlarge⟩
  | unusable _ hallocator =>
      rw [husable] at hallocator
      cases hallocator
  | tooLarge _ _ hlarge => exact .inl ⟨_, rfl, .room (.large hmember hlarge _) fun _ => hlarge⟩
  | failed hsmall hallocator hasked =>
      rw [husable] at hallocator
      cases hallocator
      obtain ⟨ending, live, hask, -, hgranting, hgoes, -⟩ :=
        Session.ask_allocator hcallee hheap hstart (hword hsmall)
      rw [hask] at hasked
      -- an allocator that gives no answer has run dry
      cases hgranting with
      | full => cases hasked
      | granted => cases hasked
      | stopped =>
          cases hasked
          exact .inl ⟨_, rfl, .fuel (Nat.not_le.1 fun hle => hgoes hle rfl)⟩
  | full hsmall hallocator hasked =>
      rw [husable] at hallocator
      cases hallocator
      obtain ⟨ending, live, hask, -, hgranting, -, -⟩ :=
        Session.ask_allocator hcallee hheap hstart (hword hsmall)
      rw [hask] at hasked
      cases ending with
      | error trap => cases hasked
      | ok answer =>
          obtain rfl : answer = 0 := Except.ok.inj hasked
          have hroom := hgranting.not_hasRoom hnull hstart
          exact .inl ⟨_, rfl, .room (.full hmember) fun h => absurd h hroom⟩
  | outside hsmall hallocator hasked hp hfits =>
      rw [husable] at hallocator
      cases hallocator
      obtain ⟨ending, live, hask, -, hgranting, -, -⟩ :=
        Session.ask_allocator hcallee hheap hstart (hword hsmall)
      rw [hask] at hasked hfits
      cases ending with
      | error trap => cases hasked
      | ok answer =>
          obtain rfl := Except.ok.inj hasked
          -- what a heap gives is in memory
          obtain ⟨hp, hroom⟩ := hgranting.of_ok hp
          rw [hp] at hfits
          refine absurd ?_ hfits
          show (UInt32.ofNat start).toNat + input.bytes.size ≤ live.memory.size
          rw [UInt32.toNat_ofNat_of_lt' hstart]
          exact hroom
  | placed hsmall hallocator hasked hp hfits =>
      rw [husable] at hallocator
      cases hallocator
      obtain ⟨ending, live, hask, hgrown, hgranting, -, hfuel⟩ :=
        Session.ask_allocator hcallee hheap hstart (hword hsmall)
      rw [hrecord _ rfl]
      rw [hask] at hasked ⊢
      cases ending with
      | error trap => cases hasked
      | ok answer =>
          obtain rfl := Except.ok.inj hasked
          refine .inr ⟨_, rfl, ?_, toNat_ofNat_of_small hsmall, ?_, ?_, ?_, ?_, ?_⟩
          · rw [(hgranting.of_ok hp).1]
            exact UInt32.toNat_ofNat_of_lt' hstart
          · cases input <;> rfl
          · cases input <;> rfl
          · rw [live_record]
            exact (Memory.limit_overwrite _ _ _).trans hgrown.limit
          · intro most hmost
            rw [live_record]
            exact (hgrown.within hmost).overwrite _ _
          · rw [live_record]
            exact hfuel

/-! ## The invariant -/

/-- The place behind a region. -/
def Region.finish (r : Region) : Nat := r.start.offset.toNat + r.length.toNat

/-- Inputs are in their regions, which are apart from each other and from the heap that is left. -/
structure OnHeap (p : Program) (heap start : Nat) (placed : List (Region × Input))
    (s : Session State) : Prop where
  guest : s.guest.UsesHeap p heap
  next : s.live.globals.globals[heap]? = some start
  word : start < 2 ^ 32
  below : ∀ given ∈ placed, given.1.finish ≤ start
  held : ∀ given ∈ placed, s.live.memory.readRegion given.1 = .ok given.2.bytes
  apart : placed.Pairwise fun a b => a.1.Disjoint b.1

namespace OnHeap

variable {p : Program} {heap start : Nat} {placed : List (Region × Input)} {s s' : Session State}

/-- Asking for room keeps all inputs, and what it gives is new. -/
theorem ask (h : OnHeap p heap start placed s) {name : String}
    (hname : name ∈ [Guest.allocatorExport, Guest.imageAllocatorExport]) {f : Function State}
    (hallocator : s.guest.allocator? name = .ok f) {size : Nat} (hsize : size < 2 ^ 32) :
    ∃ next, OnHeap p heap next placed (Session.ask f size s).state ∧ start ≤ next ∧
      ∀ a, (Session.ask f size s).result = .ok a → a ≠ 0 →
        a.toNat = start ∧ next = start + size := by
  obtain ⟨callee, hcallee, rfl⟩ := h.guest name hname f hallocator
  obtain ⟨ending, live, hask, hgrown, hgranting, -, -⟩ :=
    Session.ask_allocator hcallee h.next h.word hsize
  rw [hask]
  have hheld : ∀ given ∈ placed, live.memory.readRegion given.1 = .ok given.2.bytes :=
    fun given hgiven => Memory.readRegion_of_extends (h.held given hgiven) hgrown.toExtends
  have hstays : live.globals = s.live.globals →
      OnHeap p heap start placed { s with live := live } := by
    intro hglobals
    exact ⟨h.guest, by rw [hglobals]; exact h.next, h.word, h.below, hheld, h.apart⟩
  have hmoves : start + size < 2 ^ 32 → live.globals = s.live.globals.withHeap heap (start + size) →
      OnHeap p heap (start + size) placed { s with live := live } := by
    intro hwrap hglobals
    refine ⟨h.guest, ?_, hwrap, ?_, hheld, h.apart⟩
    · have hlt := (Array.getElem?_eq_some_iff.1 h.next).1
      rw [hglobals]
      exact Array.getElem?_setIfInBounds_self_of_lt hlt
    · intro given hgiven
      exact Nat.le_trans (h.below given hgiven) (Nat.le_add_right _ _)
  cases hgranting with
  | full _ hglobals =>
      refine ⟨start, hstays hglobals, Nat.le_refl _, ?_⟩
      intro a ha hnull
      exact absurd (Except.ok.inj ha).symm hnull
  | granted hwrap hfits hglobals =>
      refine ⟨start + size, hmoves hwrap hglobals, Nat.le_add_right _ _, ?_⟩
      intro a ha _
      rw [← Except.ok.inj ha]
      exact ⟨UInt32.toNat_ofNat_of_lt' h.word, rfl⟩
  | stopped hglobals =>
      rcases hglobals with hglobals | ⟨hwrap, hglobals⟩
      · exact ⟨start, hstays hglobals, Nat.le_refl _, fun a ha => by cases ha⟩
      · exact ⟨start + size, hmoves hwrap hglobals, Nat.le_add_right _ _, fun a ha => by cases ha⟩

theorem of_sublist {fewer : List (Region × Input)} (h : OnHeap p heap start placed s)
    (hsub : fewer.Sublist placed) : OnHeap p heap start fewer s where
  guest := h.guest
  next := h.next
  word := h.word
  below := fun given hgiven => h.below given (hsub.subset hgiven)
  held := fun given hgiven => h.held given (hsub.subset hgiven)
  apart := h.apart.sublist hsub

/-- A write behind everything that was there adds to it. -/
theorem putIn {next : Nat} {before after : Session State} {input : Input} {r : Region}
    (h : OnHeap p heap next placed before) (hbelow : ∀ given ∈ placed, given.1.finish ≤ start)
    (hstart : r.start.offset.toNat = start) (hnext : r.finish = next)
    (hput : input.PutIn r before after) : OnHeap p heap next (placed ++ [(r, input)]) after where
  guest := by
    rw [hput.others]
    cases input with
    | text t => exact h.guest
    | image bytes => exact h.guest
  next := by
    rw [hput.others, Input.live_record]
    exact h.next
  word := h.word
  below := by
    intro given hgiven
    rcases List.mem_append.1 hgiven with hold | hnew
    · exact h.below given hold
    · rw [List.mem_singleton.1 hnew]
      exact Nat.le_of_eq hnext
  held := by
    intro given hgiven
    rcases List.mem_append.1 hgiven with hold | hnew
    · obtain ⟨hsize, hholds⟩ := Memory.readRegion_eq_ok_iff.1 (h.held given hold)
      refine Memory.readRegion_eq_ok_iff.2 ⟨hsize, hholds.of_sameOutside hput.outside ?_⟩
      intro i _ hi
      rw [length_toList_byteArray, hsize] at hi
      have hfinish := hbelow given hold
      rw [Region.finish] at hfinish
      exact .inl (by omega)
    · rw [List.mem_singleton.1 hnew]
      exact hput.content
  apart := by
    refine List.pairwise_append.2 ⟨h.apart, List.pairwise_singleton _ _, ?_⟩
    intro given hgiven new hnew i hi hin
    rw [List.mem_singleton.1 hnew] at hin
    have hfinish := hbelow given hgiven
    rw [Region.finish] at hfinish
    have hlow := hin.1
    have hhigh := hi.2
    dsimp only at hlow
    omega

/-- An input that goes in is one more, and one that does not leaves the others as they are. -/
theorem put (h : OnHeap p heap start placed s) (input : Input) :
    (∃ r, (input.put s).result = .ok r ∧
      OnHeap p heap r.finish (placed ++ [(r, input)]) (input.put s).state) ∨
    ∃ fault next, (input.put s).result = .error fault ∧
      OnHeap p heap next placed (input.put s).state := by
  have hname := input.allocator_mem
  rcases input.put_course s with
    ⟨f, a, hallocator, hsmall, hasked, hnull, hresult, hput⟩ |
    ⟨⟨fault, hresult⟩, hstate | ⟨f, hallocator, hsmall, hstate⟩⟩
  · have hsize : input.bytes.size < 2 ^ 32 := Nat.lt_trans hsmall (by decide)
    obtain ⟨next, hon, _, hgiven⟩ := h.ask hname hallocator hsize
    obtain ⟨hstart, hnext⟩ := hgiven a hasked hnull
    have hfinish : Region.finish ⟨⟨a⟩, UInt32.ofNat input.bytes.size⟩ = next := by
      rw [Region.finish, Input.toNat_ofNat_of_small hsmall, hstart, hnext]
    refine .inl ⟨_, hresult, ?_⟩
    rw [hfinish]
    exact hon.putIn h.below hstart hfinish hput
  · rw [hstate]
    exact .inr ⟨fault, start, hresult, h⟩
  · have hsize : input.bytes.size < 2 ^ 32 := Nat.lt_trans hsmall (by decide)
    obtain ⟨next, hon, _, _⟩ := h.ask hname hallocator hsize
    rw [hstate]
    exact .inr ⟨fault, next, hresult, hon⟩

end OnHeap

/-! ## Sequences of calls -/

/-- A call by which the host hands something over. -/
inductive Handing where
  | encode (text : String)
  | prepareInputs (options : Options) (source : String)
  | loadFilesystem (image : ByteArray)

namespace Handing

variable {σ : Type}

/-- Makes the call. The regions that it returns stand with what was to go into them. -/
def perform : Handing → Action (Session σ) GuestFault (List (Region × Input))
  | .encode text =>
    (fun encoded => [(encoded.region, .text text)]) <$> Session.encode text
  | .prepareInputs options source =>
    (fun (optionsText, sourceText) =>
      [(optionsText.region, .text options.json), (sourceText.region, .text source)]) <$>
      Session.prepareInputs options source
  | .loadFilesystem image =>
    (fun region => [(region, .image image)]) <$> Session.loadFilesystem image

/-- What a call returned, if it succeeded. -/
def returned (ended : Ended (Session σ) GuestFault (List (Region × Input))) :
    List (Region × Input) :=
  match ended.result with
  | .ok given => given
  | .error _ => []

/-- Makes calls one after the other, whether they succeed or not: what those that did returned, and
the session that they leave. -/
def performAll : List Handing → Session σ → List (Region × Input) × Session σ
  | [], s => ([], s)
  | call :: rest, s =>
    let ended := call.perform s
    let (given, after) := performAll rest ended.state
    (returned ended ++ given, after)

end Handing

namespace OnHeap

variable {p : Program} {heap start : Nat} {placed : List (Region × Input)} {s : Session State}

theorem encode (h : OnHeap p heap start placed s) (text : String) :
    (∃ t, (Session.encode text s).result = .ok t ∧
      OnHeap p heap t.region.finish (placed ++ [(t.region, .text text)])
        (Session.encode text s).state) ∨
    ∃ fault next, (Session.encode text s).result = .error fault ∧
      OnHeap p heap next placed (Session.encode text s).state := by
  rcases h.put (.text text) with ⟨r, hresult, hon⟩ | ⟨fault, next, hresult, hon⟩
  · obtain ⟨hencode, hstate⟩ := Session.encode_of_put_ok hresult
    rw [← hstate] at hon
    exact .inl ⟨⟨r⟩, hencode, hon⟩
  · obtain ⟨hencode, hstate⟩ := Session.encode_of_put_error hresult
    rw [← hstate] at hon
    exact .inr ⟨fault, next, hencode, hon⟩

theorem perform (h : OnHeap p heap start placed s) (call : Handing) :
    ∃ next, OnHeap p heap next (placed ++ Handing.returned (call.perform s))
      (call.perform s).state := by
  cases call with
  | encode text =>
      rw [Handing.perform, Action.map_apply, Handing.returned]
      rcases h.encode text with ⟨t, hresult, hon⟩ | ⟨fault, next, hresult, hon⟩
      · rw [hresult]
        exact ⟨_, hon⟩
      · rw [hresult]
        exact ⟨next, by rw [Except.map, List.append_nil]; exact hon⟩
  | loadFilesystem image =>
      rw [Handing.perform, Action.map_apply, Handing.returned]
      rcases h.put (.image image) with ⟨r, hresult, hon⟩ | ⟨fault, next, hresult, hon⟩
      · have hresult : (Session.loadFilesystem image s).result = .ok r := hresult
        rw [hresult]
        exact ⟨_, hon⟩
      · have hresult : (Session.loadFilesystem image s).result = .error fault := hresult
        rw [hresult]
        exact ⟨next, by rw [Except.map, List.append_nil]; exact hon⟩
  | prepareInputs options source =>
      rw [Handing.perform, Action.map_apply, Handing.returned, Session.prepareInputs]
      rcases h.encode options.json with ⟨t, hresult, hon⟩ | ⟨fault, next, hresult, hon⟩
      · rw [Action.bind_of_ok _ hresult]
        rcases hon.encode source with ⟨t', hresult', hon'⟩ | ⟨fault, next', hresult', hon'⟩
        · rw [Action.bind_of_ok _ hresult']
          rw [List.append_assoc] at hon'
          exact ⟨_, hon'⟩
        · rw [Action.bind_of_error _ hresult']
          refine ⟨next', ?_⟩
          rw [Ended.behind, Except.map, List.append_nil]
          exact hon'.of_sublist (List.sublist_append_left placed _)
      · rw [Action.bind_of_error _ hresult]
        exact ⟨next, by rw [Except.map, List.append_nil]; exact hon⟩

theorem performAll (h : OnHeap p heap start placed s) (calls : List Handing) :
    ∃ next, OnHeap p heap next (placed ++ (Handing.performAll calls s).1)
      (Handing.performAll calls s).2 := by
  induction calls generalizing s placed start with
  | nil => exact ⟨start, by rw [Handing.performAll, List.append_nil]; exact h⟩
  | cons call rest ih =>
      obtain ⟨next, hon⟩ := h.perform call
      obtain ⟨final, hfinal⟩ := ih hon
      rw [List.append_assoc] at hfinal
      exact ⟨final, hfinal⟩

end OnHeap

/-- Whatever is handed over to a guest that uses a heap, and whether it goes in or not: all regions
that were returned so far lie inside memory and apart from each other, and each still has what was
put there. Texts are still there when memory has grown. -/
theorem inputs_intact {p : Program} {heap : Nat} {s : Session State} {start : UInt32}
    (hguest : s.guest.UsesHeap p heap) (hheap : s.live.globals.globals[heap]? = some start.toNat)
    (calls : List Handing) :
    let given := (Handing.performAll calls s).1
    let memory := (Handing.performAll calls s).2.live.memory
    (∀ r input, (r, input) ∈ given →
      r.start.offset.toNat + r.length.toNat ≤ memory.size ∧
      memory.readRegion r = .ok input.bytes ∧
      ∀ t, input = .text t → ∀ grown : Memory, grown.Extends memory →
        grown.readText r.start (EncodedText.mk r).textLength.toNat = .ok t) ∧
    given.Pairwise fun a b => a.1.Disjoint b.1 := by
  have hstart : OnHeap p heap start.toNat [] s :=
    ⟨hguest, hheap, start.toNat_lt, List.forall_mem_nil _, List.forall_mem_nil _, .nil⟩
  obtain ⟨next, hon⟩ := hstart.performAll calls
  refine ⟨?_, hon.apart⟩
  intro r input hgiven
  have hread := hon.held (r, input) hgiven
  obtain ⟨hsize, hholds⟩ := Memory.readRegion_eq_ok_iff.1 hread
  have hfits := hholds.fits
  rw [length_toList_byteArray, hsize] at hfits
  refine ⟨hfits, hread, ?_⟩
  rintro t rfl grown hgrown
  exact Input.readText_of_readRegion (Memory.readRegion_of_extends hread hgrown)

/-! ## A guest with a heap -/

/-- A module that has a heap and nothing else; the image is left to the allocator for texts. -/
def heapModule (start least most : Nat) : Module where
  types := [Guest.allocatorType]
  imports := []
  functions := [0, 0]
  tables := []
  memories := [⟨1, least, some most⟩]
  globals := [(⟨some .i32, 1⟩, [.constant .i32 start])]
  exports := [⟨Guest.memoryExport, 2, 0⟩, ⟨Guest.allocatorExport, 0, 0⟩,
    ⟨Guest.imageAllocatorExport, 0, 1⟩]
  start := none
  elements := []
  dataCount := none
  codes := [⟨[.i32, .i32], allocatorCode 0⟩, ⟨[], [.localGet 0, .call 0]⟩]
  data := []

theorem usesHeap_heapModule (start least most : Nat) :
    (heapModule start least most).guest.UsesHeap (heapModule start least most).program 0 :=
  Guest.usesHeap_of_allocators .itself (.calling rfl) rfl rfl

/-- A session with such a guest, whose heap starts near the end of its only page. -/
def heapSession : Session State :=
  Loaded.unstarted ⟨(heapModule 65530 1 16).guest, 1000000⟩ ⟨#[65530], #[], #[], #[]⟩
    (Memory.zeros 1 16) (.fresh none)

/-- All calls succeed there: the image is empty and goes where the options do, and the source goes
onto a page that is added for it. -/
theorem inputs_intact_heapSession :
    heapSession.guest.UsesHeap (heapModule 65530 1 16).program 0 ∧
    heapSession.live.globals.globals[0]? = some (65530 : UInt32).toNat ∧
    let calls := [.encode "é", .loadFilesystem .empty, .prepareInputs Options.none "int x;"]
    let given := (Handing.performAll calls heapSession).1
    let memory := (Handing.performAll calls heapSession).2.live.memory
    given.map (fun put => (put.1.start.offset, put.1.length, put.2.bytes.toList)) =
      [(65530, 3, [0xC3, 0xA9, 0]), (65533, 0, []), (65533, 3, [0x5B, 0x5D, 0]),
        (65536, 7, [0x69, 0x6E, 0x74, 0x20, 0x78, 0x3B, 0])] ∧
    memory.size = 2 * pageSize ∧
    (∀ r input, (r, input) ∈ given →
      r.start.offset.toNat + r.length.toNat ≤ memory.size ∧
      memory.readRegion r = .ok input.bytes ∧
      ∀ t, input = .text t → ∀ grown : Memory, grown.Extends memory →
        grown.readText r.start (EncodedText.mk r).textLength.toNat = .ok t) ∧
    given.Pairwise fun a b => a.1.Disjoint b.1 := by
  have hguest := usesHeap_heapModule 65530 1 16
  have hheap : heapSession.live.globals.globals[0]? = some (65530 : UInt32).toNat := rfl
  refine ⟨hguest, hheap, ?_, ?_, inputs_intact hguest hheap _⟩
  · decide +kernel
  · decide +kernel

end CompilerHost
