import CompilerHost.Proofs.Budget
import CompilerHost.Proofs.EntryForms
import CompilerHost.Proofs.Heap
import CompilerHost.Proofs.RoundTrip

/-! # The most frugal compile

What a compile takes at least, some compile can do with. There is a module whose functions give a
word each and do nothing else: the place for an image, and the place of an output that is part of
its data.

* `Function.Gives`: a function gives a word for two units of fuel;
* `Frugal.ofBytes_bytes`: the bytes of the module are accepted, whatever the fuel;
* `Frugal.decoded`: with as much fuel as any compile takes, every compile comes to the output.
-/

namespace CompilerHost

/-! ## Functions that give a word -/

section Giving

variable {σ τ : Type}

/-- A function gives a word, takes two units of fuel for it, and changes nothing else. -/
def Function.Gives (f : Function σ) (word : UInt32) : Prop :=
  ∀ args live, args.length = f.type.params.length → 1 < live.fuel.toNat →
    f.run args live = ⟨[], .ok word, { live with fuel := live.fuel - 2 }⟩

/-- A function gives the same where the guest remembers more. -/
theorem Function.Gives.within {f : Function σ} {word : UInt32} (h : f.Gives word) {get : τ → σ}
    {set : τ → σ → τ} (hset : ∀ whole, set whole (get whole) = whole) :
    (f.within get set).Gives word := by
  intro args live hargs hfuel
  have hrun := h args (live.part get) hargs hfuel
  have hback : Instance.within set live.globals { live.part get with fuel := live.fuel - 2 } =
      { live with fuel := live.fuel - 2 } := by
    show Instance.mk live.memory (set live.globals (get live.globals)) (live.fuel - 2) = _
    rw [hset]
  show Execution.mk _ _ _ = _
  rw [hrun]
  exact congrArg (Execution.mk [] (.ok word)) hback

end Giving

namespace Binary

/-- Two units less are two units less, in words as in numbers. -/
theorem ofNat_sub_two {fuel : UInt64} (h : 1 < fuel.toNat) :
    UInt64.ofNat ((fuel.toNat : Int) - 1 - 1).toNat = fuel - 2 := by
  have htwo : (2 : UInt64) ≤ fuel := UInt64.le_iff_toNat_le.2 h
  have hbound := fuel.toNat_lt
  have hword : ((fuel.toNat : Int) - 1 - 1).toNat < UInt64.size := by
    rw [UInt64.size]
    omega
  rw [← UInt64.toNat_inj, UInt64.toNat_sub_of_le fuel 2 htwo, UInt64.toNat_ofNat_of_lt' hword]
  show _ = fuel.toNat - 2
  omega

/-- Code that is one constant is a function that gives it: one unit is for the function, and one
for the constant. -/
theorem Program.gives_constant {p : Program} {f : Callee} {type : ValueType} {v : Nat}
    (hbody : f.body = .code 0 [.constant type v]) (hresults : f.type.results.length = 1) :
    (p.asFunction f).Gives (UInt32.ofNat v) := by
  intro args live hargs hfuel
  have hlength : (args.map (·.toNat)).length = f.type.params.length := by
    rw [List.length_map]
    exact hargs
  let begun : Shared := ⟨live.globals, live.memory, []⟩
  let words := (args.map (·.toNat)).toArray ++ Array.replicate 0 0
  let left : Int := (live.fuel.toNat : Int) - 1
  have hcall : (Machine.begun f (args.map (·.toNat)) live).call f =
      .running (begun.machine [.taking 1] ⟨1, words, [], [.constant type v], []⟩ left) := by
    have hleft : ¬left ≤ 0 := by omega
    rw [Machine.call_begun hbody hlength, hresults]
    exact if_neg hleft
  -- the constant is put on the stack, the code ends, and its value is the result
  have hconstant : (begun.machine [.taking 1] ⟨1, words, [], [.constant type v], []⟩ left).step p =
      .running (begun.machine [.taking 1] ⟨1, words, [], [], [v]⟩ (left - 1)) := rfl
  have hreturn : (begun.machine [.taking 1] ⟨1, words, [], [], [v]⟩ (left - 1)).step p =
      .running (begun.machine [] ⟨1, #[], [], [], [v]⟩ (left - 1)) := rfl
  have hend : (begun.machine [] ⟨1, #[], [], [], [v]⟩ (left - 1)).step p =
      .ended (begun.machine [] ⟨1, #[], [], [], [v]⟩ (left - 1)) (.ok [v]) := rfl
  have hleads : ((Machine.begun f (args.map (·.toNat)) live).call f).Leads p
      (begun.machine [] ⟨1, #[], [], [], [v]⟩ (left - 1)) (.ok [v]) := by
    rw [hcall]
    refine .running ?_
    rw [hconstant]
    refine .running ?_
    rw [hreturn]
    refine .running ?_
    rw [hend]
    exact .ended
  rw [asFunction_run, run_of_leads hleads, ← ofNat_sub_two hfuel]
  rfl

end Binary

namespace Session

variable {σ : Type} {s : Session σ} {f : Function σ} {word : UInt32}

/-- The session with so much less fuel. -/
def spent (s : Session σ) (fuel : UInt64) : Session σ :=
  { s with live := { s.live with fuel := s.live.fuel - fuel } }

theorem call_of_gives (hf : f.Gives word) {args : List UInt32}
    (hargs : args.length = f.type.params.length) (hfuel : 1 < s.live.fuel.toNat) :
    call f args s = ⟨.ok word, s.spent 2, []⟩ := by
  have hbegins : ¬s.live.fuel ≤ entryFuel := by
    rw [UInt64.le_iff_toNat_le]
    exact Nat.not_le.2 hfuel
  have hrun := hf args s.live hargs hfuel
  rw [call_of_silent hbegins (congrArg Execution.calls hrun), hrun]
  rfl

/-- Bytes go where an allocator always says, if there is room for them. -/
theorem place_of_gives {name : String} {data : ByteArray} (length : Nat)
    (hallocator : s.guest.allocator? name = .ok f) (hf : f.Gives word) (hword : word ≠ 0)
    (hfuel : 1 < s.live.fuel.toNat) (hsmall : data.size < 1 <<< 31)
    (hfits : s.live.memory.Fits ⟨word⟩ data.size) :
    place name data length s =
      ⟨.ok ⟨⟨word⟩, UInt32.ofNat data.size⟩,
        (s.spent 2).withMemory (s.live.memory.overwrite word.toNat data.toList), []⟩ := by
  have hargs : [UInt32.ofNat data.size].length = f.type.params.length := by
    rw [(Guest.allocator?_ok_iff.1 hallocator).2]
    rfl
  have hasked : ask f data.size s = ⟨.ok word, s.spent 2, []⟩ := call_of_gives hf hargs hfuel
  have hroom : data.size ≤ (UInt32.ofNat data.size).toNat :=
    Nat.le_of_eq (UInt32.toNat_ofNat_of_lt' (Nat.lt_trans hsmall (by decide))).symm
  have hwrite := writeRegion_of_fits (r := ⟨⟨word⟩, UInt32.ofNat data.size⟩) (s := s.spent 2)
    hroom hfits
  rw [place_of_small length hallocator hsmall, Action.bind_of_ok _ (congrArg Ended.result hasked),
    hasked, if_neg hword, Action.bind_of_ok _ (congrArg Ended.result hwrite), hwrite]
  rfl

/-- A guest that takes no inputs gives the address of its result at once. -/
theorem compile_of_gives (hentry : s.guest.function? compileExport = some f)
    (htype : f.type = ⟨[], [.i32]⟩) (hf : f.Gives word) (hfuel : 1 < s.live.fuel.toNat)
    (options : Options) (source : String) :
    (compile options source s).result = .ok ⟨word⟩ ∧
      (compile options source s).state = s.spent 2 := by
  have hform : formOf? f = .ok .noInputs := by
    rw [formOf?, htype]
    rfl
  have hargs : ([] : List Address).length = f.type.params.length := by
    rw [htype]
    rfl
  have henter : (Watched.handOver .noInputs f options source).action s =
      ⟨.ok word, s.spent 2, []⟩ := by
    refine (congrFun (Watched.action_enter f []) s).trans ?_
    rw [enter, htype]
    exact call_of_gives hf hargs hfuel
  rw [(compile_of_resolved hentry hform options source).1,
    Action.bind_of_ok _ (congrArg Ended.result henter), henter]
  exact ⟨rfl, rfl⟩

end Session

/-! ## The module -/

namespace Frugal

/-- Where the output is, behind its length. -/
def outputPlace : Nat := 64

/-- Where images go. -/
def imagePlace : Nat := 4096

/-- The most bytes of an image: as many as there are behind its place. -/
def imageRoom : Nat := pageSize - imagePlace

/-- The output, the mark of an ELF file. -/
def output : ByteArray := ⟨ArtifactKind.elfMagic.toArray⟩

/-- A function that gives a place. -/
def giving (place : Nat) : Binary.Code := ⟨[], [.constant .i32 place]⟩

/-- One page of memory, an allocator that always gives the one place, and an entry point without
inputs that gives the other. -/
def module : Binary.Module :=
  { Binary.Module.empty with
    types := [Guest.allocatorType, ⟨[], [.i32]⟩]
    functions := [0, 1]
    memories := [⟨0, 1, none⟩]
    exports := [⟨Guest.memoryExport, 2, 0⟩, ⟨Guest.allocatorExport, 0, 0⟩,
      ⟨Guest.imageAllocatorExport, 0, 0⟩, ⟨compileExport, 0, 1⟩]
    codes := [giving imagePlace, giving outputPlace]
    data := [⟨some [.constant .i32 outputPlace], [4, 0, 0, 0] ++ ArtifactKind.elfMagic⟩] }

/-- The module as it is written. -/
def sections : List Binary.Section :=
  [⟨1, [2, 0x60, 1, 0x7F, 1, 0x7F, 0x60, 0, 1, 0x7F]⟩,
    ⟨3, [2, 0, 1]⟩,
    ⟨5, [1, 0, 1]⟩,
    ⟨7, Binary.writeCounted Binary.writeExport module.exports⟩,
    ⟨10, [2, 5, 0, 0x41, 0x80, 0x20, 0x0B, 5, 0, 0x41, 0xC0, 0, 0x0B]⟩,
    ⟨11, [1, 0, 0x41, 0xC0, 0, 0x0B, 8, 4, 0, 0, 0] ++ ArtifactKind.elfMagic⟩]

def bytes : ByteArray :=
  ⟨(Binary.writeHeader ++
    sections.flatMap fun s => Binary.writeSection s.id s.content).toArray⟩

def guest : Guest Engine.State := Engine.ofModule module

theorem sections_bytes :
    Binary.sections? (bytes.toList.drop Binary.headerBytes) = some sections := by decide +kernel

theorem ofSections?_sections : Binary.Module.ofSections? sections = some module := by
  have hread : Binary.Module.addSections 0 Binary.Module.empty sections = some module := by
    with_unfolding_all rfl
  have hvalid : module.isValid = true := by decide +kernel
  rw [Binary.Module.ofSections?, hread]
  show (if module.isValid then some module else none) = _
  exact if_pos hvalid

theorem scripts_sections : sections.findSome? Engine.scriptIn? = none := by decide +kernel

theorem isPlain_bytes : Engine.IsPlain bytes := by
  intro found hfound
  obtain rfl := Option.some.inj (sections_bytes.symm.trans hfound)
  exact scripts_sections

theorem standard_bytes : Engine.standard bytes = some guest := by
  have hversion : Binary.encoding? (bytes.extract 0 Binary.headerBytes).toList =
      some (.module Engine.version) := by decide +kernel
  rw [Engine.standard, if_pos hversion, sections_bytes, Option.bind_some, Engine.ofSections?,
    scripts_sections]
  exact congrArg (Option.map Engine.ofModule) ofSections?_sections

/-- The bytes are accepted, whatever fuel the sessions are to get. -/
theorem ofBytes_bytes {S : Type} (fuel : UInt64) (s : S) :
    (Loaded.ofBytes Engine.standard bytes fuel s).result = .ok ⟨guest, fuel⟩ := by
  have hsize : checkArtifactSize bytes.size = .ok () := if_pos (by decide +kernel)
  have hinspected : ∃ told, Binary.inspect bytes = .ok told ∧
      told.require requiredExports = .ok () := by
    have heval : (match Binary.inspect bytes with
        | .ok told => (told.require requiredExports).isOk
        | .error _ => false) = true := by decide +kernel
    split at heval
    · rename_i told htold
      refine ⟨told, htold, ?_⟩
      cases hrequired : told.require requiredExports with
      | ok _ => rfl
      | error cause =>
          rw [hrequired] at heval
          cases heval
    · cases heval
  obtain ⟨told, htold, hrequired⟩ := hinspected
  simp only [Loaded.ofBytes, hsize, htold, hrequired, standard_bytes, Action.ofExcept_ok, pure_bind,
    Action.emit_bind_apply, Ended.behind_result]
  rfl

/-! ## Its guest -/

/-- What code changes is put back where it was. -/
theorem set_module (whole : Engine.State) :
    ({ whole with module := whole.module } : Engine.State) = whole := rfl

/-- What the allocators are. -/
def allocator : Binary.Callee := ⟨Guest.allocatorType, .code 0 [.constant .i32 imagePlace]⟩

/-- What the entry point is. -/
def entry : Binary.Callee := ⟨⟨[], [.i32]⟩, .code 0 [.constant .i32 outputPlace]⟩

theorem allocator_guest : ∃ f, guest.allocator? Guest.imageAllocatorExport = .ok f ∧
    f.Gives (UInt32.ofNat imagePlace) := by
  have hgives : (module.program.asFunction allocator).Gives (UInt32.ofNat imagePlace) :=
    Binary.Program.gives_constant rfl rfl
  exact ⟨_, rfl, hgives.within set_module⟩

theorem entry_guest : ∃ f, guest.function? compileExport = some f ∧ f.type = ⟨[], [.i32]⟩ ∧
    f.Gives (UInt32.ofNat outputPlace) := by
  have hgives : (module.program.asFunction entry).Gives (UInt32.ofNat outputPlace) :=
    Binary.Program.gives_constant rfl rfl
  exact ⟨_, rfl, rfl, hgives.within set_module⟩

/-! ## Its sessions -/

/-- A session of the guest whose output is in its place. -/
structure Ready (s : Session Engine.State) : Prop where
  guest : s.guest = guest
  size : s.live.memory.size = pageSize
  output : s.live.memory.Holds outputPlace
    (Memory.wordBytes (UInt32.ofNat output.size) ++ output.toList)

namespace Ready

variable {s : Session Engine.State}

theorem spent (h : Ready s) (fuel : UInt64) : Ready (s.spent fuel) :=
  ⟨h.guest, h.size, h.output⟩

theorem outcomeAt (h : Ready s) :
    (Session.outcomeAt ⟨UInt32.ofNat outputPlace⟩ s).result = .ok (.payload Frugal.output) := by
  have hread : s.live.memory.outcomeAt ⟨UInt32.ofNat outputPlace⟩ = .ok (.payload Frugal.output) :=
    Memory.outcomeAt_of_holds h.output (by decide) (by decide) (by decide)
  rw [Session.outcomeAt, Action.get_bind_apply, hread]
  rfl

/-- A compile takes two units of fuel. -/
theorem compile (h : Ready s) (hfuel : 2 ≤ s.live.fuel.toNat) (options : Options)
    (source : String) :
    ((Session.compile options source >>= Session.outcomeAt) s).result =
      .ok (.payload Frugal.output) := by
  obtain ⟨f, hentry, htype, hgives⟩ := entry_guest
  obtain ⟨hresult, hstate⟩ :=
    Session.compile_of_gives (h.guest ▸ hentry) htype hgives hfuel options source
  rw [Action.bind_of_ok _ hresult, hstate, Ended.behind_result]
  exact (h.spent 2).outcomeAt

/-- An image takes two units of fuel, and does not touch the output. -/
theorem loadFilesystem (h : Ready s) (hfuel : 4 ≤ s.live.fuel.toNat) {image : ByteArray}
    (himage : image.size ≤ imageRoom) :
    ∃ r, (Session.loadFilesystem image s).result = .ok r ∧
      Ready (Session.loadFilesystem image s).state ∧
      2 ≤ (Session.loadFilesystem image s).state.live.fuel.toNat := by
  obtain ⟨f, hallocator, hgives⟩ := allocator_guest
  have hroom : image.size ≤ 61440 := himage
  have hfits : imagePlace + image.size ≤ s.live.memory.size := by
    rw [h.size]
    show 4096 + image.size ≤ 65536
    omega
  have hplace := Session.place_of_gives image.size (s := s) (h.guest ▸ hallocator) hgives
    (by decide) (Nat.lt_of_lt_of_le (by decide) hfuel) (Nat.lt_of_le_of_lt hroom (by decide)) hfits
  have hplaced : (Session.place Guest.imageAllocatorExport image image.size s).result =
      .ok ⟨⟨UInt32.ofNat imagePlace⟩, UInt32.ofNat image.size⟩ := by rw [hplace]
  refine ⟨⟨⟨UInt32.ofNat imagePlace⟩, UInt32.ofNat image.size⟩, ?_⟩
  rw [Session.loadFilesystem, Action.bind_of_ok _ hplaced, hplace]
  refine ⟨rfl, ⟨h.guest, ?_, ?_⟩, ?_⟩
  · exact (Memory.size_overwrite _ _ _).trans h.size
  · refine h.output.of_overwrite ?_ (.inl (by decide +kernel))
    rw [length_toList_byteArray]
    exact hfits
  · show 2 ≤ (s.live.fuel - 2).toNat
    rw [UInt64.toNat_sub_of_le]
    · show 2 ≤ s.live.fuel.toNat - 2
      omega
    · rw [UInt64.le_iff_toNat_le]
      show 2 ≤ s.live.fuel.toNat
      omega

end Ready

/-- A session opens with all of its fuel, and with the output in its place. -/
theorem instantiate {l : Loaded Engine.State} (hguest : l.guest = guest) (log : Log) :
    ∃ s, (l.instantiate log ()).result = .ok s ∧ Ready s ∧ s.live.fuel = l.fuel := by
  let placed : ByteArray := ⟨([4, 0, 0, 0] ++ ArtifactKind.elfMagic).toArray⟩
  let m := (Memory.zeros 1 maxPages).overwrite outputPlace placed.toList
  have hglobals : guest.globals = .ok ⟨0, ⟨#[], #[], #[], #[[]]⟩⟩ := rfl
  have hdata : guest.data = [(UInt32.ofNat outputPlace, placed)] := rfl
  have hzeros : guest.memory = Memory.zeros 1 maxPages := rfl
  have hfits : outputPlace + placed.size ≤ (Memory.zeros 1 maxPages).size := by decide
  have hmemory : Loaded.initialMemory guest.data guest.memory = .ok m := by
    rw [hdata, hzeros]
    exact Loaded.initialMemory_cons [] hfits
  have hsetUp : l.setUp = .ok (⟨0, ⟨#[], #[], #[], #[[]]⟩⟩, m) := by
    rw [Loaded.setUp, hguest, hglobals, hmemory]
    rfl
  obtain ⟨f, hallocator⟩ : ∃ f, guest.allocator? Guest.allocatorExport = .ok f := ⟨_, rfl⟩
  have hopen := Loaded.instantiate_of_unstarted hsetUp (by rw [hguest]; rfl) (by rw [hguest]; rfl)
    (hguest ▸ hallocator) log
  refine ⟨_, hopen, ⟨hguest, Memory.size_overwrite _ _ _, ?_⟩, rfl⟩
  have hwritten : Memory.wordBytes (UInt32.ofNat output.size) ++ output.toList =
      placed.toList := by decide +kernel
  rw [hwritten]
  refine Memory.holds_overwrite _ ?_
  rw [length_toList_byteArray]
  exact hfits

/-- With as much fuel as any compile takes, a compile comes to the output, whatever is asked. -/
theorem decoded {p : Pipeline Engine.State} (hguest : p.loaded.guest = guest)
    (himage : ∀ image, p.image = some image → image.size ≤ imageRoom)
    (hfuel : Pipeline.fuelNeeded p.image ≤ p.loaded.fuel.toNat) (request : Request) (log : Log) :
    p.decoded request log = .ok (.payload output) := by
  obtain ⟨s, hopen, hready, hleft⟩ := instantiate hguest log
  rw [Pipeline.decoded_of_opened request hopen]
  rw [← hleft] at hfuel
  unfold Pipeline.compileIn
  cases hi : p.image with
  | none =>
      rw [hi] at hfuel
      exact hready.compile hfuel request.options request.source
  | some image =>
      rw [hi] at hfuel
      obtain ⟨r, hresult, hloaded, hrest⟩ := hready.loadFilesystem hfuel (himage image hi)
      show ((Session.loadFilesystem image >>= fun _ => _) s).result = _
      rw [Action.bind_of_ok _ hresult, Ended.behind_result]
      exact hloaded.compile hrest request.options request.source

end Frugal

end CompilerHost
