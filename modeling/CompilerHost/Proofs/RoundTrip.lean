import CompilerHost.Proofs.Delivery
import CompilerHost.Proofs.Entering
import CompilerHost.Proofs.Heap
import CompilerHost.Proofs.StandIn

/-! # From source to sinks

A run with the guest that echoes, from end to end. Image, options and source go onto its heap, one
behind the other; it finds each by its zero, and what it makes of the source is read from its memory
and handed to the sinks.

* `StandIn.Ready` is the invariant of a session while inputs go in, and `StandIn.Ready.put` that
  each keeps it or runs into a shortage;
* `StandIn.Ready.handed`: by then the guest finds what `run_echoCompiler` asks for;
* `StandIn.fuelFor` is fuel that is enough for a run, and `StandIn.HasRoom` the room that is enough
  for its inputs;
* `Pipeline.run_standIn`: so the source comes out at every sink, byte for byte.
-/

namespace CompilerHost

open Binary

namespace StandIn

/-! ## Inputs -/

/-- Both allocators of the guest hand out its heap. -/
theorem usesHeap_standIn : standIn.guest.UsesHeap standIn.program 0 :=
  Guest.usesHeap_of_allocators .itself (.calling rfl) rfl rfl

theorem allocator_standIn (input : Input) :
    ∃ f, standIn.guest.allocator? input.allocator = .ok f := by
  cases input with
  | text t => exact ⟨_, rfl⟩
  | image bytes => exact ⟨_, rfl⟩

/-- The entry point takes both texts. -/
theorem function_standIn :
    standIn.guest.function? compileExport = some (standIn.program.asFunction echoCompiler) := rfl

/-- The text that the guest has from its start, where it is. It lies below the heap like an input
that went in first. -/
def greeting : Region × Input := (⟨⟨16⟩, 13⟩, .image "tcc: options ".toUTF8)

/-- The place behind all memory that the guest may have. -/
def memoryEnd : Nat := 16 * pageSize

/-- The bytes of inputs, all together. -/
def sizes : List Input → Nat
  | [] => 0
  | input :: rest => input.bytes.size + sizes rest

/-- So much fuel is enough to put one input into the guest. -/
def puttingFuel : Nat := 12 * 16 + 29

/-- A session before the compile: what went in is on the heap, which goes on behind it, and the log
is as it was. -/
structure Ready (log : Log) (next : Nat) (placed : List (Region × Input)) (s : Session State) :
    Prop where
  guest : s.guest = standIn.guest
  log : s.log = log
  low : 4096 ≤ next
  heap : OnHeap standIn.program 0 next placed s
  within : s.live.memory.Within 16
  limit : s.live.memory.limit = 16

namespace Ready

variable {log : Log} {next : Nat} {placed : List (Region × Input)} {s : Session State}

theorem allocating_le (h : Ready log next placed s) : allocating s.live.memory ≤ puttingFuel := by
  have hgrowth := Memory.growth_le h.within
  unfold allocating puttingFuel
  omega

/-- There is room up to the end of the memory that the guest may have. -/
theorem hasRoom (h : Ready log next placed s) {finish : Nat} (hfits : finish ≤ memoryEnd) :
    s.live.memory.HasRoom finish := by
  refine ⟨?_, ?_, ?_⟩
  · rw [h.limit]
    exact h.within.pages
  · rw [h.limit]
    decide
  · rw [h.limit]
    exact hfits

/-- An input goes behind all others, or there is a shortage. -/
theorem put (h : Ready log next placed s) (input : Input) :
    (∃ fault, (input.put s).result = .error fault ∧
      Shortage [input] (s.live.fuel.toNat < puttingFuel) (memoryEnd < next + input.bytes.size)
        fault) ∨
    ∃ r, (input.put s).result = .ok r ∧ r.start.offset.toNat = next ∧
      Ready log (next + input.bytes.size) (placed ++ [(r, input)]) (input.put s).state ∧
      s.live.fuel.toNat ≤ (input.put s).state.live.fuel.toNat + puttingFuel := by
  obtain ⟨f, hallocator⟩ := allocator_standIn input
  rw [← h.guest] at hallocator
  have hlow := h.low
  have hfuel := h.allocating_le
  rcases Input.put_of_usesHeap h.heap.guest h.heap.next (by omega) h.heap.word hallocator with
    ⟨fault, hresult, hshort⟩ |
    ⟨r, hresult, hstart, hlength, hguest, hlog, hlimit, hwithin, hspent⟩
  · refine .inl ⟨fault, hresult, hshort.mono (List.Subset.refl _) ?_ ?_⟩
    · intro hdry
      exact Nat.lt_of_lt_of_le hdry hfuel
    · intro hfull
      refine Nat.not_le.1 fun hfits => ?_
      have hlarge := hfull (h.hasRoom hfits)
      have hmost : memoryEnd < 2 ^ 31 := by decide
      omega
  · -- the invariant of the heap has this step already, and goes the same way
    rcases h.heap.put input with ⟨r', hresult', hon⟩ | ⟨fault, next', hresult', _⟩
    · rw [hresult] at hresult'
      cases hresult'
      rw [Region.finish, hstart, hlength] at hon
      refine .inr ⟨r, hresult, hstart, ?_, by omega⟩
      refine ⟨?_, ?_, by omega, hon, hwithin 16 h.within, ?_⟩
      · rw [hguest, h.guest]
      · rw [hlog, h.log]
      · rw [hlimit, h.limit]
    · rw [hresult] at hresult'
      cases hresult'

theorem encode (h : Ready log next placed s) (text : String) :
    (∃ fault, (Session.encode text s).result = .error fault ∧
      Shortage [.text text] (s.live.fuel.toNat < puttingFuel)
        (memoryEnd < next + (Input.text text).bytes.size) fault) ∨
    ∃ t, (Session.encode text s).result = .ok t ∧ t.start.offset.toNat = next ∧
      Ready log (next + (Input.text text).bytes.size) (placed ++ [(t.region, .text text)])
        (Session.encode text s).state ∧
      s.live.fuel.toNat ≤ (Session.encode text s).state.live.fuel.toNat + puttingFuel := by
  rcases h.put (.text text) with ⟨fault, hresult, hshort⟩ | ⟨r, hresult, hstart, hready, hspent⟩
  · exact .inl ⟨fault, (Session.encode_of_put_error hresult).1, hshort⟩
  · obtain ⟨hencode, hstate⟩ := Session.encode_of_put_ok hresult
    rw [← hstate] at hready hspent
    exact .inr ⟨⟨r⟩, hencode, hstart, hready, hspent⟩

theorem prepareInputs (h : Ready log next placed s) (options : Options) (source : String) :
    let given := [Input.text options.json, .text source]
    (∃ fault, (Session.prepareInputs options source s).result = .error fault ∧
      Shortage given (s.live.fuel.toNat < 2 * puttingFuel) (memoryEnd < next + sizes given) fault) ∨
    ∃ o t, (Session.prepareInputs options source s).result = .ok (o, t) ∧
      next ≤ t.start.offset.toNat ∧
      Ready log (next + sizes given)
        (placed ++ [(o.region, .text options.json), (t.region, .text source)])
        (Session.prepareInputs options source s).state ∧
      s.live.fuel.toNat ≤
        (Session.prepareInputs options source s).state.live.fuel.toNat + 2 * puttingFuel := by
  intro given
  have hsizes : sizes given =
      (Input.text options.json).bytes.size + ((Input.text source).bytes.size + 0) := rfl
  rw [Session.prepareInputs, hsizes]
  rcases h.encode options.json with ⟨fault, hresult, hshort⟩ | ⟨o, hresult, _, hready, hspent⟩
  · rw [Action.bind_of_error _ hresult]
    exact .inl ⟨fault, rfl, hshort.mono (by simp [given]) (by omega) (by omega)⟩
  · rw [Action.bind_of_ok _ hresult]
    rcases hready.encode source with
      ⟨fault, hresult, hshort⟩ | ⟨t, hresult, hstart, hready, hspent'⟩
    · rw [Action.bind_of_error _ hresult]
      exact .inl ⟨fault, rfl, hshort.mono (by simp [given]) (by omega) (by omega)⟩
    · rw [Action.bind_of_ok _ hresult]
      rw [List.append_assoc, Nat.add_assoc] at hready
      refine .inr ⟨o, t, rfl, hstart ▸ Nat.le_add_right _ _, hready, ?_⟩
      show _ ≤ (Session.encode source _).state.live.fuel.toNat + _
      omega

/-- What the guest is to find is there. -/
theorem handed (h : Ready log next placed s) {options source : String} {o t : EncodedText}
    (hgreeting : greeting ∈ placed) (hoptions : (o.region, .text options) ∈ placed)
    (hsource : (t.region, .text source) ∈ placed) (hlow : 4096 ≤ t.start.offset.toNat) :
    Handed options source.toUTF8.toList s.live.globals s.live.memory o.start.offset.toNat
      t.start.offset.toNat := by
  have hon := h.heap
  have htext : ∀ (e : EncodedText) (text : String), (e.region, Input.text text) ∈ placed →
      e.region.length.toNat = text.toUTF8.toList.length + 1 ∧
        s.live.memory.Holds e.start.offset.toNat (text.toUTF8.toList ++ [0]) := by
    intro e text hmem
    obtain ⟨hsize, hholds⟩ := Memory.readRegion_eq_ok_iff.1 (hon.held _ hmem)
    dsimp only [Input.bytes] at hsize hholds
    rw [toList_push_byteArray] at hholds
    rw [ByteArray.size_push] at hsize
    exact ⟨by rw [length_toList_byteArray]; exact hsize.symm, hholds⟩
  obtain ⟨hlength, hheld⟩ := htext t source hsource
  have hbelow := hon.below _ hsource
  rw [Region.finish] at hbelow
  refine ⟨?_, (htext o options hoptions).2, hheld, by omega, ⟨next, hon.next, ?_, hon.word⟩,
    h.within⟩
  · exact (Memory.readRegion_eq_ok_iff.1 (hon.held _ hgreeting)).2
  · show t.region.start.offset.toNat + _ < _
    dsimp only at hbelow
    omega

end Ready

/-! ## The compile -/

/-- A source that the guest takes: it is not empty, has no zero in it, and does not begin with one
of the two characters by which the guest is told to decline. -/
structure Echoable (source : String) : Prop where
  nonempty : source ≠ ""
  noZero : '\x00' ∉ source.toList
  notBang : source.toList.head? ≠ some '!'
  notQuery : source.toList.head? ≠ some '?'

/-- What the guest makes of a source. -/
def echo (source : String) : ByteArray := ⟨ArtifactKind.elfMagic.toArray⟩ ++ source.toUTF8

theorem toList_echo (source : String) :
    (echo source).toList = ArtifactKind.elfMagic ++ source.toUTF8.toList := by
  rw [toList_byteArray, toList_byteArray, echo, ByteArray.data_append, Array.toList_append]

theorem size_echo (source : String) : (echo source).size = source.toUTF8.toList.length + 4 := by
  rw [echo, ByteArray.size_append, length_toList_byteArray, Nat.add_comm]
  rfl

theorem Echoable.first {source : String} (h : Echoable source) :
    ∃ first, source.toUTF8.toList.head? = some first ∧ first ≠ 33 ∧ first ≠ 63 := by
  cases hbytes : source.toUTF8.toList with
  | nil =>
      have hsize := length_toList_byteArray source.toUTF8
      rw [hbytes] at hsize
      exact absurd (String.utf8ByteSize_eq_zero_iff.1 hsize.symm) h.nonempty
  | cons first rest =>
      have hhead : source.toUTF8.toList.head? = some first := by
        rw [hbytes]
        rfl
      refine ⟨first, rfl, ?_, ?_⟩
      · rintro rfl
        exact h.notBang (Utf8.head_toUTF8 hhead (by decide))
      · rintro rfl
        exact h.notQuery (Utf8.head_toUTF8 hhead (by decide))

/-- So much fuel is enough for the guest to compile a source. -/
def enteringFuel (options : Options) (source : String) : Nat :=
  11 * (options.json.utf8ByteSize + source.utf8ByteSize) + 12 * 16 + 93

/-- What the guest says to options; the last is told of the memory that it leaves. -/
def echoSpeech (options : Options) (last : String) : List Utterance :=
  [.words "tcc: options ", .words options.json, .blockEnd, .words last, .blockEnd]

namespace Ready

variable {log : Log} {next : Nat} {placed : List (Region × Input)} {s : Session State}

theorem echoingFuel_le (h : Ready log next placed s) (options : Options) (source : String) :
    echoingFuel options.json source.toUTF8.toList s.live.memory ≤ enteringFuel options source := by
  have hgrowth := Memory.growth_le h.within
  have hlength : ∀ text : String, text.toUTF8.toList.length = text.utf8ByteSize :=
    fun text => length_toList_byteArray text.toUTF8
  unfold echoingFuel enteringFuel
  rw [hlength, hlength]
  omega

/-- Called with its inputs, the guest leaves an output that can be read, unless there was not fuel
enough. -/
theorem call (h : Ready log next placed s) {options : Options} {source : String}
    (hsource : Echoable source) {o t : EncodedText} (hgreeting : greeting ∈ placed)
    (ho : (o.region, .text options.json) ∈ placed) (ht : (t.region, .text source) ∈ placed)
    (hlow : 4096 ≤ t.start.offset.toNat) {f : Function State}
    (hf : f = standIn.program.asFunction echoCompiler) :
    let called := Session.call f [o.start.offset, t.start.offset] s
    (called.result = .error Session.noFuel ∧ s.live.fuel.toNat < enteringFuel options source) ∨
    ∃ result last, called.result = .ok result ∧
      called.state.log = log.heard (echoSpeech options last) ∧
      called.state.live.memory.outcomeAt ⟨result⟩ = .ok (.payload (echo source)) := by
  intro called
  by_cases hfuel : s.live.fuel ≤ Session.entryFuel
  · -- the guest is not entered
    have hlittle : s.live.fuel.toNat ≤ 1 := UInt64.le_iff_toNat_le.1 hfuel
    refine .inl ⟨congrArg Ended.result (Session.call_of_no_fuel _ _ hfuel), ?_⟩
    unfold enteringFuel
    omega
  · obtain ⟨first, hfirst, hplain⟩ := hsource.first
    have hnone := Utf8.zero_not_mem_toUTF8 hsource.noZero
    have hhanded := h.handed hgreeting ho ht hlow
    have hrun := run_echoCompiler hhanded options.zero_not_mem_json hnone hfirst hplain
    -- the entry point, called with words, runs that code with numbers
    have hsame : standIn.program.run echoCompiler
        [o.start.offset.toNat, t.start.offset.toNat] s.live =
        f.run [o.start.offset, t.start.offset] s.live := by
      rw [hf]
      rfl
    rw [hsame, ← h.guest] at hrun
    rcases hrun with ⟨speech, hsays, hending, hdry⟩ | ⟨result, last, hsays, hending, hroom, hheld⟩
    · obtain ⟨hresult, _, _⟩ := Session.call_of_says hfuel hsays
      rw [hending] at hresult
      exact .inl ⟨hresult, Nat.lt_of_lt_of_le hdry (h.echoingFuel_le options source)⟩
    · obtain ⟨hresult, hlive, hlog⟩ := Session.call_of_says hfuel hsays
      rw [hending] at hresult
      rw [h.log] at hlog
      refine .inr ⟨result, last, hresult, hlog, ?_⟩
      rw [hlive]
      refine Memory.outcomeAt_of_holds ?_ ?_ ?_ hroom
      · rw [toList_echo, size_echo]
        exact hheld
      · rw [size_echo]
        exact Nat.zero_lt_succ _
      · have hfits := hhanded.sourceText.fits
        have hmost : s.live.memory.size ≤ 16 * 65536 := hhanded.within.size_le
        rw [List.length_append] at hfits
        rw [size_echo]
        omega

/-- The compile of a source that is taken comes to its output, or there is a shortage. -/
theorem compile (h : Ready log next placed s) (hgreeting : greeting ∈ placed) (options : Options)
    {source : String} (hsource : Echoable source) :
    let compiled := Session.compile options source s
    let given := [Input.text options.json, .text source]
    (∃ fault, compiled.result = .error fault ∧
      Shortage given (s.live.fuel.toNat < 2 * puttingFuel + enteringFuel options source)
        (memoryEnd < next + sizes given) fault) ∨
    ∃ a last, compiled.result = .ok a ∧
      compiled.state.log = log.heard (echoSpeech options last) ∧
      compiled.state.live.memory.outcomeAt a = .ok (.payload (echo source)) := by
  have hentry := function_standIn
  rw [← h.guest] at hentry
  obtain ⟨hresult, hstate⟩ := Session.compile_of_optionsAndSource hentry rfl options source
  intro compiled given
  rw [show compiled.result = _ from hresult, show compiled.state = _ from hstate]
  rcases h.prepareInputs options source with
    ⟨fault, hprepare, hshort⟩ | ⟨o, t, hprepare, hbehind, hready, hspent⟩
  · rw [Action.bind_of_error _ hprepare]
    exact .inl ⟨fault, rfl, hshort.mono (List.Subset.refl _) (by omega) id⟩
  · have hlow := Nat.le_trans h.low hbehind
    have hgiven : ∀ given ∈ [(o.region, Input.text options.json), (t.region, Input.text source)],
        given ∈ placed ++ [(o.region, .text options.json), (t.region, .text source)] :=
      fun _ hgiven => List.mem_append_right _ hgiven
    have hcall := hready.call hsource (List.mem_append_left _ hgreeting)
      (hgiven _ (List.mem_cons_self)) (hgiven _ (List.mem_cons_of_mem _ List.mem_cons_self)) hlow
      rfl
    have henter : Session.enter (standIn.program.asFunction echoCompiler) [o.start, t.start] =
        Session.call (standIn.program.asFunction echoCompiler)
          [o.start.offset, t.start.offset] := rfl
    rw [Action.bind_of_ok _ hprepare, Ended.behind_result, Ended.behind_state, henter]
    rcases hcall with ⟨hdry, hfuel⟩ | ⟨result, last, hcalled, hlog, houtcome⟩
    · rw [hdry]
      exact .inl ⟨Session.noFuel, rfl, .fuel (by omega)⟩
    · rw [hcalled]
      exact .inr ⟨⟨result⟩, last, rfl, hlog, houtcome⟩

/-- Compiling a source that is taken, and reading the result, comes to its output. -/
theorem outcome (h : Ready log next placed s) (hgreeting : greeting ∈ placed) (options : Options)
    {source : String} (hsource : Echoable source) :
    let ended := (Session.compile options source >>= Session.outcomeAt) s
    let given := [Input.text options.json, .text source]
    (∃ fault, ended.result = .error fault ∧
      Shortage given (s.live.fuel.toNat < 2 * puttingFuel + enteringFuel options source)
        (memoryEnd < next + sizes given) fault) ∨
    ∃ last, ended.result = .ok (.payload (echo source)) ∧
      ended.state.log = log.heard (echoSpeech options last) := by
  intro ended given
  rcases h.compile hgreeting options hsource with
    ⟨fault, hresult, hshort⟩ | ⟨a, last, hresult, hlog, houtcome⟩
  · refine .inl ⟨fault, ?_, hshort⟩
    show ((Session.compile options source >>= Session.outcomeAt) s).result = _
    rw [Action.bind_of_error _ hresult]
  · refine .inr ⟨last, ?_, ?_⟩
    · show ((Session.compile options source >>= Session.outcomeAt) s).result = _
      rw [Action.bind_of_ok _ hresult, Ended.behind_result, Session.outcomeAt,
        Action.get_bind_apply, houtcome]
      rfl
    · show ((Session.compile options source >>= Session.outcomeAt) s).state.log = _
      rw [Action.bind_of_ok _ hresult, Ended.behind_state, Session.outcomeAt,
        Action.get_bind_apply, houtcome]
      exact hlog

end Ready

/-! ## What is enough -/

/-- So much fuel is enough for a run: three inputs go in, and the guest compiles. -/
def fuelFor (request : Request) : Nat :=
  3 * puttingFuel + enteringFuel request.options request.source

/-- There is room for inputs on the heap of the guest. -/
def HasRoom (inputs : List Input) : Prop := 4096 + sizes inputs ≤ memoryEnd

instance (inputs : List Input) : Decidable (HasRoom inputs) :=
  inferInstanceAs (Decidable (4096 + sizes inputs ≤ memoryEnd))

end StandIn

open StandIn

namespace Pipeline

/-- What goes into the guest in a run. -/
def inputs {σ : Type} (p : Pipeline σ) (request : Request) : List Input :=
  (p.image.map Input.image).toList ++ [.text request.options.json, .text request.source]

/-- What a run gets from the guest is the echo of its source, or a shortage. -/
theorem compileIn_of_ready {log : Log} {s : Session State} (h : Ready log 4096 [greeting] s)
    (p : Pipeline State) {request : Request} (hsource : Echoable request.source) :
    let compiled := p.compileIn request s
    (∃ fault, compiled.result = .error fault ∧
      Shortage (p.inputs request) (s.live.fuel.toNat < fuelFor request)
        (¬HasRoom (p.inputs request)) fault) ∨
    ∃ last, compiled.result = .ok (.payload (echo request.source)) ∧
      compiled.state.log = log.heard (echoSpeech request.options last) := by
  intro compiled
  have hfuelFor : fuelFor request =
      3 * puttingFuel + enteringFuel request.options request.source := rfl
  cases himage : p.image with
  | none =>
      have hinputs : p.inputs request = [.text request.options.json, .text request.source] := by
        rw [inputs, himage]
        rfl
      have hcompiled : compiled =
          (Session.compile request.options request.source >>= Session.outcomeAt) s := by
        simp only [compiled, compileIn, himage]
      rw [hcompiled, hinputs]
      rcases h.outcome (List.mem_singleton_self _) request.options hsource with
        ⟨fault, hended, hshort⟩ | hended
      · exact .inl ⟨fault, hended, hshort.mono (List.Subset.refl _) (by omega) Nat.not_le.2⟩
      · exact .inr hended
  | some image =>
      have hinputs : p.inputs request =
          [.image image] ++ [.text request.options.json, .text request.source] := by
        rw [inputs, himage]
        rfl
      have hsizes : sizes (p.inputs request) = (Input.image image).bytes.size +
          sizes [.text request.options.json, .text request.source] := by
        rw [hinputs]
        rfl
      -- who goes over the end has no more than all inputs before it, so there is no room for all
      have hfull : ∀ finish, memoryEnd < finish → finish ≤ 4096 + sizes (p.inputs request) →
          ¬HasRoom (p.inputs request) := by
        intro finish hover hle hroom
        exact absurd hroom (Nat.not_le.2 (Nat.lt_of_lt_of_le hover hle))
      have hcompiled : compiled = (Session.loadFilesystem image >>= fun _ =>
          Session.compile request.options request.source >>= Session.outcomeAt) s := by
        simp only [compiled, compileIn, himage]
      rw [hcompiled]
      rcases h.put (.image image) with
        ⟨fault, hresult, hshort⟩ | ⟨r, hresult, _, hready, hspent⟩
      · have hload : (Session.loadFilesystem image s).result = .error fault := hresult
        rw [Action.bind_of_error _ hload]
        refine .inl ⟨fault, rfl, hshort.mono ?_ (by omega) fun h => hfull _ h (by omega)⟩
        rw [hinputs]
        exact List.subset_append_left _ _
      · have hload : (Session.loadFilesystem image s).result = .ok r := hresult
        have hspent : s.live.fuel.toNat ≤
            (Session.loadFilesystem image s).state.live.fuel.toNat + puttingFuel := hspent
        rw [Action.bind_of_ok _ hload]
        have hgreeting : greeting ∈ [greeting] ++ [(r, .image image)] := List.mem_cons_self
        rcases hready.outcome hgreeting request.options hsource with
          ⟨fault, hended, hshort⟩ | hended
        · refine .inl ⟨fault, hended, hshort.mono ?_ ?_ fun h => hfull _ h (by omega)⟩
          · rw [hinputs]
            exact List.subset_append_right _ _
          · intro hdry
            have hdry : (Session.loadFilesystem image s).state.live.fuel.toNat < _ := hdry
            omega
        · exact .inr hended

end Pipeline

/-! ## A fresh session -/

theorem Loaded.initialMemory_cons {offset : UInt32} {bytes : ByteArray} {m : Memory}
    (rest : List (UInt32 × ByteArray)) (h : offset.toNat + bytes.size ≤ m.size) :
    initialMemory ((offset, bytes) :: rest) m =
      initialMemory rest (m.overwrite offset.toNat bytes.toList) := by
  have hfits : m.Fits ⟨offset⟩ bytes.size := h
  rw [initialMemory, Memory.write_of_fits hfits]

/-- Data that fits is put into memory, and what is held apart from it stays. -/
theorem Loaded.initialMemory_of_fits {data : List (UInt32 × ByteArray)} {m : Memory}
    (h : ∀ d ∈ data, d.1.toNat + d.2.size ≤ m.size) :
    ∃ m', initialMemory data m = .ok m' ∧ m'.limit = m.limit ∧
      (∀ most, m.Within most → m'.Within most) ∧
      ∀ start bytes, m.Holds start bytes →
        (∀ d ∈ data, start + bytes.length ≤ d.1.toNat) → m'.Holds start bytes := by
  induction data generalizing m with
  | nil => exact ⟨m, rfl, rfl, fun _ hmost => hmost, fun _ _ hheld _ => hheld⟩
  | cons d rest ih =>
      obtain ⟨offset, bytes⟩ := d
      have hfits := h (offset, bytes) List.mem_cons_self
      have hrest : ∀ d ∈ rest,
          d.1.toNat + d.2.size ≤ (m.overwrite offset.toNat bytes.toList).size := by
        intro d hd
        rw [Memory.size_overwrite]
        exact h d (List.mem_cons_of_mem _ hd)
      obtain ⟨m', hm', hlimit, hwithin, hheld⟩ := ih hrest
      refine ⟨m', ?_, ?_, ?_, ?_⟩
      · rw [initialMemory_cons rest hfits]
        exact hm'
      · rw [hlimit, Memory.limit_overwrite]
      · exact fun most hmost => hwithin most (hmost.overwrite _ _)
      · intro start held hholds hapart
        refine hheld start held (hholds.of_overwrite ?_ (.inl ?_)) ?_
        · rw [length_toList_byteArray]
          exact hfits
        · exact hapart (offset, bytes) List.mem_cons_self
        · exact fun d hd => hapart d (List.mem_cons_of_mem _ hd)

/-- The guest's texts all fit below the heap, and the first stays. -/
theorem initialMemory_standIn :
    ∃ m, Loaded.initialMemory standIn.guest.data standIn.guest.memory = .ok m ∧
      m.Within 16 ∧ m.limit = 16 ∧ m.Holds 16 "tcc: options ".toUTF8.toList := by
  have hdata : standIn.guest.data =
      [(16, "tcc: options ".toUTF8), (48, "error: no source".toUTF8), (80, "tcc: ok".toUTF8)] := rfl
  have hmemory : standIn.guest.memory = Memory.zeros 1 16 := rfl
  have hsize : (Memory.zeros 1 16).size = 65536 := rfl
  have hfirst : (16 : UInt32).toNat + "tcc: options ".toUTF8.size ≤ (Memory.zeros 1 16).size := by
    decide
  -- the first text is put in by itself, since it is the one that is held
  let m := (Memory.zeros 1 16).overwrite 16 "tcc: options ".toUTF8.toList
  have hrest : ∀ d ∈ [((48 : UInt32), "error: no source".toUTF8), (80, "tcc: ok".toUTF8)],
      d.1.toNat + d.2.size ≤ m.size ∧ 16 + "tcc: options ".toUTF8.size ≤ d.1.toNat := by
    intro d hd
    rw [Memory.size_overwrite, hsize]
    simp only [List.mem_cons, List.not_mem_nil, or_false] at hd
    rcases hd with rfl | rfl
    · decide
    · decide
  obtain ⟨m', hm', hlimit, hwithin, hheld⟩ :=
    Loaded.initialMemory_of_fits fun d hd => (hrest d hd).1
  refine ⟨m', ?_, ?_, ?_, ?_⟩
  · rw [hdata, hmemory]
    exact (Loaded.initialMemory_cons _ hfirst).trans hm'
  · exact hwithin 16 (Memory.Within.overwrite ⟨by decide, by decide⟩ _ _)
  · rw [hlimit, Memory.limit_overwrite]
    rfl
  · rw [← length_toList_byteArray] at hfirst
    refine hheld 16 _ (Memory.holds_overwrite _ hfirst) ?_
    intro d hd
    rw [length_toList_byteArray]
    exact (hrest d hd).2

/-- The guest can be instantiated, and a session is ready for inputs then. -/
theorem instantiate_standIn {l : Loaded State} (hguest : l.guest = standIn.guest) (log : Log) :
    ∃ s, (l.instantiate log ()).result = .ok s ∧ Ready log 4096 [greeting] s ∧
      s.live.fuel = l.fuel := by
  obtain ⟨m, hm, hwithin, hlimit, hheld⟩ := initialMemory_standIn
  have hglobals : standIn.guest.globals = .ok ⟨#[4096], #[], #[], #[[], [], []]⟩ := rfl
  have hsetUp : l.setUp = .ok (⟨#[4096], #[], #[], #[[], [], []]⟩, m) := by
    rw [Loaded.setUp, hguest, hglobals, hm]
    rfl
  obtain ⟨f, hallocator⟩ := allocator_standIn (.text "")
  have hopen := Loaded.instantiate_of_unstarted hsetUp (by rw [hguest]; rfl) (by rw [hguest]; rfl)
    (hguest ▸ hallocator) log
  refine ⟨_, hopen, ⟨hguest, rfl, Nat.le_refl _, ?_, hwithin, hlimit⟩, rfl⟩
  have hgreeting : m.readRegion greeting.1 = .ok greeting.2.bytes :=
    Memory.readRegion_eq_ok_iff.2 ⟨rfl, hheld⟩
  refine ⟨?_, rfl, by decide, ?_, ?_, List.pairwise_singleton _ _⟩
  · show l.guest.UsesHeap _ _
    rw [hguest]
    exact usesHeap_standIn
  · intro given hgiven
    rw [List.mem_singleton.1 hgiven]
    decide
  · intro given hgiven
    rw [List.mem_singleton.1 hgiven]
    exact hgreeting

/-! ## Runs -/

/-- The guest with all that stays the same from run to run. -/
def StandIn.pipeline (fuel : UInt64) (image : Option ByteArray) (artifactName : String) :
    Pipeline State := ⟨⟨standIn.guest, fuel⟩, image, artifactName⟩

namespace Pipeline

variable {ω : Type}

/-- A run that ends in one of some faults of the guest. -/
def FailsBy (ended : Ended ω RunFault RunReport) (faults : GuestFault → Prop) : Prop :=
  ∃ cause diagnostics, ended.result = .error (.compile cause diagnostics) ∧ faults cause

/-- The guest echoes whatever source it takes, whatever the options and the image. There has to be
fuel enough, or at least as much as the guest uses, and room for the inputs, or at least as much as
the host asks for. Then a run succeeds: each sink is handed the bytes of the source behind the mark
of an ELF file, once, and the options are told first. -/
theorem run_standIn (fuel : UInt64) (image : Option ByteArray) (artifactName : String)
    (request : Request) (surface : Option Surface) (sinks : List (Sink ω)) (world : ω)
    (hsource : Echoable request.source)
    (haccept : firstRefusal artifactName (echo request.source) sinks world = none)
    (hfuel : fuelFor request ≤ fuel.toNat ∨
      ¬FailsBy ((StandIn.pipeline fuel image artifactName).run request (.fresh surface) sinks world)
        (· = Session.noFuel))
    (hroom : HasRoom ((StandIn.pipeline fuel image artifactName).inputs request) ∨
      ¬FailsBy ((StandIn.pipeline fuel image artifactName).run request (.fresh surface) sinks world)
        (Unplaced ((StandIn.pipeline fuel image artifactName).inputs request))) :
    let p := StandIn.pipeline fuel image artifactName
    Action.Records (p.run request (.fresh surface) (Sink.recordedFrom 0 sinks))
      (p.run request (.fresh surface) sinks) ∧
    ∃ report last, (p.run request (.fresh surface) sinks world).result = .ok report ∧
      report.outcome = .payload (echo request.source) ∧
      report.delivered = sinks.map Sink.kind ∧
      report.diagnostics = ["tcc: options " ++ request.options.json, last] ∧
      (p.run request (.fresh surface) sinks world).state =
        (deliver artifactName (echo request.source) sinks world).state ∧
      (p.run request (.fresh surface) (Sink.recordedFrom 0 sinks) (world, [])).state.2 =
        (List.range sinks.length).map (⟨·, artifactName, echo request.source, .ok ()⟩) := by
  intro p
  have hrecorded := p.run_recorded request (.fresh surface) sinks
  refine ⟨hrecorded, ?_⟩
  obtain ⟨s, hopen, hready, hlive⟩ := instantiate_standIn (l := p.loaded) rfl (.fresh surface)
  have hdecoded := decoded_of_opened request hopen
  have hname : p.artifactName = artifactName := rfl
  rcases compileIn_of_ready hready p hsource with ⟨fault, hresult, hshort⟩ | ⟨last, hresult, hlog⟩
  · -- a run that ends in a shortage is none of those that there are to be
    rw [hresult] at hdecoded
    have hfailed := (shows_of_failed request sinks world hopen hdecoded).result
    rw [hlive] at hshort
    cases hshort with
    | fuel hdry =>
        rcases hfuel with henough | hnever
        · exact absurd henough (Nat.not_le.2 hdry)
        · exact absurd ⟨_, _, hfailed, rfl⟩ hnever
    | room hfault hfull =>
        rcases hroom with henough | hnever
        · exact absurd henough hfull
        · exact absurd ⟨_, _, hfailed, hfault⟩ hnever
  · rw [hresult] at hdecoded
    obtain ⟨session, hheard, shows⟩ := shows_of_payload request sinks world hdecoded
    obtain ⟨_, _, showsRecord⟩ :=
      shows_of_payload request (Sink.recordedFrom 0 sinks) (world, []) hdecoded
    obtain ⟨hdelivered, hrecord⟩ := record_of_accepted haccept
    have hplain := result_deliver artifactName (echo request.source) sinks world
    rw [haccept] at hplain
    rw [← log_of_compiled request hopen, hlog] at hheard
    rw [shows.result, shows.state, showsRecord.state, hname, hplain]
    refine ⟨_, "" ++ last, rfl, rfl, rfl, ?_, rfl, hrecord⟩
    show session.log.transcript = _
    rw [hheard]
    show ["" ++ "tcc: options " ++ request.options.json, "" ++ last] = _
    rw [String.empty_append]

/-- With fuel for a million instructions and an empty image, a small source is on the shelf at the
end, as an ELF file. -/
theorem run_standIn_shelf :
    Echoable "int x;" ∧
    firstRefusal defaultArtifactName (echo "int x;") [Sink.shelf] [] = none ∧
    let p := StandIn.pipeline 1000000 (some .empty) defaultArtifactName
    let request : Request := ⟨.none, "int x;"⟩
    fuelFor request ≤ (1000000 : UInt64).toNat ∧ HasRoom (p.inputs request) ∧
    ∃ report last, (p.run request (.fresh none) [Sink.shelf] []).result = .ok report ∧
      report.outcome = .payload (echo "int x;") ∧
      report.delivered = ["memory"] ∧
      report.diagnostics = ["tcc: options []", last] ∧
      (p.run request (.fresh none) [Sink.shelf] []).state =
        [("a.out", ⟨#[0x7F, 0x45, 0x4C, 0x46, 0x69, 0x6E, 0x74, 0x20, 0x78, 0x3B]⟩)] := by
  have hsource : Echoable "int x;" := ⟨by decide, by decide, by decide, by decide⟩
  have haccept : firstRefusal defaultArtifactName (echo "int x;") [Sink.shelf] [] = none := rfl
  have hfuel : fuelFor ⟨.none, "int x;"⟩ ≤ (1000000 : UInt64).toNat := by decide +kernel
  have hroom : HasRoom ((StandIn.pipeline 1000000 (some .empty) defaultArtifactName).inputs
      ⟨.none, "int x;"⟩) := by decide +kernel
  obtain ⟨-, report, last, hresult, houtcome, hdelivered, hdiagnostics, hstate, -⟩ :=
    run_standIn 1000000 (some .empty) defaultArtifactName ⟨.none, "int x;"⟩ none [Sink.shelf] []
      hsource haccept (.inl hfuel) (.inl hroom)
  have hshelf : (deliver defaultArtifactName (echo "int x;") [Sink.shelf] []).state =
      [("a.out", ⟨#[0x7F, 0x45, 0x4C, 0x46, 0x69, 0x6E, 0x74, 0x20, 0x78, 0x3B]⟩)] := by
    decide +kernel
  exact ⟨hsource, haccept, hfuel, hroom, report, last, hresult, houtcome, hdelivered, hdiagnostics,
    hstate.trans hshelf⟩

end Pipeline

end CompilerHost
