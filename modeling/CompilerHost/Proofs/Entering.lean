import CompilerHost.Proofs.Input

/-! # Entering the guest

A compile puts its texts into the guest one right behind the other, and then calls the entry point
once, with their addresses. If one of them does not go in, it calls nothing more.

* `Feed` is a text that went in, and `Feed.Chain` a sequence of them with nothing in between;
* `Feed.Chain.held`: what went in first is there at the end unless the guest, or a later text, went
  over it;
* `Session.Entering` lists the courses that a compile can take once it knows what its guest takes,
  and `Session.compile_disciplined` is that it takes one of them.
-/

namespace CompilerHost

/-- The texts that an entry point takes, in the order of its parameters. -/
def EntryForm.texts (form : EntryForm) (options : Options) (source : String) : List String :=
  match form with
  | .optionsAndSource => [options.json, source]
  | .source => [source]
  | .noInputs => []

/-- A text that went into a guest: an allocator was asked for room, and gave some. -/
structure Feed (σ : Type) where
  text : String
  /-- The session when the allocator is asked. -/
  before : Session σ
  allocator : Function σ
  address : UInt32
  usable : before.guest.allocator? Guest.allocatorExport = .ok allocator
  small : (Input.text text).bytes.size < 2 ^ 31
  answered : (Session.ask allocator (Input.text text).bytes.size before).result = .ok address
  notNull : address ≠ 0
  fits : (Session.ask allocator (Input.text text).bytes.size before).state.live.memory.Fits
    ⟨address⟩ (Input.text text).bytes.size

namespace Feed

variable {σ : Type}

/-- The bytes of the text, and a zero. -/
def bytes (f : Feed σ) : ByteArray := (Input.text f.text).bytes

/-- What is asked of the allocator. -/
def turn (f : Feed σ) : Turn σ :=
  .function f.allocator [UInt32.ofNat f.bytes.size] f.before.live

/-- The room that the allocator gave. -/
def region (f : Feed σ) : Region := ⟨⟨f.address⟩, UInt32.ofNat f.bytes.size⟩

/-- The session when the allocator has answered. -/
def asked (f : Feed σ) : Session σ := (Session.ask f.allocator f.bytes.size f.before).state

/-- The session behind the write, which is all that the host does then. -/
def after (f : Feed σ) : Session σ :=
  f.asked.withMemory (f.asked.live.memory.overwrite f.address.toNat f.bytes.toList)

/-- A region is elsewhere, and the allocator did not change it. -/
structure Spares (f : Feed σ) (r : Region) : Prop where
  apart : f.region.Disjoint r
  unchanged : f.asked.live.memory.readRegion r = f.before.live.memory.readRegion r

theorem length_region (f : Feed σ) : f.region.length.toNat = f.bytes.size :=
  Input.toNat_ofNat_of_small f.small

theorem room (f : Feed σ) :
    f.address.toNat + f.bytes.toList.length ≤ f.asked.live.memory.size := by
  rw [length_toList_byteArray]
  exact f.fits

theorem readRegion_after (f : Feed σ) : f.after.live.memory.readRegion f.region = .ok f.bytes := by
  refine Memory.readRegion_eq_ok_iff.2 ⟨f.length_region.symm, ?_⟩
  exact Memory.holds_overwrite _ f.room

/-- What is spared is still there behind the write. -/
theorem Spares.readRegion {f : Feed σ} {r : Region} {bytes : ByteArray} (h : f.Spares r)
    (hread : f.before.live.memory.readRegion r = .ok bytes) :
    f.after.live.memory.readRegion r = .ok bytes := by
  rw [← h.unchanged] at hread
  obtain ⟨hsize, hholds⟩ := Memory.readRegion_eq_ok_iff.1 hread
  refine Memory.readRegion_eq_ok_iff.2 ⟨hsize, ?_⟩
  refine hholds.of_sameOutside (Memory.sameOutside_overwrite _ f.room) ?_
  intro i hlow hhigh
  rw [length_toList_byteArray, hsize] at hhigh
  have hout : ¬f.region.Contains i := fun hin => h.apart i hin ⟨hlow, hhigh⟩
  rw [Region.Contains, f.length_region] at hout
  rw [length_toList_byteArray]
  have hstart : f.region.start.offset.toNat = f.address.toNat := rfl
  omega

/-! ## Sequences -/

/-- Texts that go in one right behind the other. -/
def Chain (s : Session σ) : List (Feed σ) → Session σ → Prop
  | [], s' => s' = s
  | f :: rest, s' => f.before = s ∧ Chain f.after rest s'

/-- Each text is where it was put, if all that went in later spared it. -/
def Held (feeds : List (Feed σ)) (s : Session σ) : Prop :=
  ∀ earlier f later, feeds = earlier ++ f :: later → (∀ g ∈ later, g.Spares f.region) →
    s.live.memory.readRegion f.region = .ok f.bytes

theorem Chain.snoc {s : Session σ} {feeds : List (Feed σ)} {f : Feed σ}
    (h : Chain s feeds f.before) : Chain s (feeds ++ [f]) f.after := by
  induction feeds generalizing s with
  | nil =>
      have hbefore : f.before = s := h
      exact ⟨hbefore, rfl⟩
  | cons e rest ih => exact ⟨h.1, ih h.2⟩

theorem Chain.readRegion {s s' : Session σ} {feeds : List (Feed σ)} (h : Chain s feeds s')
    {r : Region} {bytes : ByteArray} (hread : s.live.memory.readRegion r = .ok bytes)
    (hspares : ∀ g ∈ feeds, g.Spares r) : s'.live.memory.readRegion r = .ok bytes := by
  induction feeds generalizing s with
  | nil =>
      obtain rfl : s' = s := h
      exact hread
  | cons f rest ih =>
      obtain ⟨rfl, hrest⟩ := h
      have hf := hspares f List.mem_cons_self
      exact ih hrest (hf.readRegion hread) fun g hg => hspares g (List.mem_cons_of_mem f hg)

theorem Chain.held {s s' : Session σ} {feeds : List (Feed σ)} (h : Chain s feeds s') :
    Held feeds s' := by
  rintro earlier f later rfl hspares
  induction earlier generalizing s with
  | nil =>
      obtain ⟨rfl, hlater⟩ := h
      exact hlater.readRegion f.readRegion_after hspares
  | cons e earlier ih =>
      obtain ⟨rfl, hrest⟩ := h
      exact ih hrest

end Feed

/-! ## The courses of a compile -/

/-- The type of an entry point that takes so many addresses. -/
def entryType (count : Nat) : FunctionType := ⟨List.replicate count .i32, [.i32]⟩

namespace Watched

variable {σ α β : Type} {x : Watched σ α} {s : Session σ}

theorem result_bind_of_ok {a : α} (f : α → Watched σ β) (h : (x.action s).result = .ok a) :
    ((x >>= f).action s).result = ((f a).action (x.action s).state).result := by
  rw [action_bind, Action.bind_of_ok _ h]
  rfl

theorem result_bind_of_error {e : GuestFault} (f : α → Watched σ β)
    (h : (x.action s).result = .error e) : ((x >>= f).action s).result = .error e := by
  rw [action_bind, Action.bind_of_error _ h]

theorem bind_bind {γ : Type} (x : Watched σ α) (f : α → Watched σ β) (g : β → Watched σ γ) :
    (x >>= f) >>= g = x >>= fun a => f a >>= g := by
  have haction : ((x >>= f) >>= g).action = (x >>= fun a => f a >>= g).action :=
    Action.bind_bind x.action (fun a => (f a).action) fun b => (g b).action
  have hturns : ((x >>= f) >>= g).turns = (x >>= fun a => f a >>= g).turns := by
    funext s
    cases h : (x.action s).result with
    | error e =>
        have hfirst : ((x >>= f).action s).result = .error e := result_bind_of_error f h
        rw [turns_bind_of_error _ hfirst, turns_bind_of_error _ h, turns_bind_of_error _ h]
    | ok a =>
        have hstate : ((x >>= f).action s).state = ((f a).action (x.action s).state).state := by
          rw [action_bind, Action.bind_of_ok _ h]
          rfl
        have hfirst := result_bind_of_ok f h
        rw [turns_bind_of_ok (fun a => f a >>= g) h]
        cases hsecond : ((f a).action (x.action s).state).result with
        | error e =>
            rw [hsecond] at hfirst
            rw [turns_bind_of_error _ hfirst, turns_bind_of_error _ hsecond, turns_bind_of_ok _ h]
        | ok b =>
            rw [hsecond] at hfirst
            rw [turns_bind_of_ok _ hfirst, turns_bind_of_ok _ hsecond, turns_bind_of_ok _ h,
              hstate, List.append_assoc]
  -- both parts of a watched program are the same, so it is
  cases hx : (x >>= f) >>= g
  cases hy : x >>= fun a => f a >>= g
  rw [hx, hy] at haction hturns
  exact congr (congrArg mk haction) hturns

/-- What the host does first by itself gives the guest no turn. -/
theorem alone_bind_of_ok {x : Action (Session σ) GuestFault α} {s s' : Session σ} {a : α}
    {j : Journal} (h : x s = ⟨.ok a, s', j⟩) (f : α → Watched σ β) :
    (alone x >>= f).turns s = (f a).turns s' ∧
      ((alone x >>= f).action s).result = ((f a).action s').result := by
  have hresult : ((alone x).action s).result = .ok a := congrArg Ended.result h
  have hstate : ((alone x).action s).state = s' := congrArg Ended.state h
  rw [turns_bind_of_ok f hresult, result_bind_of_ok f hresult, hstate]
  exact ⟨rfl, rfl⟩

theorem alone_bind_of_error {x : Action (Session σ) GuestFault α} {s s' : Session σ}
    {e : GuestFault} {j : Journal} (h : x s = ⟨.error e, s', j⟩) (f : α → Watched σ β) :
    (alone x >>= f).turns s = [] ∧ ((alone x >>= f).action s).result = .error e := by
  have hresult : ((alone x).action s).result = .error e := congrArg Ended.result h
  rw [turns_bind_of_error f hresult, result_bind_of_error f hresult]
  exact ⟨rfl, rfl⟩

/-- What the host tells the operator makes no difference to the guest. -/
theorem turns_result_told (c : Bool) (e : Event) (x : Watched σ α) (s : Session σ) :
    let told := alone (unless c do Action.emit e) >>= fun _ => x
    told.turns s = x.turns s ∧ (told.action s).result = (x.action s).result := by
  cases c with
  | true => exact alone_bind_of_ok rfl fun _ => x
  | false => exact alone_bind_of_ok rfl fun _ => x

end Watched

namespace Session

variable {σ : Type}

/-- The allocator may have been asked for room for a text, and nothing else has a turn. -/
def AskedAtMost (s : Session σ) (text : String) (turns : List (Turn σ)) : Prop :=
  turns = [] ∨ ∃ allocator, s.guest.allocator? Guest.allocatorExport = .ok allocator ∧
    turns = [.function allocator [UInt32.ofNat (Input.text text).bytes.size] s.live]

/-- How texts are handed to an entry point: the turns that the guest has, and what comes of it. -/
inductive Entering (s : Session σ) (entry : Function σ) (texts : List String) :
    List (Turn σ) → Except GuestFault UInt32 → Prop
  /-- A text does not go in. -/
  | stopped {feeds : List (Feed σ)} {s' : Session σ} {text : String} {rest : List String}
      {asks : List (Turn σ)} {fault : GuestFault}
      (htexts : texts = feeds.map Feed.text ++ text :: rest) (hchain : Feed.Chain s feeds s')
      (hfault : ((Input.text text).put s').result = .error fault)
      (hasks : s'.AskedAtMost text asks) :
      Entering s entry texts (feeds.map Feed.turn ++ asks) (.error fault)
  /-- All texts go in, and the entry point has another type. -/
  | mistyped {feeds : List (Feed σ)} {s' : Session σ} {detail : String}
      (htexts : texts = feeds.map Feed.text) (hchain : Feed.Chain s feeds s')
      (htype : entry.type ≠ entryType texts.length) :
      Entering s entry texts (feeds.map Feed.turn)
        (.error (.signatureMismatch compileExport detail))
  /-- All texts go in, and the entry point is called with their addresses. -/
  | entered {feeds : List (Feed σ)} {s' : Session σ}
      (htexts : texts = feeds.map Feed.text) (hchain : Feed.Chain s feeds s')
      (hheld : Feed.Held feeds s') (htype : entry.type = entryType texts.length) :
      Entering s entry texts
        (feeds.map Feed.turn ++ [.function entry (feeds.map Feed.address) s'.live])
        (call entry (feeds.map Feed.address) s').result

/-- A text goes in, or there is a fault. -/
theorem encode_course (text : String) (s : Session σ) :
    (∃ f : Feed σ, f.text = text ∧ f.before = s ∧ (encode text s).result = .ok ⟨f.region⟩ ∧
      (encode text s).state = f.after ∧ (Watched.encode text).turns s = [f.turn]) ∨
    ∃ fault, (encode text s).result = .error fault ∧
      ((Input.text text).put s).result = .error fault ∧
      s.AskedAtMost text ((Watched.encode text).turns s) := by
  obtain ⟨result, state, turns, hplacing, hturns, hput, hkept, hrecord⟩ :=
    (Input.text text).put_placing s
  have hturns : (Watched.encode text).turns s = turns := hturns
  have hstopped : ∀ fault, result = .error fault → s.AskedAtMost text turns →
      ∃ fault, (encode text s).result = .error fault ∧
        ((Input.text text).put s).result = .error fault ∧
        s.AskedAtMost text ((Watched.encode text).turns s) := by
    rintro fault rfl hasks
    rw [hturns]
    exact ⟨fault, (encode_of_put_error hput).1, hput, hasks⟩
  cases hplacing with
  | endless hsize => exact .inr (hstopped _ rfl (.inl rfl))
  | unusable hsize hallocator => exact .inr (hstopped _ rfl (.inl rfl))
  | tooLarge hsize hallocator hlarge => exact .inr (hstopped _ rfl (.inl rfl))
  | failed hsize hallocator hasked =>
      exact .inr (hstopped _ rfl (.inr ⟨_, hallocator, rfl⟩))
  | full hsize hallocator hasked =>
      exact .inr (hstopped _ rfl (.inr ⟨_, hallocator, rfl⟩))
  | outside hsize hallocator hasked hp hfits =>
      exact .inr (hstopped _ rfl (.inr ⟨_, hallocator, rfl⟩))
  | @placed f p hsize hallocator hasked hp hfits =>
      obtain ⟨hencode, hstate⟩ := encode_of_put_ok hput
      rw [hrecord _ rfl] at hstate
      exact .inl ⟨⟨text, s, f, p, hallocator, hsize, hasked, hp, hfits⟩, rfl, rfl, hencode, hstate,
        hturns⟩

/-- The entry point is called if it has the right type, and else not. -/
theorem enter_course (entry : Function σ) (args : List Address) (s : Session σ)
    (hcount : entry.type.params.length = args.length) :
    (entry.type = entryType args.length ∧
      enter entry args s = call entry (args.map Address.offset) s ∧
      (Watched.enter entry args).turns s = [.function entry (args.map Address.offset) s.live]) ∨
    (entry.type ≠ entryType args.length ∧ (Watched.enter entry args).turns s = [] ∧
      ∃ detail,
        enter entry args s = ⟨.error (.signatureMismatch compileExport detail), s, []⟩) := by
  by_cases hparams : entry.type.params.any (· ≠ .i32)
  · right
    have htype : entry.type ≠ entryType args.length := by
      intro htype
      rw [htype] at hparams
      simp [entryType] at hparams
    simp only [Watched.enter, enter, if_pos hparams]
    exact ⟨htype, rfl, _, rfl⟩
  · by_cases hresults : entry.type.results ≠ [.i32]
    · right
      have htype : entry.type ≠ entryType args.length := by
        intro htype
        rw [htype] at hresults
        exact hresults rfl
      simp only [Watched.enter, enter, if_neg hparams, if_pos hresults]
      exact ⟨htype, rfl, _, rfl⟩
    · left
      have hwords : entry.type.params = List.replicate args.length .i32 := by
        refine List.eq_replicate_iff.2 ⟨hcount, ?_⟩
        intro t ht
        simp at hparams
        exact hparams t ht
      have htype : entry.type = entryType args.length := by
        have hres := Decidable.not_not.1 hresults
        rw [entryType, ← hwords, ← hres]
      simp only [Watched.enter, enter, if_neg hparams, if_neg hresults]
      exact ⟨htype, trivial, rfl⟩

theorem length_texts_of_formOf? {entry : Function σ} {form : EntryForm}
    (h : formOf? entry = .ok form) (options : Options) (source : String) :
    entry.type.params.length = (form.texts options source).length := by
  unfold formOf? at h
  split at h
  · rename_i hcount
    obtain rfl := Except.ok.inj h
    exact hcount
  · rename_i hcount
    obtain rfl := Except.ok.inj h
    exact hcount
  · rename_i hcount
    obtain rfl := Except.ok.inj h
    exact hcount
  · cases h

/-- With all texts in, what is left is the call. -/
theorem entering_of_chain {s s' : Session σ} {feeds : List (Feed σ)}
    (hchain : Feed.Chain s feeds s') {entry : Function σ} {texts : List String}
    (htexts : texts = feeds.map Feed.text)
    (hcount : entry.type.params.length = texts.length) (args : List Address)
    (hargs : args.map Address.offset = feeds.map Feed.address) :
    Entering s entry texts (feeds.map Feed.turn ++ (Watched.enter entry args).turns s')
      (enter entry args s').result := by
  have hlength : args.length = texts.length := by
    have h := congrArg List.length hargs
    rw [List.length_map, List.length_map] at h
    rw [htexts, List.length_map, h]
  rcases enter_course entry args s' (hcount.trans hlength.symm) with
    ⟨htype, henter, hturns⟩ | ⟨htype, hturns, detail, henter⟩
  · rw [henter, hturns, hargs]
    exact .entered htexts hchain hchain.held (hlength ▸ htype)
  · rw [henter, hturns, List.append_nil]
    exact .mistyped htexts hchain (hlength ▸ htype)

/-- The next text goes in, and what follows it is right; or it does not go in. -/
theorem entering_encode {s s' : Session σ} {feeds : List (Feed σ)} (hchain : Feed.Chain s feeds s')
    {entry : Function σ} {texts : List String} {text : String} (rest : List String)
    (htexts : texts = feeds.map Feed.text ++ text :: rest)
    {next : EncodedText → Watched σ UInt32}
    (hnext : ∀ f : Feed σ, f.text = text → Feed.Chain s (feeds ++ [f]) f.after →
      Entering s entry texts ((feeds ++ [f]).map Feed.turn ++ (next ⟨f.region⟩).turns f.after)
        ((next ⟨f.region⟩).action f.after).result) :
    Entering s entry texts (feeds.map Feed.turn ++ (Watched.encode text >>= next).turns s')
      ((Watched.encode text >>= next).action s').result := by
  have haction := Watched.action_encode (σ := σ) text
  rcases encode_course text s' with
    ⟨f, htext, rfl, hresult, hstate, hturns⟩ | ⟨fault, hresult, hfault, hasks⟩
  · rw [← haction] at hresult hstate
    have h := hnext f htext hchain.snoc
    rw [List.map_append, List.append_assoc] at h
    rw [Watched.turns_bind_of_ok next hresult, Watched.result_bind_of_ok next hresult, hstate,
      hturns]
    exact h
  · rw [← haction] at hresult
    rw [Watched.turns_bind_of_error next hresult, Watched.result_bind_of_error next hresult]
    exact .stopped htexts hchain hfault hasks

theorem entering_enterWith {entry : Function σ} {form : EntryForm} (h : formOf? entry = .ok form)
    (options : Options) (source : String) (s : Session σ) :
    Entering s entry (form.texts options source)
      ((Watched.enterWith form entry options source).turns s)
      ((Watched.enterWith form entry options source).action s).result := by
  have hcount := length_texts_of_formOf? h options source
  cases form with
  | noInputs =>
      obtain ⟨hturns, hresult⟩ := Watched.turns_result_told (options.isEmpty && source.isEmpty)
        (.inputsIgnored .noInputs "options and source") (Watched.enter entry []) s
      have hchain : Feed.Chain s [] s := rfl
      rw [Watched.enterWith, hturns, hresult, Watched.action_enter]
      exact entering_of_chain hchain rfl hcount [] rfl
  | source =>
      obtain ⟨hturns, hresult⟩ := Watched.turns_result_told options.isEmpty
        (.inputsIgnored .source "options")
        (Watched.encode source >>= fun t => Watched.enter entry [t.start]) s
      have hchain : Feed.Chain s [] s := rfl
      rw [Watched.enterWith, hturns, hresult]
      refine entering_encode hchain [] rfl ?_
      intro f htext hchain
      rw [Watched.action_enter]
      exact entering_of_chain hchain (congrArg (· :: []) htext.symm) hcount _ rfl
  | optionsAndSource =>
      have hchain : Feed.Chain s [] s := rfl
      rw [Watched.enterWith, Watched.prepareInputs, Watched.bind_bind]
      refine entering_encode hchain [source] rfl ?_
      intro f hoptions hchain
      rw [Watched.bind_bind]
      refine entering_encode hchain [] ?_ ?_
      · exact congrArg (· :: [source]) hoptions.symm
      · intro g hsource hchain
        have htexts : [options.json, source] = ([] ++ [f] ++ [g]).map Feed.text := by
          rw [← hoptions, ← hsource]
          rfl
        have hentering := entering_of_chain hchain htexts hcount
          [(EncodedText.mk f.region).start, (EncodedText.mk g.region).start] rfl
        rw [← Watched.action_enter] at hentering
        exact hentering

theorem entryPoint_of_some {s : Session σ} {entry : Function σ}
    (h : s.guest.function? compileExport = some entry) : entryPoint s = ⟨.ok entry, s, []⟩ := by
  rw [entryPoint, Action.get_bind_apply, h]
  rfl

theorem entryPoint_of_none {s : Session σ} (h : s.guest.function? compileExport = none) :
    entryPoint s = ⟨.error (.missingExport compileExport), s, []⟩ := by
  rw [entryPoint, Action.get_bind_apply, h]
  rfl

/-- What a compile does with an entry point that it can use is handing over and calling. -/
theorem turns_compile {s : Session σ} {entry : Function σ} {form : EntryForm}
    (hpoint : entryPoint s = ⟨.ok entry, s, []⟩) (hform : entryForm s = ⟨.ok form, s, []⟩)
    (options : Options) (source : String) :
    (Watched.compile options source).turns s =
        (Watched.enterWith form entry options source).turns s ∧
      ((Watched.compile options source).action s).result =
        ((Watched.enterWith form entry options source).action s).result.map Address.mk := by
  have htold : (Action.emit (.entryResolved form) : Action (Session σ) GuestFault Unit) s =
      ⟨.ok (), s, [.event (.entryResolved form)]⟩ := rfl
  rw [Watched.compile]
  constructor
  · rw [(Watched.alone_bind_of_ok hform _).1, (Watched.alone_bind_of_ok htold _).1,
      (Watched.alone_bind_of_ok hpoint _).1]
    exact Watched.turns_bind_alone _ _ s
  · rw [(Watched.alone_bind_of_ok hform _).2, (Watched.alone_bind_of_ok htold _).2,
      (Watched.alone_bind_of_ok hpoint _).2]
    cases h : ((Watched.enterWith form entry options source).action s).result with
    | ok returned =>
        rw [Watched.result_bind_of_ok _ h]
        rfl
    | error fault =>
        rw [Watched.result_bind_of_error _ h]
        rfl

/-- The compile of an entry point that takes both texts. -/
theorem compile_of_optionsAndSource {s : Session σ} {entry : Function σ}
    (hentry : s.guest.function? compileExport = some entry)
    (hform : formOf? entry = .ok .optionsAndSource) (options : Options) (source : String) :
    let called := (prepareInputs options source >>= fun texts =>
      enter entry [texts.1.start, texts.2.start]) s
    (compile options source s).result = called.result.map Address.mk ∧
      (compile options source s).state = called.state := by
  intro called
  have hpoint := entryPoint_of_some hentry
  have hknown : entryForm s = ⟨.ok .optionsAndSource, s, []⟩ := by
    rw [entryForm, Action.bind_of_ok _ (congrArg Ended.result hpoint), hpoint, hform]
    rfl
  rw [compile, Action.bind_of_ok _ (congrArg Ended.result hknown), hknown]
  simp only [Action.emit_bind_apply]
  rw [Action.bind_of_ok _ (congrArg Ended.result hpoint), hpoint]
  simp only [Ended.behind_result, Ended.behind_state]
  rw [← Action.bind_bind]
  cases hcalled : called.result with
  | ok result =>
      rw [Action.bind_of_ok _ hcalled]
      exact ⟨rfl, rfl⟩
  | error fault =>
      rw [Action.bind_of_error _ hcalled]
      exact ⟨rfl, rfl⟩

/-- A compile asks for room for each text that its entry point takes, one right after the other, and
then calls the entry point with what it was given; or something is missing, and it does not. -/
theorem compile_disciplined (options : Options) (source : String) (s : Session σ) :
    let turns := (Watched.compile options source).turns s
    let result := (compile options source s).result
    match s.guest.function? compileExport with
    | none => turns = [] ∧ result = .error (.missingExport compileExport)
    | some entry =>
      match formOf? entry with
      | .error fault => turns = [] ∧ result = .error fault
      | .ok form =>
        ∃ returned, Entering s entry (form.texts options source) turns returned ∧
          result = returned.map Address.mk := by
  rw [← Watched.action_compile]
  cases hentry : s.guest.function? compileExport with
  | none =>
      have hform : entryForm s = ⟨.error (.missingExport compileExport), s, []⟩ := by
        have hpoint := entryPoint_of_none hentry
        rw [entryForm, Action.bind_of_error _ (congrArg Ended.result hpoint), hpoint]
      exact Watched.alone_bind_of_error hform _
  | some entry =>
      have hpoint := entryPoint_of_some hentry
      have hform : entryForm s = (Action.ofExcept (formOf? entry) : Action _ _ _) s := by
        rw [entryForm, Action.bind_of_ok _ (congrArg Ended.result hpoint), hpoint]
        rfl
      dsimp only
      cases hcount : formOf? entry with
      | error fault =>
          rw [hcount] at hform
          exact Watched.alone_bind_of_error hform _
      | ok form =>
          rw [hcount] at hform
          obtain ⟨hturns, hresult⟩ := turns_compile hpoint hform options source
          rw [hturns, hresult]
          exact ⟨_, entering_enterWith hcount options source s, rfl⟩

end Session

end CompilerHost
