import CompilerHost.Proofs.Entering
import CompilerHost.Proofs.Linking

/-! # Entry points of other types

A compile first settles how its entry point takes inputs and says what is left over; only then does
it hand over the rest and call. The number of parameters settles the first, and their types are
looked at with the call.

* `Session.compile_of_resolved` and `Session.compile_of_unresolved`: a compile is these two parts;
* `Session.compile_mistyped`: an entry point of another type never has a turn;
* `Session.refusesEntry_iff`: it is refused with the guest left alone exactly if it takes nothing or
  takes too much, and only if it takes too much does its form say so.
-/

namespace CompilerHost

/-! ## What is left over -/

/-- The inputs that are given and not taken. -/
def EntryForm.ignored? (form : EntryForm) (options : Options) (source : String) : Option String :=
  match form with
  | .optionsAndSource => none
  | .source => if options.isEmpty then none else some "options"
  | .noInputs => if options.isEmpty && source.isEmpty then none else some "options and source"

/-- What the operator is told of them. -/
def EntryForm.warning (form : EntryForm) (options : Options) (source : String) : Journal :=
  ((form.ignored? options source).map fun ignored => .event (.inputsIgnored form ignored)).toList

namespace Watched

variable {σ α : Type}

/-- The inputs that are taken, and the entry point's turn. -/
def handOver (form : EntryForm) (f : Function σ) (options : Options) (source : String) :
    Watched σ UInt32 :=
  match form with
  | .optionsAndSource =>
    prepareInputs options source >>= fun texts => enter f [texts.1.start, texts.2.start]
  | .source => encode source >>= fun text => enter f [text.start]
  | .noInputs => enter f []

theorem action_told (c : Bool) (e : Event) (x : Action (Session σ) GuestFault α) (s : Session σ) :
    ((unless c do Action.emit e) >>= fun _ => x) s =
      (x s).behind (if c then [] else [.event e]) := by
  cases c with
  | true => rfl
  | false => rfl

/-- Entering is handing over, behind the word on what is left over. -/
theorem enterWith_eq (form : EntryForm) (f : Function σ) (options : Options) (source : String)
    (s : Session σ) :
    (enterWith form f options source).turns s = (handOver form f options source).turns s ∧
      (enterWith form f options source).action s =
        ((handOver form f options source).action s).behind (form.warning options source) := by
  cases form with
  | optionsAndSource => exact ⟨rfl, rfl⟩
  | source =>
      refine ⟨(turns_result_told _ _ _ s).1, (action_told _ _ _ s).trans ?_⟩
      cases h : options.isEmpty with
      | true => simp [EntryForm.warning, EntryForm.ignored?, h, handOver]
      | false => simp [EntryForm.warning, EntryForm.ignored?, h, handOver]
  | noInputs =>
      refine ⟨(turns_result_told _ _ _ s).1, (action_told _ _ _ s).trans ?_⟩
      cases h : options.isEmpty && source.isEmpty with
      | true => simp [EntryForm.warning, EntryForm.ignored?, h, handOver]
      | false => simp [EntryForm.warning, EntryForm.ignored?, h, handOver]

end Watched

namespace Session

variable {σ : Type} {s : Session σ} {entry : Function σ} {form : EntryForm} {fault : GuestFault}

/-! ## The two parts of a compile -/

theorem entryForm_of_some (hentry : s.guest.function? compileExport = some entry) :
    entryForm s =
      (Action.ofExcept (formOf? entry) : Action (Session σ) GuestFault EntryForm) s := by
  have hpoint := entryPoint_of_some hentry
  rw [entryForm, Action.bind_of_ok _ (congrArg Ended.result hpoint), hpoint]
  rfl

theorem entryForm_of_formOf? (hentry : s.guest.function? compileExport = some entry)
    (hform : formOf? entry = .ok form) : entryForm s = ⟨.ok form, s, []⟩ := by
  rw [entryForm_of_some hentry, hform]
  rfl

/-- Says where the result is. -/
def reportReturn (result : UInt32) : Action (Session σ) GuestFault Address := do
  let s ← Action.get
  Action.emit (.compileReturned ⟨result⟩ s.fuelConsumed)
  pure ⟨result⟩

/-- A compile whose form is not settled does nothing. -/
theorem compile_of_unresolved (hform : entryForm s = ⟨.error fault, s, []⟩) (options : Options)
    (source : String) :
    compile options source s = ⟨.error fault, s, []⟩ ∧
      (Watched.compile options source).turns s = [] := by
  have hresult := congrArg Ended.result hform
  constructor
  · rw [compile, Action.bind_of_error _ hresult, hform]
  · exact (Watched.alone_bind_of_error hform _).1

/-- A compile whose form is settled says so, says what is left over, and hands over the rest. -/
theorem compile_of_resolved (hentry : s.guest.function? compileExport = some entry)
    (hform : formOf? entry = .ok form) (options : Options) (source : String) :
    compile options source s =
        (((Watched.handOver form entry options source).action >>= reportReturn) s).behind
          (.event (.entryResolved form) :: form.warning options source) ∧
      (Watched.compile options source).turns s =
        (Watched.handOver form entry options source).turns s := by
  have hpoint := entryPoint_of_some hentry
  have hknown := entryForm_of_formOf? hentry hform
  obtain ⟨hturns, henter⟩ := Watched.enterWith_eq form entry options source s
  constructor
  · have hparts : (Watched.compile options source).action s =
        (((Watched.enterWith form entry options source).action >>= reportReturn) s).behind
          [.event (.entryResolved form)] := by
      rw [Watched.compile, Watched.action_bind, Watched.action_alone,
        Action.bind_of_ok _ (congrArg Ended.result hknown), hknown]
      simp only [Watched.action_bind, Watched.action_alone, Action.emit_bind_apply]
      rw [Action.bind_of_ok _ (congrArg Ended.result hpoint), hpoint]
      rfl
    rw [← Watched.action_compile, hparts, Action.bind_of_behind reportReturn henter,
      Ended.behind_behind]
    rfl
  · rw [(turns_compile hpoint hknown options source).1, hturns]

/-! ## Refusals -/

/-- An ending in which the type of the entry point is to blame. -/
def IsMismatch {α : Type} (result : Except GuestFault α) : Prop :=
  ∃ detail, result = .error (.signatureMismatch compileExport detail)

/-- A compile refuses the entry point for its type, and leaves guest and session alone. -/
structure RefusesCompile (s : Session σ) (options : Options) (source : String) : Prop where
  mismatch : IsMismatch (compile options source s).result
  turns : (Watched.compile options source).turns s = []
  state : (compile options source s).state = s

/-- The entry point is refused for its type, and the guest is left alone. -/
structure RefusesEntry (s : Session σ) (options : Options) (source : String) : Prop where
  form : IsMismatch (entryForm s).result
  compile : s.RefusesCompile options source

/-- The only turns are those of the allocator, for a text each. -/
def AsksOnly (s : Session σ) (turns : List (Turn σ)) : Prop :=
  ∀ t ∈ turns, ∃ allocator text live, s.guest.allocator? Guest.allocatorExport = .ok allocator ∧
    t = .function allocator [UInt32.ofNat (Input.text text).bytes.size] live

/-- A compile fails without a turn for its entry point, whose type is to blame unless an input does
not go in. -/
def Declines (s : Session σ) (options : Options) (source : String) : Prop :=
  s.AsksOnly ((Watched.compile options source).turns s) ∧
    (IsMismatch (compile options source s).result ∨
      ∃ (text : String) (s' : Session σ) (fault : GuestFault),
        ((Input.text text).put s').result = .error fault ∧
        (compile options source s).result = .error fault)

theorem formOf?_of_more (h : 2 < entry.type.params.length) : IsMismatch (formOf? entry) := by
  unfold formOf?
  split
  · rename_i hzero
    omega
  · rename_i hone
    omega
  · rename_i htwo
    omega
  · exact ⟨_, rfl⟩

theorem formOf?_of_few (h : entry.type.params.length ≤ 2) : ∃ form, formOf? entry = .ok form := by
  have hcount : entry.type.params.length = 0 ∨ entry.type.params.length = 1 ∨
      entry.type.params.length = 2 := by omega
  rcases hcount with hzero | hone | htwo
  · exact ⟨.noInputs, by simp only [formOf?, hzero]⟩
  · exact ⟨.source, by simp only [formOf?, hone]⟩
  · exact ⟨.optionsAndSource, by simp only [formOf?, htwo]⟩

/-- With too many parameters everything is refused at once. -/
theorem refusesEntry_of_more (hentry : s.guest.function? compileExport = some entry)
    (h : 2 < entry.type.params.length) (options : Options) (source : String) :
    s.RefusesEntry options source := by
  obtain ⟨detail, hrefused⟩ := formOf?_of_more h
  have hform := entryForm_of_some hentry
  rw [hrefused] at hform
  obtain ⟨hcompile, hturns⟩ := compile_of_unresolved hform options source
  exact ⟨⟨detail, by rw [hform]; rfl⟩, ⟨detail, by rw [hcompile]⟩, hturns, by rw [hcompile]⟩

/-- Without parameters nothing is handed over, and the type is looked at at once. -/
theorem refusesCompile_of_none (hentry : s.guest.function? compileExport = some entry)
    (htype : entry.type ≠ entryType 0) (hnone : entry.type.params.length = 0) (options : Options)
    (source : String) : s.RefusesCompile options source := by
  have hform : formOf? entry = .ok .noInputs := by
    simp only [formOf?, hnone]
  obtain ⟨hcompile, hturns⟩ := compile_of_resolved hentry hform options source
  rcases enter_course entry [] s hnone with ⟨hright, _, _⟩ | ⟨_, hnoturns, detail, henter⟩
  · exact absurd hright htype
  · have hover : (Watched.handOver .noInputs entry options source).action s =
        ⟨.error (.signatureMismatch compileExport detail), s, []⟩ :=
      (congrFun (Watched.action_enter entry []) s).trans henter
    rw [Action.bind_of_error _ (congrArg Ended.result hover), hover] at hcompile
    exact ⟨⟨detail, by rw [hcompile]; rfl⟩, hturns.trans hnoturns, by rw [hcompile]; rfl⟩

theorem guest_after (f : Feed σ) : f.after.guest = f.before.guest :=
  (keeps_call f.allocator _ f.before).guest

/-- The turns for the texts that went in are turns of one allocator. -/
theorem asksOnly_of_chain {s' : Session σ} {feeds : List (Feed σ)} (h : Feed.Chain s feeds s') :
    s'.guest = s.guest ∧ s.AsksOnly (feeds.map Feed.turn) := by
  induction feeds generalizing s with
  | nil =>
      obtain rfl : s' = s := h
      exact ⟨rfl, fun _ ht => absurd ht List.not_mem_nil⟩
  | cons f rest ih =>
      obtain ⟨rfl, hrest⟩ := h
      obtain ⟨hguest, hasks⟩ := ih hrest
      rw [guest_after] at hguest
      refine ⟨hguest, ?_⟩
      intro t ht
      rcases List.mem_cons.1 ht with rfl | ht
      · exact ⟨f.allocator, f.text, f.before.live, f.usable, rfl⟩
      · obtain ⟨allocator, text, live, hallocator, hturn⟩ := hasks t ht
        rw [guest_after] at hallocator
        exact ⟨allocator, text, live, hallocator, hturn⟩

theorem asksOnly_append {turns more : List (Turn σ)} (h : s.AsksOnly turns)
    (hmore : s.AsksOnly more) : s.AsksOnly (turns ++ more) := by
  intro t ht
  rcases List.mem_append.1 ht with ht | ht
  · exact h t ht
  · exact hmore t ht

theorem asksOnly_of_askedAtMost {s' : Session σ} {text : String} {turns : List (Turn σ)}
    (hguest : s'.guest = s.guest) (h : s'.AskedAtMost text turns) : s.AsksOnly turns := by
  rcases h with rfl | ⟨allocator, hallocator, rfl⟩
  · exact fun _ ht => absurd ht List.not_mem_nil
  · intro t ht
    rw [List.mem_singleton.1 ht]
    exact ⟨allocator, text, s'.live, hguest ▸ hallocator, rfl⟩

/-- With no more than two parameters, whatever they are, there is a form, and the inputs that it
takes are handed over. -/
theorem entering_of_few (hentry : s.guest.function? compileExport = some entry)
    (hfew : entry.type.params.length ≤ 2) (options : Options) (source : String) :
    ∃ texts turns returned, entry.type.params.length = texts.length ∧
      s.Entering entry texts turns returned ∧
      (Watched.compile options source).turns s = turns ∧
      (compile options source s).result = returned.map Address.mk := by
  obtain ⟨form, hform⟩ := formOf?_of_few hfew
  obtain ⟨hturns, hresult⟩ := turns_compile (entryPoint_of_some hentry)
    (entryForm_of_formOf? hentry hform) options source
  rw [Watched.action_compile] at hresult
  exact ⟨_, _, _, length_texts_of_formOf? hform options source,
    entering_enterWith hform options source s, hturns, hresult⟩

/-- Whatever its type, an entry point outside of the contract has no turn. -/
theorem compile_mistyped (hentry : s.guest.function? compileExport = some entry)
    (htype : ∀ count ≤ 2, entry.type ≠ entryType count) (options : Options) (source : String) :
    s.Declines options source := by
  rcases Nat.lt_or_ge 2 entry.type.params.length with hmore | hfew
  · have hrefused := (refusesEntry_of_more hentry hmore options source).compile
    rw [Declines, hrefused.turns]
    exact ⟨fun _ ht => absurd ht List.not_mem_nil, .inl hrefused.mismatch⟩
  · obtain ⟨texts, turns, returned, hcount, hentering, hturns, hresult⟩ :=
      entering_of_few hentry hfew options source
    rw [Declines, hturns, hresult]
    cases hentering with
    | stopped _ hchain hfault hasked =>
        obtain ⟨hguest, hasks⟩ := asksOnly_of_chain hchain
        exact ⟨asksOnly_append hasks (asksOnly_of_askedAtMost hguest hasked),
          .inr ⟨_, _, _, hfault, rfl⟩⟩
    | mistyped _ hchain _ => exact ⟨(asksOnly_of_chain hchain).2, .inl ⟨_, rfl⟩⟩
    | entered _ _ _ hright => exact absurd hright (htype _ (hcount ▸ hfew))

/-- A text that does not go in is not the fault of the entry point. -/
theorem not_isMismatch_put (text : String) (s : Session σ) :
    ¬IsMismatch ((Input.text text).put s).result := by
  obtain ⟨result, state, turns, hplacing, -, hresult, -, -⟩ := (Input.text text).put_placing s
  rw [hresult]
  rintro ⟨detail, rfl⟩
  cases hplacing with
  | unusable hsize hallocator =>
      rw [Guest.allocator?] at hallocator
      split at hallocator
      · cases hallocator
      · split at hallocator
        · cases hallocator
        · have hname := (GuestFault.signatureMismatch.inj (Except.error.inj hallocator)).1
          have hother : Guest.allocatorExport ≠ compileExport := by decide
          exact hother hname
  | @failed f cause hsize hallocator hasked =>
      have hrunning := failsRunning_call f _ s _ hasked
      cases hrunning

/-- With parameters the type is looked at only when the allocator has had a turn for each. -/
theorem not_refusesCompile_of_some (hentry : s.guest.function? compileExport = some entry)
    (hfew : entry.type.params.length ≤ 2) (hsome : entry.type.params.length ≠ 0)
    (options : Options) (source : String) : ¬s.RefusesCompile options source := by
  intro hrefused
  obtain ⟨texts, turns, returned, hcount, hentering, hturns, hresult⟩ :=
    entering_of_few hentry hfew options source
  obtain ⟨detail, hmismatch⟩ := hrefused.mismatch
  rw [hresult] at hmismatch
  rw [hrefused.turns] at hturns
  cases hentering with
  | stopped _ _ hfault _ =>
      cases hmismatch
      exact not_isMismatch_put _ _ ⟨detail, hfault⟩
  | mistyped htexts _ _ =>
      rw [List.map_eq_nil_iff.1 hturns.symm] at htexts
      rw [htexts] at hcount
      exact hsome hcount
  | entered _ _ _ _ => exact List.append_ne_nil_of_right_ne_nil _ (List.cons_ne_nil _ _) hturns.symm

/-- Of the entry points outside of the contract, those with too many parameters are refused
outright, and those without parameters as soon as they are to be used; to others inputs are handed
over first. None of them has a turn. -/
theorem refusesEntry_iff (hentry : s.guest.function? compileExport = some entry)
    (htype : ∀ count ≤ 2, entry.type ≠ entryType count) (options : Options) (source : String) :
    (s.RefusesEntry options source ↔ 2 < entry.type.params.length) ∧
      (s.RefusesCompile options source ↔
        entry.type.params.length = 0 ∨ 2 < entry.type.params.length) ∧
      s.Declines options source := by
  refine ⟨?_, ?_, compile_mistyped hentry htype options source⟩
  · constructor
    · intro hrefused
      refine Nat.lt_of_not_le fun hfew => ?_
      obtain ⟨form, hform⟩ := formOf?_of_few hfew
      obtain ⟨detail, hmismatch⟩ := hrefused.form
      rw [entryForm_of_formOf? hentry hform] at hmismatch
      cases hmismatch
    · intro hmore
      exact refusesEntry_of_more hentry hmore options source
  · constructor
    · intro hrefused
      refine Decidable.or_iff_not_imp_left.2 fun hsome => Nat.lt_of_not_le fun hfew => ?_
      exact not_refusesCompile_of_some hentry hfew hsome options source hrefused
    · rintro (hnone | hmore)
      · exact refusesCompile_of_none hentry (htype 0 (Nat.zero_le 2)) hnone options source
      · exact (refusesEntry_of_more hentry hmore options source).compile

/-- An entry point of some type, which gives an address. -/
def entryOf (type : FunctionType) : Function Unit := ⟨type, fun _ live => ⟨[], .ok 64, live⟩⟩

/-- A session with such an entry point. Its guest has room for no input. -/
def offering (type : FunctionType) : Session Unit where
  guest :=
    { imports := []
      exports :=
        [(Guest.memoryExport, .memory),
          (Guest.allocatorExport,
            .function ⟨Guest.allocatorType, fun _ live => ⟨[], .ok 0, live⟩⟩),
          (compileExport, .function (entryOf type))]
      memory := .zeros 1 1
      globals := .ok ()
      data := []
      start := none }
  live := ⟨.zeros 1 1, (), 100⟩
  log := .fresh none
  filesystem := none
  initialFuel := 100

theorem refusesEntry_three :
    let type : FunctionType := ⟨[.i32, .i32, .i32], [.i32]⟩
    (offering type).guest.function? compileExport = some (entryOf type) ∧
      (∀ count ≤ 2, type ≠ entryType count) ∧ (offering type).RefusesEntry .none "x" := by
  intro type
  have hentry : (offering type).guest.function? compileExport = some (entryOf type) := rfl
  have htype : ∀ count ≤ 2, type ≠ entryType count := by decide
  exact ⟨hentry, htype, (refusesEntry_iff hentry htype .none "x").1.2 (by decide)⟩

/-- A parameter of another type passes for an address until the source is to go in. -/
theorem not_refusesEntry_long :
    let type : FunctionType := ⟨[.i64], [.i32]⟩
    (∀ count ≤ 2, type ≠ entryType count) ∧
      (entryForm (offering type)).result = .ok .source ∧
      (compile .none "x" (offering type)).result =
        .error (.allocationFailed Guest.allocatorExport 2) ∧
      (Watched.compile .none "x").turns (offering type) ≠ [] ∧
      ¬(offering type).RefusesEntry .none "x" := by
  intro type
  have hform : (entryForm (offering type)).result = .ok .source := by with_unfolding_all rfl
  have hresult : (compile .none "x" (offering type)).result =
      .error (.allocationFailed Guest.allocatorExport 2) := by with_unfolding_all rfl
  refine ⟨by decide, hform, hresult, List.cons_ne_nil _ _, ?_⟩
  intro hrefused
  obtain ⟨detail, hmismatch⟩ := hrefused.form
  cases hform.symm.trans hmismatch

end Session

end CompilerHost
