import CompilerHost.Pipeline
import CompilerHost.Proofs.Sequencing
import CompilerHost.Proofs.Speech

/-! # The turns of a guest

The host gives control to its guest a few times in a run. Each time is a turn, and what the guest
says in its turns is its speech. A watched action is an action on a session together with the turns
that the guest takes in it.

* `Watched.compileIn` is the compile, written down a second time as a watched action;
* `Watched.action_compileIn`: forgetting the turns gives the compile back.
-/

namespace CompilerHost

/-- A time for which the guest has control. -/
inductive Turn (σ : Type) where
  /-- A function of the guest runs. -/
  | function (f : Function σ) (args : List UInt32) (live : Instance σ)
  /-- The guest has a function of the host run in its place. -/
  | host (call : HostCall) (live : Instance σ)

/-- The calls to the host that the guest would make in a turn if none failed. A function that has
no fuel to begin with makes none. -/
def Turn.calls {σ : Type} : Turn σ → List (HostCall × Instance σ)
  | .function f args live =>
    if live.fuel ≤ Session.entryFuel then [] else (f.run args live).calls
  | .host call live => [(call, live)]

/-- What a guest says in its turns. -/
def Guest.speech {σ : Type} (g : Guest σ) (turns : List (Turn σ)) : List Utterance :=
  turns.flatMap fun t => g.spoken t.calls

theorem Guest.speech_append {σ : Type} (g : Guest σ) (a b : List (Turn σ)) :
    g.speech (a ++ b) = g.speech a ++ g.speech b :=
  List.flatMap_append

@[simp] theorem Guest.speech_singleton {σ : Type} (g : Guest σ) (t : Turn σ) :
    g.speech [t] = g.spoken t.calls :=
  List.flatMap_singleton _ _

/-! ## Watched actions -/

/-- An action on a session, with the turns that the guest takes in it. -/
structure Watched (σ α : Type) where
  action : Action (Session σ) GuestFault α
  turns : Session σ → List (Turn σ)

namespace Watched

variable {σ α β : Type}

/-- Something that the host does by itself. -/
def alone (x : Action (Session σ) GuestFault α) : Watched σ α := ⟨x, fun _ => []⟩

/-- Gives a function of the guest its turn. -/
def call (f : Function σ) (args : List UInt32) : Watched σ UInt32 :=
  ⟨Session.call f args, fun s => [.function f args s.live]⟩

/-- One action and then the next, if there is one. -/
def bind (x : Watched σ α) (f : α → Watched σ β) : Watched σ β where
  action := x.action >>= fun a => (f a).action
  turns s :=
    x.turns s ++
      match (x.action s).result with
      | .ok a => (f a).turns (x.action s).state
      | .error _ => []

instance : Monad (Watched σ) where
  pure a := alone (pure a)
  bind := bind

@[simp] theorem action_alone (x : Action (Session σ) GuestFault α) : (alone x).action = x := rfl

@[simp] theorem action_call (f : Function σ) (args : List UInt32) :
    (call f args).action = Session.call f args := rfl

@[simp] theorem action_pure (a : α) : (Pure.pure a : Watched σ α).action = Pure.pure a := rfl

@[simp] theorem action_bind (x : Watched σ α) (f : α → Watched σ β) :
    (x >>= f).action = x.action >>= fun a => (f a).action := rfl

theorem action_ite (c : Prop) [Decidable c] (x y : Watched σ α) :
    (if c then x else y).action = if c then x.action else y.action :=
  apply_ite action c x y

theorem turns_bind_of_ok {x : Watched σ α} {s : Session σ} {a : α} (f : α → Watched σ β)
    (h : (x.action s).result = .ok a) :
    (x >>= f).turns s = x.turns s ++ (f a).turns (x.action s).state := by
  show (bind x f).turns s = _
  simp [bind, h]

theorem turns_bind_of_error {x : Watched σ α} {s : Session σ} {e : GuestFault}
    (f : α → Watched σ β) (h : (x.action s).result = .error e) :
    (x >>= f).turns s = x.turns s := by
  show (bind x f).turns s = _
  simp [bind, h]

/-! ## The compile, watched -/

/-- `Session.allocate`, watched: the allocator has one turn, if the size is one to ask for. -/
def allocate (name : String) (size : UInt32) : Watched σ Region := do
  let s ← alone Action.get
  let allocator ← alone (Action.ofExcept (s.guest.allocator? name))
  if size.toNat < 1 <<< 31 then
    let result ← call allocator [size]
    alone (if result = 0 then throw (.allocationFailed name size.toNat) else pure ⟨⟨result⟩, size⟩)
  else alone (throw (.inputTooLarge size.toNat))

/-- `Session.place`, watched. -/
def place (allocator : String) (data : ByteArray) (length : Nat) : Watched σ Region := do
  if data.size < 1 <<< 32 then
    let region ← allocate allocator (UInt32.ofNat data.size)
    alone (do
      Session.writeRegion region data
      pure region)
  else alone (throw (.inputTooLarge length))

/-- `Session.encode`, watched. -/
def encode (text : String) : Watched σ EncodedText := do
  let region ← place Guest.allocatorExport (text.toUTF8.push 0) text.utf8ByteSize
  pure ⟨region⟩

/-- `Session.loadFilesystem`, watched. -/
def loadFilesystem (image : ByteArray) : Watched σ Region := do
  let region ← place Guest.imageAllocatorExport image image.size
  alone (do
    Action.emit (.filesystemLoaded region.start image.size)
    Action.modify fun s => { s with filesystem := some region }
    pure region)

/-- `Session.prepareInputs`, watched. -/
def prepareInputs (options : Options) (source : String) :
    Watched σ (EncodedText × EncodedText) := do
  let optionsText ← encode options.json
  let sourceText ← encode source
  alone (do
    Action.emit (.inputsPrepared optionsText.start sourceText.start sourceText.textLength.toNat)
    pure (optionsText, sourceText))

/-- `Session.enter`, watched: the entry point has one turn, if its type allows it. -/
def enter (f : Function σ) (args : List Address) : Watched σ UInt32 :=
  if f.type.params.any (· ≠ .i32) then
    alone (throw (.signatureMismatch compileExport "type mismatch with parameters"))
  else if f.type.results ≠ [.i32] then
    alone (throw (.signatureMismatch compileExport "type mismatch with results"))
  else call f (args.map Address.offset)

/-- The inputs that an entry point takes, and its turn. -/
def enterWith (form : EntryForm) (f : Function σ) (options : Options) (source : String) :
    Watched σ UInt32 :=
  match form with
  | .optionsAndSource => do
    let (optionsText, sourceText) ← prepareInputs options source
    enter f [optionsText.start, sourceText.start]
  | .source => do
    alone (unless options.isEmpty do Action.emit (.inputsIgnored form "options"))
    let sourceText ← encode source
    enter f [sourceText.start]
  | .noInputs => do
    alone (unless options.isEmpty && source.isEmpty do
      Action.emit (.inputsIgnored form "options and source"))
    enter f []

/-- `Session.compile`, watched. -/
def compile (options : Options) (source : String) : Watched σ Address := do
  let form ← alone Session.entryForm
  alone (Action.emit (.entryResolved form))
  let f ← alone Session.entryPoint
  let result ← enterWith form f options source
  alone (do
    let s ← Action.get
    Action.emit (.compileReturned ⟨result⟩ s.fuelConsumed)
    pure ⟨result⟩)

/-- `Pipeline.compileIn`, watched, as far as the guest has turns in it. -/
def compileFor (p : Pipeline σ) (request : Request) : Watched σ Address := do
  match p.image with
  | some image =>
    let _ ← loadFilesystem image
  | none => pure ()
  compile request.options request.source

/-- `Pipeline.compileIn`, watched. -/
def compileIn (p : Pipeline σ) (request : Request) : Watched σ Outcome := do
  let result ← compileFor p request
  alone (Session.outcomeAt result)

/-! ## Forgetting the turns -/

theorem action_allocate (name : String) (size : UInt32) :
    (allocate name size : Watched σ Region).action = Session.allocate name size := by
  simp only [allocate, Session.allocate, action_bind, action_alone, action_ite, action_call]

theorem action_place (allocator : String) (data : ByteArray) (length : Nat) :
    (place allocator data length : Watched σ Region).action =
      Session.place allocator data length := by
  simp only [place, Session.place, action_ite, action_bind, action_alone, action_allocate]

theorem action_encode (text : String) :
    (encode text : Watched σ EncodedText).action = Session.encode text := by
  simp only [encode, action_bind, action_place, action_pure]
  rfl

theorem action_loadFilesystem (image : ByteArray) :
    (loadFilesystem image : Watched σ Region).action = Session.loadFilesystem image := by
  simp only [loadFilesystem, Session.loadFilesystem, action_bind, action_place, action_alone]

theorem action_prepareInputs (options : Options) (source : String) :
    (prepareInputs options source : Watched σ (EncodedText × EncodedText)).action =
      Session.prepareInputs options source := by
  simp only [prepareInputs, Session.prepareInputs, action_bind, action_encode, action_alone]

theorem action_enter (f : Function σ) (args : List Address) :
    (enter f args).action = Session.enter f args := by
  simp only [enter, Session.enter, action_ite, action_alone, action_call]

theorem action_compile (options : Options) (source : String) :
    (compile options source : Watched σ Address).action = Session.compile options source := by
  simp only [compile, Session.compile, action_bind, action_alone]
  congr 1
  funext form
  congr 1
  funext _
  congr 1
  funext f
  cases form with
  | noInputs =>
      simp only [enterWith, action_bind, action_alone, action_enter, bind_assoc]
      split
      · rfl
      · rfl
  | source =>
      simp only [enterWith, action_bind, action_alone, action_enter, action_encode, bind_assoc]
      split
      · rfl
      · rfl
  | optionsAndSource =>
      simp only [enterWith, action_bind, action_prepareInputs, action_enter, bind_assoc]

theorem action_compileIn (p : Pipeline σ) (request : Request) :
    (compileIn p request).action = p.compileIn request := by
  simp only [compileIn, compileFor, Pipeline.compileIn, action_bind, action_alone]
  cases p.image with
  | none => simp only [action_compile]
  | some image =>
      simp only [action_bind, action_loadFilesystem, action_compile, bind_assoc]

end Watched

end CompilerHost
