import CompilerHost.Event
import CompilerHost.Fault

/-! # Host actions

What the host does is a function of a state. It ends in a result or a fault, leaves a state either
way, and has made its reports by then: events for the operator, and texts shown on a surface. The
reports of a sequence are those of its parts, one after the other (`journal_bind`).
-/

namespace CompilerHost

/-- How a surface fails: of texts that are written to it one after the other, whether the last is
not taken, and why. -/
structure Surface.Failure where
  error? : List String → Option OsError

/-- A place where log text is shown while the guest runs. A write to it may fail, depending on what
is written and on all that was written before. -/
structure Surface where
  id : Nat
  failure : Option Surface.Failure

namespace Surface

/-- No text is taken, for want of space. -/
def Failure.noSpaceLeft : Failure := ⟨fun _ => some .noSpaceLeft⟩

/-- What is left of a failure when a text was written. -/
def Failure.after (f : Failure) (text : String) : Failure := ⟨fun texts => f.error? (text :: texts)⟩

/-- Why the last of some texts is not taken when they are written next, if it is not. -/
def error? (s : Surface) (texts : List String) : Option OsError := s.failure.bind (·.error? texts)

/-- Why a text is not taken when it is written next, if it is not. -/
def fault (s : Surface) (text : String) : Option OsError := s.error? [text]

/-- The surface when a text was written to it, whether it took it or not. -/
def after (s : Surface) (text : String) : Surface :=
  { s with failure := s.failure.map (·.after text) }

end Surface

/-- Something that can be observed of a running host. -/
inductive Report where
  | event (e : Event)
  | shown (surface : Nat) (text : String)
deriving DecidableEq, Repr

/-- What was reported, the oldest first. -/
abbrev Journal := List Report

/-- The events of a journal. -/
def Journal.events (j : Journal) : List Event :=
  j.filterMap fun r => match r with | .event e => some e | .shown .. => none

/-- The texts shown on a surface. -/
def Journal.shownOn (j : Journal) (surface : Nat) : List String :=
  j.filterMap fun r =>
    match r with
    | .event _ => none
    | .shown s text => if s = surface then some text else none

/-- How an action ended. -/
structure Ended (S ε α : Type) where
  result : Except ε α
  state : S
  journal : Journal

/-- Something that the host does to a state. -/
def Action (S ε α : Type) : Type := S → Ended S ε α

namespace Action

variable {S T ε δ α β : Type}

/-- Carries the action out. -/
def run (x : Action S ε α) (s : S) : Ended S ε α := x s

def pure (a : α) : Action S ε α := fun s => ⟨.ok a, s, []⟩

/-- One action and then, if it succeeds, the next. A fault keeps the state as it is by then. -/
def bind (x : Action S ε α) (f : α → Action S ε β) : Action S ε β := fun s =>
  let first := x s
  match first.result with
  | .error e => ⟨.error e, first.state, first.journal⟩
  | .ok a =>
    let second := f a first.state
    ⟨second.result, second.state, first.journal ++ second.journal⟩

instance : Monad (Action S ε) where
  pure := pure
  bind := bind

/-- Stops with a fault. -/
def fail (e : ε) : Action S ε α := fun s => ⟨.error e, s, []⟩

instance : MonadExceptOf ε (Action S ε) where
  throw := fail
  tryCatch x handler := fun s =>
    let first := x s
    match first.result with
    | .ok a => ⟨.ok a, first.state, first.journal⟩
    | .error e =>
      let second := handler e first.state
      ⟨second.result, second.state, first.journal ++ second.journal⟩

/-- The state as it is. -/
def get : Action S ε S := fun s => ⟨.ok s, s, []⟩

/-- Replaces the state. -/
def set (s : S) : Action S ε Unit := fun _ => ⟨.ok (), s, []⟩

/-- Changes the state. -/
def modify (f : S → S) : Action S ε Unit := fun s => ⟨.ok (), f s, []⟩

/-- Tells the operator. -/
def emit (e : Event) : Action S ε Unit := fun s => ⟨.ok (), s, [.event e]⟩

/-- Reports what was reported elsewhere. -/
def reported (j : Journal) : Action S ε Unit := fun s => ⟨.ok (), s, j⟩

/-- Goes on with a result at hand. -/
def ofExcept : Except ε α → Action S ε α
  | .ok a => pure a
  | .error e => fail e

/-- Does to a part of the state what the action does to such a part by itself. -/
def within (part : S → T) (replace : S → T → S) (x : Action T ε α) : Action S ε α := fun s =>
  let inner := x (part s)
  ⟨inner.result, replace s inner.state, inner.journal⟩

/-- Names the fault of an action otherwise. -/
def mapFault (f : ε → δ) (x : Action S ε α) : Action S δ α := fun s =>
  let inner := x s
  ⟨inner.result.mapError f, inner.state, inner.journal⟩

/-- The result of an action, faults included, as a value. -/
def attempt (x : Action S ε α) : Action S δ (Except ε α) := fun s =>
  let inner := x s
  ⟨.ok inner.result, inner.state, inner.journal⟩

/-- Carries an action out on a state of its own and gives the state that it leaves. -/
def finalState (x : Action S ε α) (s : S) : Action T ε S := fun t =>
  let inner := x s
  ⟨inner.result.map fun _ => inner.state, t, inner.journal⟩

/-- What a sequence reports is what its parts report. -/
theorem journal_bind (x : Action S ε α) (f : α → Action S ε β) (s : S) :
    (bind x f s).journal = (x s).journal ++
      (match (x s).result with
        | .ok a => (f a (x s).state).journal
        | .error _ => []) := by
  unfold bind
  cases h : (x s).result <;> simp [h]

end Action

end CompilerHost
