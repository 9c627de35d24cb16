import CompilerHost.Proofs.Run

/-! # What sessions report

Events come from different parts of the host. All that the operator reads from the moment that a
guest is set up until its result is decoded are events of a session: what the guest says, and how
far it is with its inputs. How far a run is, sessions do not tell. How inputs are taken is told once,
by the compile, and everything else is an exchange with the guest.

* `Action.Tells`: an invariant of reports, kept by every way to make one action of others;
* `Session.exchanges_answer`, `Session.exchanges_answerAll`: it holds of the answer to one call, and
  by induction of the answers to all;
* `Loaded.exchanges_instantiate` and `Pipeline.ofSession_compileIn`: it holds of all that a run does
  with its guest.
-/

namespace CompilerHost

/-- The events of sessions. -/
def Event.isOfSession : Event → Bool
  | .sessionOpened .. | .filesystemLoaded .. | .inputsPrepared .. | .entryResolved ..
  | .inputsIgnored .. | .compileReturned .. | .guestLog .. | .logTextRepaired ..
  | .surfaceFailed .. => true
  | _ => false

/-- The events of an exchange with the guest, which do not tell how it takes its inputs. -/
def Event.isOfExchange : Event → Bool
  | .sessionOpened .. | .filesystemLoaded .. | .inputsPrepared .. | .compileReturned ..
  | .guestLog .. | .logTextRepaired .. | .surfaceFailed .. => true
  | _ => false

theorem Event.isOfSession_of_isOfExchange {e : Event} (h : e.isOfExchange) : e.isOfSession := by
  cases e <;> first | rfl | cases h

namespace Journal

@[simp] theorem events_nil : events [] = [] := rfl

@[simp] theorem events_append (a b : Journal) : events (a ++ b) = events a ++ events b :=
  List.filterMap_append

@[simp] theorem events_cons_event (e : Event) (j : Journal) :
    events (.event e :: j) = e :: events j := rfl

/-- All events of a journal are of some kind. -/
def All (P : Event → Prop) (j : Journal) : Prop := ∀ e ∈ j.events, P e

theorem All.append {P : Event → Prop} {a b : Journal} (ha : a.All P) (hb : b.All P) :
    (a ++ b).All P := by
  intro e he
  rw [events_append] at he
  rcases List.mem_append.1 he with he | he
  · exact ha e he
  · exact hb e he

theorem All.nil (P : Event → Prop) : All P [] := by
  intro e he
  cases he

theorem All.event {P : Event → Prop} {event : Event} (h : P event) : All P [.event event] := by
  intro e he
  rw [List.mem_singleton.1 he]
  exact h

theorem All.mono {P Q : Event → Prop} {j : Journal} (h : j.All P) (hPQ : ∀ e, P e → Q e) :
    j.All Q := fun e he => hPQ e (h e he)

/-- All events of a journal are events of a session. -/
def OfSession (j : Journal) : Prop := ∀ e ∈ j.events, e.isOfSession

/-- All events of a journal are those of an exchange with the guest. -/
abbrev OfExchange (j : Journal) : Prop := j.All fun e => e.isOfExchange

theorem OfExchange.ofSession {j : Journal} (h : j.OfExchange) : j.OfSession :=
  h.mono fun _ => Event.isOfSession_of_isOfExchange

end Journal

/-- A delivery of the log reports the block, and what the surface says of it. -/
theorem exchanges_blockReports (surface : Option Surface) (block : String) :
    (blockReports surface block).OfExchange := by
  intro e he
  rcases List.mem_cons.1 he with rfl | he
  · rfl
  · cases surface with
    | none => cases he
    | some s =>
        cases hfault : s.fault (terminalText block) with
        | none => simp [shownBlock, Surface.show, hfault] at he
        | some error =>
            have he : e = .surfaceFailed error.message := by
              simpa [shownBlock, Surface.show, hfault, Journal.events] using he
            rw [he]
            rfl

theorem exchanges_blocksReports (surface : Option Surface) (blocks : List String) :
    Journal.OfExchange (blocksReports surface blocks) := by
  induction blocks generalizing surface with
  | nil => exact .nil _
  | cons block rest ih => exact (exchanges_blockReports surface block).append (ih _)

/-! ## Actions -/

namespace Action

variable {S T ε α β : Type} {P Q : Event → Prop}

/-- Whatever it comes to, an action reports events of some kind and no others. -/
def Tells (P : Event → Prop) (x : Action S ε α) : Prop := ∀ s, (x s).journal.All P

namespace Tells

theorem pure (a : α) : Tells P (Pure.pure a : Action S ε α) := fun _ => .nil P

theorem throw (error : ε) : Tells P (MonadExcept.throw error : Action S ε α) := fun _ => .nil P

theorem get : Tells P (Action.get : Action S ε S) := fun _ => .nil P

theorem modify (f : S → S) : Tells P (Action.modify f : Action S ε Unit) := fun _ => .nil P

theorem emit (event : Event) (hevent : P event) : Tells P (Action.emit event : Action S ε Unit) :=
  fun _ => .event hevent

theorem attempt {δ : Type} {x : Action S δ α} (hx : Tells P x) :
    Tells P (Action.attempt x : Action S ε (Except δ α)) := hx

theorem ofExcept (r : Except ε α) : Tells P (Action.ofExcept r : Action S ε α) := by
  cases r with
  | ok a => exact pure a
  | error error => exact throw error

theorem bind {x : Action S ε α} {f : α → Action S ε β} (hx : Tells P x) (hf : ∀ a, Tells P (f a)) :
    Tells P (x >>= f) := by
  intro s
  cases h : (x s).result with
  | ok a =>
      rw [bind_of_ok f h]
      exact (hx s).append (hf a _)
  | error error =>
      rw [bind_of_error f h]
      exact hx s

theorem ite {c : Prop} [Decidable c] {x y : Action S ε α} (hx : Tells P x) (hy : Tells P y) :
    Tells P (if c then x else y) := by
  split
  · exact hx
  · exact hy

theorem finalState {x : Action S ε α} (hx : Tells P x) (s : S) :
    Tells P (Action.finalState x s : Action T ε S) := fun _ => hx s

theorem mono {x : Action S ε α} (hx : Tells P x) (h : ∀ e, P e → Q e) : Tells Q x :=
  fun s => (hx s).mono h

end Tells

/-- Whatever it comes to, an action reports events of a session and no others. -/
def OfSession (x : Action S ε α) : Prop := ∀ s, (x s).journal.OfSession

/-- Whatever it comes to, an action reports events of an exchange with the guest and no others. -/
abbrev OfExchange (x : Action S ε α) : Prop := Tells (fun e => e.isOfExchange) x

end Action

open CompilerHost.Action (Tells OfSession OfExchange)

/-! ## Sessions -/

namespace Session

variable {σ : Type}

/-- One answer reports the block that it completes, or that it repaired a text. -/
theorem exchanges_answer (call : HostCall) :
    OfExchange (answer call : Action (Session σ) GuestFault Unit) := by
  cases call with
  | flush =>
      intro s
      have hreports := exchanges_blockReports s.log.surface s.log.pending
      rw [← Log.delivery_eq] at hreports
      show Journal.OfExchange (s.log.delivery ++ [])
      rw [List.append_nil]
      exact hreports
  | write start length =>
      refine .bind .get fun s => .ite ?_ (.throw _)
      cases s.live.memory.readTextLossy start length.toNat with
      | error access => exact .throw _
      | ok read => exact .ite (.bind (.emit _ rfl) fun _ => .modify _) (.modify _)

/-- The induction is on the calls; each is answered for itself. -/
theorem exchanges_answerAll (calls : List (HostCall × Instance σ)) :
    OfExchange (answerAll calls : Action (Session σ) GuestFault Unit) := by
  induction calls with
  | nil => exact .pure ()
  | cons c calls ih => exact .bind (.modify _) fun _ => .bind (exchanges_answer c.1) fun _ => ih

theorem exchanges_call (f : Function σ) (args : List UInt32) : OfExchange (call f args) := by
  refine .bind .get fun s => .ite (.bind (.modify _) fun _ => .throw _) ?_
  refine .bind (exchanges_answerAll _) fun _ => .bind (.modify _) fun _ => ?_
  cases (f.run args s.live).ending with
  | ok result => exact .pure result
  | error trap => exact .throw _

theorem exchanges_allocate (name : String) (size : UInt32) :
    OfExchange (allocate name size : Action (Session σ) GuestFault Region) := by
  refine .bind .get fun s => .bind (.ofExcept _) fun allocator => .ite ?_ (.throw _)
  exact .bind (exchanges_call allocator [size]) fun _ => .ite (.throw _) (.pure _)

theorem exchanges_place (allocator : String) (data : ByteArray) (length : Nat) :
    OfExchange (place allocator data length : Action (Session σ) GuestFault Region) := by
  refine .ite (.bind (exchanges_allocate allocator _) fun region => ?_) (.throw _)
  have hwrite : OfExchange (writeRegion region data : Action (Session σ) GuestFault Unit) :=
    .bind .get fun _ => .bind (.ofExcept _) fun _ => .modify _
  exact .bind hwrite fun _ => .pure region

theorem exchanges_encode (text : String) :
    OfExchange (encode text : Action (Session σ) GuestFault EncodedText) :=
  .bind (exchanges_place _ _ _) fun _ => .pure _

theorem exchanges_loadFilesystem (image : ByteArray) :
    OfExchange (loadFilesystem image : Action (Session σ) GuestFault Region) := by
  refine .bind (exchanges_place _ _ _) fun region => .bind (.emit _ rfl) fun _ => ?_
  exact .bind (.modify _) fun _ => .pure region

theorem exchanges_prepareInputs (options : Options) (source : String) :
    OfExchange (prepareInputs options source :
      Action (Session σ) GuestFault (EncodedText × EncodedText)) := by
  refine .bind (exchanges_encode _) fun _ => .bind (exchanges_encode _) fun _ => ?_
  exact .bind (.emit _ rfl) fun _ => .pure _

theorem exchanges_entryPoint :
    OfExchange (entryPoint : Action (Session σ) GuestFault (Function σ)) := by
  refine .bind .get fun s => ?_
  cases s.guest.function? compileExport with
  | some f => exact .pure f
  | none => exact .throw _

theorem exchanges_enter (f : Function σ) (args : List Address) : OfExchange (enter f args) :=
  .ite (.throw _) (.ite (.throw _) (exchanges_call f _))

theorem exchanges_reportReturn (result : UInt32) :
    OfExchange (do
      let s ← Action.get
      Action.emit (.compileReturned ⟨result⟩ s.fuelConsumed)
      pure ⟨result⟩ : Action (Session σ) GuestFault Address) :=
  .bind .get fun _ => .bind (.emit _ rfl) fun _ => .pure _

/-- A compile reports how the entry point takes its inputs, what becomes of them, and the return. -/
theorem ofSession_compile (options : Options) (source : String) :
    OfSession (compile options source : Action (Session σ) GuestFault Address) := by
  have hsession : ∀ {α : Type} {x : Action (Session σ) GuestFault α}, OfExchange x →
      Tells (fun e => e.isOfSession) x := fun h => h.mono fun _ => Event.isOfSession_of_isOfExchange
  refine Tells.bind (P := fun e => e.isOfSession)
    (.bind (hsession exchanges_entryPoint) fun _ => .ofExcept _) fun form => ?_
  refine .bind (.emit _ rfl) fun _ => .bind (hsession exchanges_entryPoint) fun f => ?_
  cases form with
  | optionsAndSource =>
      refine .bind (hsession (exchanges_prepareInputs _ _)) fun _ => ?_
      exact .bind (hsession (exchanges_enter f _)) fun r => hsession (exchanges_reportReturn r)
  | source =>
      have hrest := Tells.bind (hsession (exchanges_encode source)) fun text =>
        .bind (hsession (exchanges_enter f [text.start])) fun r => hsession (exchanges_reportReturn r)
      exact .ite hrest (.bind (.emit _ rfl) fun _ => hrest)
  | noInputs =>
      have hrest := Tells.bind (hsession (exchanges_enter f [])) fun r =>
        hsession (exchanges_reportReturn r)
      exact .ite hrest (.bind (.emit _ rfl) fun _ => hrest)

theorem exchanges_outcomeAt (a : Address) :
    OfExchange (outcomeAt a : Action (Session σ) GuestFault Outcome) :=
  .bind .get fun _ => .ofExcept _

end Session

/-! ## Runs -/

theorem Loaded.exchanges_instantiate {σ : Type} (l : Loaded σ) (log : Log) :
    OfExchange (l.instantiate log) := by
  rw [Loaded.instantiate_eq]
  refine .bind (.ofExcept _) fun first => .bind ?_ fun session => ?_
  · unfold Loaded.start
    cases l.guest.start with
    | none => exact .pure _
    | some start =>
        cases start with
        | own f => exact .finalState (Session.exchanges_call f []) _
        | host call => exact .finalState (Session.exchanges_answer call) _
  · refine .ite (.bind (.ofExcept _) fun _ => ?_) (.throw _)
    exact .bind (.emit _ rfl) fun _ => .pure session

theorem Pipeline.ofSession_compileIn {σ : Type} (p : Pipeline σ) (request : Request) :
    OfSession (p.compileIn request) := by
  have hrest : Tells (fun e => e.isOfSession) (do
      let result ← Session.compile request.options request.source
      Session.outcomeAt result : Action (Session σ) GuestFault Outcome) :=
    .bind (Session.ofSession_compile _ _) fun a =>
      (Session.exchanges_outcomeAt a).mono fun _ => Event.isOfSession_of_isOfExchange
  unfold Pipeline.compileIn
  cases p.image with
  | none => exact hrest
  | some image =>
      exact Tells.bind ((Session.exchanges_loadFilesystem image).mono fun _ =>
        Event.isOfSession_of_isOfExchange) fun _ => hrest

end CompilerHost
