import CompilerHost.Proofs.Reporting

/-! # Surfaces

A surface is a part of the log, and blocks come to it in the middle of what a guest does. What
happens is the same with a surface and without: the journal has the surface's own reports behind
each block (`Journal.echoed`), and there is no other difference.

* `Session.Unaware`: an action that is the same with every surface, and kept by every way to make
  one action of others;
* `Session.unaware_answer`, `Session.unaware_answerAll`: it holds of the answer to one call, and by
  induction of the answers to all;
* `Session.unaware_compile` and `Pipeline.unaware_compileIn`: it holds of all that is done with a
  session;
* `Loaded.instantiate_showing`: sessions are opened with a surface as without.
-/

namespace CompilerHost

/-! ## Echoes -/

/-- The block that a report is about, if it is one of the guest's log. -/
def Report.block? : Report → Option String
  | .event (.guestLog text) => some text
  | _ => none

/-- A report, and what a surface reports of it if it is a block. -/
def Report.echoed (surface : Option Surface) (r : Report) : Journal :=
  match r.block? with
  | some block => blockReports surface block
  | none => [r]

/-- What is written on the surface of a number when a surface is handed a block, which it may take
or not. -/
def takenOn (id : Nat) (surface : Option Surface) (block : String) : List String :=
  match surface with
  | some s =>
    if s.id = id ∧ s.fault (terminalText block) = none then [terminalText block] else []
  | none => []

/-- What is written on the surface of a number when a surface is handed blocks. -/
def writtenOn (id : Nat) : Option Surface → List String → List String
  | _, [] => []
  | surface, block :: rest =>
    takenOn id surface block ++ writtenOn id (Surface.behind surface block) rest

namespace Surface

/-- A surface that takes whatever is written to it. -/
def TakesAll (s : Surface) : Prop := ∀ texts, s.error? texts = none

theorem error?_after (s : Surface) (text : String) (texts : List String) :
    (s.after text).error? texts = s.error? (text :: texts) := by
  unfold error? after
  cases s.failure with
  | none => rfl
  | some f => rfl

theorem TakesAll.after {s : Surface} (h : s.TakesAll) (text : String) :
    (s.after text).TakesAll := by
  intro texts
  rw [error?_after]
  exact h (text :: texts)

theorem takesAll_behindAll {surface : Option Surface}
    (htakes : ∀ s, surface = some s → s.TakesAll) (blocks : List String) :
    ∀ s, behindAll surface blocks = some s → s.TakesAll := by
  induction blocks generalizing surface with
  | nil => exact htakes
  | cons block rest ih =>
      refine ih ?_
      intro s hs
      obtain ⟨before, hbefore, rfl⟩ := Option.map_eq_some_iff.1 hs
      exact (htakes before hbefore).after _

end Surface

namespace Journal

/-- The blocks of the guest's log in a journal. -/
def blocks (j : Journal) : List String := j.filterMap Report.block?

@[simp] theorem blocks_append (a b : Journal) : blocks (a ++ b) = blocks a ++ blocks b :=
  List.filterMap_append

theorem blocks_cons (r : Report) (j : Journal) : blocks (r :: j) = r.block?.toList ++ blocks j := by
  rw [blocks, blocks, List.filterMap_cons]
  cases r.block? with
  | none => rfl
  | some block => rfl

/-- The journal with the reports of a surface behind each block. -/
def echoed : Journal → Option Surface → Journal
  | [], _ => []
  | r :: j, surface => r.echoed surface ++ echoed j (Surface.behindAll surface r.block?.toList)

@[simp] theorem echoed_nil (surface : Option Surface) : echoed [] surface = [] := rfl

/-- The journal's first report comes first, with its echo. -/
theorem echoed_cons (r : Report) (j : Journal) (surface : Option Surface) :
    echoed (r :: j) surface =
      r.echoed surface ++ echoed j (Surface.behindAll surface r.block?.toList) := rfl

theorem echoed_append (a b : Journal) (surface : Option Surface) :
    (a ++ b).echoed surface =
      a.echoed surface ++ b.echoed (Surface.behindAll surface a.blocks) := by
  induction a generalizing surface with
  | nil => rfl
  | cons r a ih =>
      rw [List.cons_append, echoed_cons, echoed_cons, ih, blocks_cons, Surface.behindAll_append,
        List.append_assoc]

end Journal

theorem Report.block?_of_other {r : Report} (hother : r.isOfLog = false) : r.block? = none := by
  cases r with
  | shown surface text => rfl
  | event e =>
      cases e with
      | guestLog text => cases hother
      | _ => rfl

/-- A report that is not of the log has no echo. -/
theorem Report.echoed_of_other {r : Report} (surface : Option Surface)
    (hother : r.isOfLog = false) : r.echoed surface = [r] := by
  rw [echoed, block?_of_other hother]

theorem Report.eq_of_block? {r : Report} {block : String} (h : r.block? = some block) :
    r = .event (.guestLog block) := by
  cases r with
  | shown surface text => cases h
  | event e =>
      cases e with
      | guestLog text =>
          obtain rfl := Option.some.inj h
          rfl
      | _ => cases h

theorem Report.isOfLog_of_block? {r : Report} {block : String} (h : r.block? = some block) :
    r.isOfLog = true := by
  rw [eq_of_block? h]
  rfl

/-- Without a surface there are no echoes. -/
theorem Report.echoed_none (r : Report) : r.echoed none = [r] := by
  unfold echoed
  cases h : r.block? with
  | none => rfl
  | some block =>
      rw [eq_of_block? h]
      rfl

namespace Journal

theorem echoed_none (j : Journal) : j.echoed none = j := by
  induction j with
  | nil => rfl
  | cons r j ih =>
      rw [echoed_cons, Report.echoed_none, Surface.behindAll_none, ih]
      rfl

/-- Blocks are all that is delivered of a log. -/
theorem blocks_ofLog (j : Journal) : j.ofLog.blocks = j.blocks := by
  rw [blocks, blocks, ofLog, List.filterMap_filter]
  congr 1
  funext r
  cases h : r.block? with
  | none => split <;> rfl
  | some block => rw [Report.isOfLog_of_block? h, if_pos rfl]

theorem blocks_shownBlock (surface : Option Surface) (block : String) :
    blocks (shownBlock surface block) = [] := by
  cases surface with
  | none => rfl
  | some s => cases hfault : s.fault (terminalText block) <;> simp [shownBlock, Surface.show,
      hfault, blocks, Report.block?]

theorem blocks_blockReports (surface : Option Surface) (block : String) :
    blocks (blockReports surface block) = [block] := by
  show block :: blocks (shownBlock surface block) = [block]
  rw [blocks_shownBlock]

theorem blocks_blocksReports (surface : Option Surface) (texts : List String) :
    blocks (blocksReports surface texts) = texts := by
  induction texts generalizing surface with
  | nil => rfl
  | cons text rest ih =>
      rw [blocksReports, blocks_append, blocks_blockReports, ih]
      rfl

/-- A surface that takes what it is handed reports no event. -/
theorem events_blockReports {surface : Option Surface}
    (htakes : ∀ s, surface = some s → s.TakesAll) (block : String) :
    events (blockReports surface block) = [.guestLog block] := by
  cases surface with
  | none => rfl
  | some s =>
      have htaken : s.fault (terminalText block) = none := htakes s rfl _
      rw [blockReports, shownBlock, Surface.show, htaken]
      rfl

theorem echoed_blocksReports (surface : Option Surface) (texts : List String) :
    echoed (blocksReports none texts) surface = blocksReports surface texts := by
  induction texts generalizing surface with
  | nil => rfl
  | cons text rest ih =>
      have hblock : echoed (blockReports none text) surface = blockReports surface text :=
        List.append_nil _
      rw [blocksReports, blocksReports, echoed_append, hblock, blocks_blockReports]
      exact congrArg _ (ih _)

theorem events_echoed {surface : Option Surface}
    (htakes : ∀ s, surface = some s → s.TakesAll) (j : Journal) :
    events (j.echoed surface) = events j := by
  induction j generalizing surface with
  | nil => rfl
  | cons r j ih =>
      rw [echoed_cons, events_append, ih (Surface.takesAll_behindAll htakes _), ← events_append]
      unfold Report.echoed
      cases h : r.block? with
      | none => rfl
      | some block =>
          rw [Report.eq_of_block? h, events_append, events_blockReports htakes]
          rfl

@[simp] theorem shownOn_append (a b : Journal) (id : Nat) :
    shownOn (a ++ b) id = shownOn a id ++ shownOn b id := List.filterMap_append

theorem shownOn_blockReports (surface : Option Surface) (block : String) (id : Nat) :
    shownOn (blockReports surface block) id = writtenOn id surface [block] := by
  rw [writtenOn, writtenOn, List.append_nil]
  cases surface with
  | none => rfl
  | some s =>
      rw [takenOn]
      cases hfault : s.fault (terminalText block) with
      | some e => simp [blockReports, shownBlock, Surface.show, hfault, shownOn]
      | none =>
          by_cases hid : s.id = id
          · simp [blockReports, shownBlock, Surface.show, hfault, shownOn, hid]
          · simp [blockReports, shownBlock, Surface.show, hfault, shownOn, hid]

theorem writtenOn_cons (id : Nat) (surface : Option Surface) (block : String)
    (texts : List String) :
    writtenOn id surface (block :: texts) =
      writtenOn id surface [block] ++ writtenOn id (Surface.behind surface block) texts := by
  rw [writtenOn, writtenOn, writtenOn, List.append_nil]

/-- Where nothing else is shown, a surface that takes what it is handed has the blocks on it, each
as a terminal wants it. -/
theorem shownOn_echoed {j : Journal} (hquiet : j.onSurface = []) (surface : Option Surface)
    (id : Nat) : (j.echoed surface).shownOn id = writtenOn id surface j.blocks := by
  induction j generalizing surface with
  | nil => rfl
  | cons r j ih =>
      have hfirst : r.isFromSurface = false := by
        cases hr : r.isFromSurface with
        | false => rfl
        | true =>
            rw [onSurface, List.filter_cons_of_pos hr] at hquiet
            cases hquiet
      have hrest : onSurface j = [] := by
        rwa [onSurface, List.filter_cons_of_neg (by simp [hfirst])] at hquiet
      rw [echoed_cons, shownOn_append, ih hrest, blocks_cons]
      unfold Report.echoed
      cases h : r.block? with
      | some block =>
          show shownOn (blockReports surface block) id ++
            writtenOn id (Surface.behind surface block) (blocks j) = _
          rw [shownOn_blockReports, ← writtenOn_cons]
          rfl
      | none =>
          -- what is no block and not from a surface is not shown anywhere
          cases r with
          | event e => rfl
          | shown surface text => cases hfirst

end Journal

/-! ## Sessions -/

/-- The log with another surface, or with none. -/
def Log.showing (log : Log) (surface : Option Surface) : Log := { log with surface := surface }

namespace Session

variable {σ α β : Type}

/-- The session with another surface on its log, or with none. -/
def showing (s : Session σ) (surface : Option Surface) : Session σ :=
  { s with log := s.log.showing surface }

/-- What an action on a session comes to, with another surface on the log, to which the blocks are
written. -/
def echo (surface : Option Surface) (e : Ended (Session σ) GuestFault α) :
    Ended (Session σ) GuestFault α :=
  ⟨e.result, e.state.showing (Surface.behindAll surface e.journal.blocks),
    e.journal.echoed surface⟩

theorem echo_behind (surface : Option Surface) (e : Ended (Session σ) GuestFault α) (j : Journal) :
    echo surface (e.behind j) =
      (echo (Surface.behindAll surface j.blocks) e).behind (j.echoed surface) := by
  rw [echo, Ended.behind_journal, Journal.blocks_append, Surface.behindAll_append,
    Journal.echoed_append]
  rfl

/-- An action that does not notice the surface. With each of them it comes to what it comes to
without one, where nothing is shown. -/
structure Unaware (x : Action (Session σ) GuestFault α) : Prop where
  same : ∀ (s : Session σ) (surface : Option Surface),
    x (s.showing surface) = echo surface (x (s.showing none))
  quiet : ∀ s : Session σ, (x (s.showing none)).journal.onSurface = []

namespace Unaware

/-- Without a surface, an action that does not notice it leaves none. -/
theorem leaves_none {x : Action (Session σ) GuestFault α} (hx : Unaware x) (s : Session σ) :
    (x (s.showing none)).state.showing none = (x (s.showing none)).state := by
  have hstate := congrArg Ended.state (hx.same s none)
  rw [echo, Surface.behindAll_none] at hstate
  exact hstate.symm

theorem pure (a : α) : Unaware (Pure.pure a : Action (Session σ) GuestFault α) :=
  ⟨fun _ _ => rfl, fun _ => rfl⟩

theorem throw (e : GuestFault) : Unaware (MonadExcept.throw e : Action (Session σ) GuestFault α) :=
  ⟨fun _ _ => rfl, fun _ => rfl⟩

theorem ofExcept (r : Except GuestFault α) :
    Unaware (Action.ofExcept r : Action (Session σ) GuestFault α) := by
  cases r with
  | ok a => exact pure a
  | error e => exact throw e

theorem emit (e : Event) (hother : (Report.event e).isOfLog = false) :
    Unaware (Action.emit e : Action (Session σ) GuestFault Unit) where
  same := by
    intro s surface
    have hecho := Report.echoed_of_other surface hother
    have hblock := Report.block?_of_other hother
    have hstate : Surface.behindAll surface (Journal.blocks [.event e]) = surface := by
      rw [Journal.blocks_cons, hblock]
      rfl
    have hjournal : Journal.echoed [.event e] surface = [.event e] := by
      rw [Journal.echoed_cons, hecho]
      rfl
    show Ended.mk _ (s.showing surface) [.event e] =
      Ended.mk _ (s.showing (Surface.behindAll surface (Journal.blocks [.event e])))
        (Journal.echoed [.event e] surface)
    rw [hstate, hjournal]
    rfl
  quiet := by
    intro s
    have hsurface : (Report.event e).isFromSurface = false := (Bool.or_eq_false_iff.1 hother).2
    exact List.filter_cons_of_neg (by simp [hsurface])

theorem modify (m : Session σ → Session σ)
    (hm : ∀ (s : Session σ) (surface : Option Surface),
      m (s.showing surface) = (m (s.showing none)).showing surface) :
    Unaware (Action.modify m : Action (Session σ) GuestFault Unit) where
  same := by
    intro s surface
    show Ended.mk _ (m _) _ = Ended.mk _ _ _
    rw [hm]
    rfl
  quiet := fun _ => rfl

/-- The surface is the one thing that must not be looked at. -/
theorem get_bind {g : Session σ → Action (Session σ) GuestFault α}
    (hblind : ∀ (s : Session σ) (surface : Option Surface), g (s.showing surface) = g s)
    (hg : ∀ s, Unaware (g s)) :
    Unaware (Action.get >>= g) where
  same := by
    intro s surface
    rw [Action.get_bind_apply, Action.get_bind_apply, hblind, hblind]
    exact (hg s).same s surface
  quiet := by
    intro s
    rw [Action.get_bind_apply, hblind]
    exact (hg s).quiet s

theorem bind {x : Action (Session σ) GuestFault α} {f : α → Action (Session σ) GuestFault β}
    (hx : Unaware x) (hf : ∀ a, Unaware (f a)) : Unaware (x >>= f) where
  same := by
    intro s surface
    have hsame := hx.same s surface
    cases h : (x (s.showing none)).result with
    | error e =>
        have hshown : (x (s.showing surface)).result = .error e := by rw [hsame]; exact h
        rw [Action.bind_of_error f h, Action.bind_of_error f hshown, hsame]
        rfl
    | ok a =>
        have hshown : (x (s.showing surface)).result = .ok a := by rw [hsame]; exact h
        -- the second part begins without a surface too, where the first ended
        have hrest := (hf a).same (x (s.showing none)).state
          (Surface.behindAll surface (x (s.showing none)).journal.blocks)
        rw [hx.leaves_none] at hrest
        rw [Action.bind_of_ok f h, Action.bind_of_ok f hshown, hsame, echo_behind, ← hrest]
        rfl
  quiet := by
    intro s
    cases h : (x (s.showing none)).result with
    | error e =>
        rw [Action.bind_of_error f h]
        exact hx.quiet s
    | ok a =>
        have hrest := (hf a).quiet (x (s.showing none)).state
        rw [hx.leaves_none] at hrest
        rw [Action.bind_of_ok f h, Ended.behind_journal, Journal.onSurface, List.filter_append]
        exact List.append_eq_nil_iff.2 ⟨hx.quiet s, hrest⟩

theorem ite {c : Prop} [Decidable c] {x y : Action (Session σ) GuestFault α} (hx : Unaware x)
    (hy : Unaware y) : Unaware (if c then x else y) := by
  split
  · exact hx
  · exact hy

theorem map {x : Action (Session σ) GuestFault α} (f : α → β) (hx : Unaware x) :
    Unaware (f <$> x) := hx.bind fun a => .pure (f a)

end Unaware

/-! ## Answers -/

/-- A flush is handed to the surface, and that is the only thing that differs. -/
theorem unaware_flush : Unaware (onLog Log.flush : Action (Session σ) GuestFault String) where
  same := by
    intro s surface
    show Ended.mk _ _ (blockReports _ _) = Ended.mk _ _ (blockReports _ _ ++ [])
    rw [List.append_nil]
    rfl
  quiet := fun _ => rfl

theorem unaware_answer (call : HostCall) :
    Unaware (answer call : Action (Session σ) GuestFault Unit) := by
  cases call with
  | flush => exact .bind unaware_flush fun _ => .pure _
  | write start length =>
      refine .get_bind (fun _ _ => rfl) fun s => .ite ?_ (.throw _)
      cases s.live.memory.readTextLossy start length.toNat with
      | error access => exact .throw _
      | ok read =>
          have happend : Unaware (Action.modify fun s : Session σ =>
              { s with log := s.log.append read.1 }) := .modify _ fun _ _ => rfl
          exact .ite (.bind (.emit _ rfl) fun _ => happend) happend

theorem unaware_setLive (live : Instance σ) :
    Unaware (setLive live : Action (Session σ) GuestFault Unit) := .modify _ fun _ _ => rfl

/-- The induction is on the calls; each is answered for itself. -/
theorem unaware_answerAll (calls : List (HostCall × Instance σ)) :
    Unaware (answerAll calls : Action (Session σ) GuestFault Unit) := by
  induction calls with
  | nil => exact .pure ()
  | cons c calls ih =>
      exact .bind (unaware_setLive c.2) fun _ => .bind (unaware_answer c.1) fun _ => ih

theorem unaware_call (f : Function σ) (args : List UInt32) : Unaware (call f args) := by
  refine .get_bind (fun _ _ => rfl) fun s => ?_
  refine .ite (.bind (unaware_setLive _) fun _ => .throw _) ?_
  refine .bind (unaware_answerAll _) fun _ => .bind (unaware_setLive _) fun _ => ?_
  cases (f.run args s.live).ending with
  | ok result => exact .pure result
  | error trap => exact .throw _

/-! ## Compiles -/

theorem unaware_allocate (name : String) (size : UInt32) :
    Unaware (allocate name size : Action (Session σ) GuestFault Region) := by
  refine .get_bind (fun _ _ => rfl) fun s => .bind (.ofExcept _) fun allocator => ?_
  refine .ite (.bind (unaware_call allocator [size]) fun _ => ?_) (.throw _)
  exact .ite (.throw _) (.pure _)

theorem unaware_writeRegion (r : Region) (data : ByteArray) :
    Unaware (writeRegion r data : Action (Session σ) GuestFault Unit) := by
  refine .get_bind (fun _ _ => rfl) fun s => .bind (.ofExcept _) fun memory => ?_
  exact .modify _ fun _ _ => rfl

theorem unaware_place (allocator : String) (data : ByteArray) (length : Nat) :
    Unaware (place allocator data length : Action (Session σ) GuestFault Region) := by
  refine .ite (.bind (unaware_allocate allocator _) fun region => ?_) (.throw _)
  exact .bind (unaware_writeRegion region data) fun _ => .pure region

theorem unaware_encode (text : String) :
    Unaware (encode text : Action (Session σ) GuestFault EncodedText) :=
  .map _ (unaware_place _ _ _)

theorem unaware_loadFilesystem (image : ByteArray) :
    Unaware (loadFilesystem image : Action (Session σ) GuestFault Region) := by
  refine .bind (unaware_place _ _ _) fun region => .bind (.emit _ rfl) fun _ => ?_
  exact .bind (.modify _ fun _ _ => rfl) fun _ => .pure region

theorem unaware_prepareInputs (options : Options) (source : String) :
    Unaware (prepareInputs options source :
      Action (Session σ) GuestFault (EncodedText × EncodedText)) := by
  refine .bind (unaware_encode _) fun _ => .bind (unaware_encode _) fun _ => ?_
  exact .bind (.emit _ rfl) fun _ => .pure _

theorem unaware_entryPoint :
    Unaware (entryPoint : Action (Session σ) GuestFault (Function σ)) := by
  refine .get_bind (fun _ _ => rfl) fun s => ?_
  cases s.guest.function? compileExport with
  | some f => exact .pure f
  | none => exact .throw _

theorem unaware_entryForm : Unaware (entryForm : Action (Session σ) GuestFault EntryForm) :=
  .bind unaware_entryPoint fun _ => .ofExcept _

theorem unaware_enter (f : Function σ) (args : List Address) : Unaware (enter f args) :=
  .ite (.throw _) (.ite (.throw _) (unaware_call f _))

theorem unaware_compile (options : Options) (source : String) :
    Unaware (compile options source : Action (Session σ) GuestFault Address) := by
  refine .bind unaware_entryForm fun form => .bind (.emit _ rfl) fun _ => ?_
  refine .bind unaware_entryPoint fun f => ?_
  -- whatever the entry point takes, what it returns is reported in the same way
  have hreturn : ∀ result : UInt32, Unaware (do
      let s ← Action.get
      Action.emit (.compileReturned ⟨result⟩ s.fuelConsumed)
      pure ⟨result⟩ : Action (Session σ) GuestFault Address) := by
    intro result
    exact .get_bind (fun _ _ => rfl) fun _ => .bind (.emit _ rfl) fun _ => .pure _
  cases form with
  | optionsAndSource =>
      refine .bind (unaware_prepareInputs _ _) fun _ => ?_
      exact .bind (unaware_enter f _) hreturn
  | source =>
      have hrest := Unaware.bind (unaware_encode source) fun text =>
        .bind (unaware_enter f [text.start]) hreturn
      exact .ite hrest (.bind (.emit _ rfl) fun _ => hrest)
  | noInputs =>
      have hrest := Unaware.bind (unaware_enter f []) hreturn
      exact .ite hrest (.bind (.emit _ rfl) fun _ => hrest)

theorem unaware_outcomeAt (a : Address) :
    Unaware (outcomeAt a : Action (Session σ) GuestFault Outcome) :=
  .get_bind (fun _ _ => rfl) fun _ => .ofExcept _

end Session

/-! ## Instantiation -/

namespace Loaded

variable {σ : Type}

/-- What opening a session comes to, with another surface on the log. -/
def echo (surface : Option Surface) (e : Ended Unit GuestFault (Session σ)) :
    Ended Unit GuestFault (Session σ) :=
  ⟨e.result.map (Session.showing · (Surface.behindAll surface e.journal.blocks)), e.state,
    e.journal.echoed surface⟩

theorem echo_behind (surface : Option Surface) (e : Ended Unit GuestFault (Session σ))
    (j : Journal) :
    echo surface (e.behind j) =
      (echo (Surface.behindAll surface j.blocks) e).behind (j.echoed surface) := by
  rw [echo, Ended.behind_journal, Journal.blocks_append, Surface.behindAll_append,
    Journal.echoed_append]
  rfl

theorem start_showing (l : Loaded σ) (fresh : Session σ) (surface : Option Surface) :
    l.start (fresh.showing surface) () = echo surface (l.start (fresh.showing none) ()) := by
  -- a start function is something done with the new session, which is kept if it succeeds
  have hfinal : ∀ {α : Type} {x : Action (Session σ) GuestFault α}, Session.Unaware x →
      (Action.finalState x (fresh.showing surface) : Action Unit GuestFault (Session σ)) () =
        echo surface (Action.finalState x (fresh.showing none) ()) := by
    intro α x hx
    rw [Action.finalState_apply, Action.finalState_apply, hx.same]
    unfold echo Session.echo
    cases (x (fresh.showing none)).result with
    | ok a => rfl
    | error e => rfl
  unfold start
  cases l.guest.start with
  | none => rfl
  | some start =>
      cases start with
      | own f => exact hfinal (Session.unaware_call f [])
      | host call => exact hfinal (Session.unaware_answer call)

theorem settle_showing (l : Loaded σ) (s : Session σ) (surface : Option Surface) :
    l.settle (s.showing surface) () = echo surface (l.settle s ()) := by
  unfold settle
  by_cases hmemory : l.guest.exportsMemory = true
  · rw [if_pos hmemory, if_pos hmemory]
    cases l.guest.allocator? Guest.allocatorExport with
    | ok f => rfl
    | error e => rfl
  · rw [if_neg hmemory, if_neg hmemory]
    rfl

/-- A session is opened with every surface or with none of them. -/
theorem instantiate_showing (l : Loaded σ) (log : Log) (surface : Option Surface) :
    l.instantiate (log.showing surface) () =
      echo surface (l.instantiate (log.showing none) ()) := by
  rw [instantiate_eq, instantiate_eq]
  cases l.setUp with
  | error e => rfl
  | ok first =>
      -- nothing was logged so far; the start function is the first that may
      have hstart := l.start_showing (l.unstarted first.1 first.2 log) surface
      simp only [Action.ofExcept_ok, Action.pure_bind_apply]
      change (l.start ((l.unstarted first.1 first.2 log).showing surface) >>= l.settle) () =
        echo surface ((l.start ((l.unstarted first.1 first.2 log).showing none) >>= l.settle) ())
      cases h : (l.start ((l.unstarted first.1 first.2 log).showing none) ()).result with
      | error e =>
          have hshown : (l.start ((l.unstarted first.1 first.2 log).showing surface) ()).result =
              .error e := by
            rw [hstart, echo, h]
            rfl
          rw [Action.bind_of_error _ h, Action.bind_of_error _ hshown, hstart]
          rfl
      | ok s =>
          -- what the session lacks is not found with a surface either
          let behind := Surface.behindAll surface
            (l.start ((l.unstarted first.1 first.2 log).showing none) ()).journal.blocks
          have hshown : (l.start ((l.unstarted first.1 first.2 log).showing surface) ()).result =
              .ok (s.showing behind) := by
            rw [hstart, echo, h]
            rfl
          rw [Action.bind_of_ok _ h, Action.bind_of_ok _ hshown, hstart, echo_behind]
          exact congrArg (Ended.behind _) (l.settle_showing s behind)

end Loaded

theorem Pipeline.unaware_compileIn {σ : Type} (p : Pipeline σ) (request : Request) :
    Session.Unaware (p.compileIn request) := by
  have hrest : Session.Unaware (do
      let result ← Session.compile request.options request.source
      Session.outcomeAt result : Action (Session σ) GuestFault Outcome) :=
    .bind (Session.unaware_compile _ _) fun _ => Session.unaware_outcomeAt _
  unfold Pipeline.compileIn
  cases p.image with
  | none => exact hrest
  | some image => exact .bind (Session.unaware_loadFilesystem image) fun _ => hrest

end CompilerHost
