import CompilerHost.Proofs.Turn

/-! # Hearing

All that a log gets from an action on a session is what the guest says in it, and all that an
action delivers are the blocks of that (`Session.Hears`). The invariant holds of the answer to one
call (`Session.hears_answer`), by induction of the answers to a whole turn, faults included
(`Session.hears_answerAll`), and part by part of everything that the host does with a guest until a
result is decoded (`Watched.heard_compileIn`).
-/

namespace CompilerHost

namespace Session

variable {σ α β : Type}

/-- Carried out on a session, an action lets the log hear a speech, delivers the blocks that this
completes, and leaves the guest in its place. -/
structure Hears (x : Action (Session σ) GuestFault α) (s : Session σ)
    (speech : List Utterance) : Prop where
  guest : (x s).state.guest = s.guest
  log : (x s).state.log = s.log.heard speech
  reports : (x s).journal.ofLog =
    blocksReports s.log.surface (Speech.blocks s.log.pending speech)

theorem Hears.bind_of_ok {x : Action (Session σ) GuestFault α} {s : Session σ} {a : α}
    {f : α → Action (Session σ) GuestFault β} {speech next : List Utterance}
    (hx : Hears x s speech) (hok : (x s).result = .ok a) (hf : Hears (f a) (x s).state next) :
    Hears (x >>= f) s (speech ++ next) where
  guest := by
    rw [Action.bind_of_ok f hok]
    exact hf.guest.trans hx.guest
  log := by
    rw [Action.bind_of_ok f hok, Log.heard_append, ← hx.log]
    exact hf.log
  reports := by
    have hreports := hf.reports
    rw [hx.log] at hreports
    rw [Action.bind_of_ok f hok, Ended.behind_journal, Journal.ofLog_append, hx.reports, hreports,
      Speech.blocks_append, blocksReports_append]
    rfl

theorem Hears.bind_of_error {x : Action (Session σ) GuestFault α} {s : Session σ} {e : GuestFault}
    (f : α → Action (Session σ) GuestFault β) {speech : List Utterance}
    (hx : Hears x s speech) (herror : (x s).result = .error e) : Hears (x >>= f) s speech := by
  have hend := Action.bind_of_error f herror
  exact ⟨by rw [hend]; exact hx.guest, by rw [hend]; exact hx.log, by rw [hend]; exact hx.reports⟩

/-! ## Work without a word -/

/-- The guest has no say in an action, wherever it begins. -/
def Silent (x : Action (Session σ) GuestFault α) : Prop := ∀ s, Hears x s []

namespace Silent

theorem of_state {x : Action (Session σ) GuestFault α}
    (hguest : ∀ s, (x s).state.guest = s.guest) (hlog : ∀ s, (x s).state.log = s.log)
    (hreports : ∀ s, (x s).journal.ofLog = []) : Silent x := by
  intro s
  exact ⟨hguest s, by rw [hlog, Log.heard_nil], by rw [hreports]; rfl⟩

theorem pure (a : α) : Silent (Pure.pure a : Action (Session σ) GuestFault α) :=
  of_state (fun _ => rfl) (fun _ => rfl) (fun _ => rfl)

theorem throw (e : GuestFault) : Silent (MonadExcept.throw e : Action (Session σ) GuestFault α) :=
  of_state (fun _ => rfl) (fun _ => rfl) (fun _ => rfl)

theorem get : Silent (Action.get : Action (Session σ) GuestFault (Session σ)) :=
  of_state (fun _ => rfl) (fun _ => rfl) (fun _ => rfl)

theorem ofExcept (r : Except GuestFault α) :
    Silent (Action.ofExcept r : Action (Session σ) GuestFault α) := by
  cases r with
  | ok a => exact pure a
  | error e => exact throw e

theorem modify (m : Session σ → Session σ) (hguest : ∀ s, (m s).guest = s.guest)
    (hlog : ∀ s, (m s).log = s.log) :
    Silent (Action.modify m : Action (Session σ) GuestFault Unit) :=
  of_state hguest hlog (fun _ => rfl)

theorem emit (e : Event) (hother : (Report.event e).isOfLog = false) :
    Silent (Action.emit e : Action (Session σ) GuestFault Unit) := by
  refine of_state (fun _ => rfl) (fun _ => rfl) ?_
  intro s
  simp [Action.emit, Journal.ofLog, hother]

theorem bind {x : Action (Session σ) GuestFault α} {f : α → Action (Session σ) GuestFault β}
    (hx : Silent x) (hf : ∀ a, Silent (f a)) : Silent (x >>= f) := by
  intro s
  cases h : (x s).result with
  | ok a => exact (hx s).bind_of_ok h (hf a _)
  | error e => exact (hx s).bind_of_error f h

theorem ite {c : Prop} [Decidable c] {x y : Action (Session σ) GuestFault α}
    (hx : Silent x) (hy : Silent y) : Silent (if c then x else y) := by
  split
  · exact hx
  · exact hy

end Silent

theorem silent_writeRegion (r : Region) (data : ByteArray) :
    Silent (writeRegion r data : Action (Session σ) GuestFault Unit) := by
  refine .bind .get fun s => ?_
  refine .bind (.ofExcept _) fun memory => ?_
  exact .modify _ (fun _ => rfl) (fun _ => rfl)

theorem silent_outcomeAt (a : Address) :
    Silent (outcomeAt a : Action (Session σ) GuestFault Outcome) :=
  .bind .get fun _ => .ofExcept _

theorem silent_entryPoint : Silent (entryPoint : Action (Session σ) GuestFault (Function σ)) := by
  refine .bind .get fun s => ?_
  cases s.guest.function? compileExport with
  | some f => exact .pure f
  | none => exact .throw _

theorem silent_entryForm : Silent (entryForm : Action (Session σ) GuestFault EntryForm) :=
  .bind silent_entryPoint fun _ => .ofExcept _

/-! ## Answers -/

/-- Flushing delivers the block at hand. -/
theorem hears_flush (s : Session σ) : Hears (answer .flush) s [.blockEnd] where
  guest := rfl
  log := (Log.heard_blockEnd s.log).symm
  reports := by
    show Journal.ofLog (s.log.delivery ++ []) = _
    rw [List.append_nil, Log.delivery_eq, ofLog_blockReports]
    simp [Speech.blocks]

/-- A text that can be read is added to the block at hand, repaired or not. -/
theorem hears_write {start : Address} {length : UInt32} {s : Session σ} {text : String}
    {repaired : Bool} (hmemory : s.guest.exportsMemory)
    (hread : s.live.memory.readTextLossy start length.toNat = .ok (text, repaired)) :
    Hears (answer (.write start length)) s [.words text] ∧
      (answer (.write start length) s).result = .ok () := by
  have hend : answer (.write start length) s =
      ⟨.ok (), { s with log := s.log.append text },
        if repaired then [.event (.logTextRepaired start length.toNat)] else []⟩ := by
    cases repaired <;> simp [answer, hmemory, hread, Ended.behind, Action.modify]
  rw [hend]
  refine ⟨⟨by rw [hend], by rw [hend, Log.heard_words], ?_⟩, rfl⟩
  rw [hend]
  cases repaired with
  | false => rfl
  | true => rfl

/-- A call that adds to the speech adds the same to the log. -/
theorem hears_answer {call : HostCall} {s : Session σ} {u : Utterance}
    (h : call.utterance? s.guest s.live = some u) :
    Hears (answer call) s [u] ∧ (answer call s).result = .ok () := by
  cases call with
  | flush =>
      obtain rfl : Utterance.blockEnd = u := by simpa [HostCall.utterance?] using h
      exact ⟨hears_flush s, rfl⟩
  | write start length =>
      simp only [HostCall.utterance?] at h
      by_cases hmemory : s.guest.exportsMemory = true
      · cases hread : s.live.memory.readTextLossy start length.toNat with
        | ok read =>
            obtain rfl : Utterance.words read.1 = u := by simpa [hmemory, hread] using h
            exact hears_write hmemory hread
        | error access => simp [hmemory, hread] at h
      · simp [hmemory] at h

/-- A call that adds nothing to the speech fails, and that is all. -/
theorem answer_of_none {call : HostCall} {s : Session σ}
    (h : call.utterance? s.guest s.live = none) :
    ∃ e, answer call s = ⟨.error e, s, []⟩ := by
  cases call with
  | flush => simp [HostCall.utterance?] at h
  | write start length =>
      simp only [HostCall.utterance?] at h
      by_cases hmemory : s.guest.exportsMemory = true
      · cases hread : s.live.memory.readTextLossy start length.toNat with
        | ok read => simp [hmemory, hread] at h
        | error access => exact ⟨.execution (.logRead access), by simp [answer, hmemory, hread]⟩
      · exact ⟨_, by simp [answer, hmemory]; rfl⟩

theorem silent_setLive (live : Instance σ) :
    Silent (setLive live : Action (Session σ) GuestFault Unit) :=
  .modify _ (fun _ => rfl) (fun _ => rfl)

/-- The log hears the calls of a turn up to the first that fails. The induction is on the calls;
each is answered with the instance that it comes with. -/
theorem hears_answerAll (calls : List (HostCall × Instance σ)) (s : Session σ) :
    Hears (answerAll calls) s (s.guest.spoken calls) := by
  induction calls generalizing s with
  | nil => exact Silent.pure () s
  | cons c calls ih =>
      obtain ⟨call, live⟩ := c
      have hset : (setLive live : Action (Session σ) GuestFault Unit) s =
          ⟨.ok (), { s with live := live }, []⟩ := rfl
      -- the call sees the guest as it was when it was made
      suffices hanswer : Hears (answer call >>= fun _ => answerAll calls) { s with live := live }
          (s.guest.spoken ((call, live) :: calls)) from
        (silent_setLive live s).bind_of_ok (congrArg Ended.result hset) hanswer
      cases hu : call.utterance? s.guest live with
      | some u =>
          obtain ⟨hears, hok⟩ := hears_answer (s := { s with live := live }) hu
          have hrest := ih (answer call { s with live := live }).state
          rw [hears.guest] at hrest
          simpa [Guest.spoken, hu] using hears.bind_of_ok hok hrest
      | none =>
          obtain ⟨e, hend⟩ := answer_of_none (s := { s with live := live }) hu
          have hears : Hears (answer call) { s with live := live } [] :=
            ⟨by rw [hend], by rw [hend, Log.heard_nil], by rw [hend]; rfl⟩
          simpa [Guest.spoken, hu] using hears.bind_of_error _ (congrArg Ended.result hend)

/-- Calls that do not fail are all answered, and heard. -/
theorem answerAll_of_says {calls : List (HostCall × Instance σ)} {speech : List Utterance}
    {s : Session σ} (h : s.guest.Says calls speech) :
    (answerAll calls s).result = .ok () ∧ s.guest.spoken calls = speech := by
  induction calls generalizing s speech with
  | nil =>
      obtain rfl := List.map_eq_nil_iff.1 h.symm
      exact ⟨rfl, rfl⟩
  | cons c calls ih =>
      obtain ⟨call, live⟩ := c
      obtain ⟨u, rest, rfl, hu, hrest⟩ := h.cons
      obtain ⟨hears, hok⟩ := hears_answer (s := { s with live := live }) hu
      have hsays : (answer call { s with live := live }).state.guest.Says calls rest := by
        rw [hears.guest]
        exact hrest
      obtain ⟨hanswers, _⟩ := ih hsays
      obtain ⟨_, hspoken⟩ := ih hrest
      refine ⟨?_, by simp only [Guest.spoken, hu, hspoken]⟩
      have hset : (setLive live : Action (Session σ) GuestFault Unit) s =
          ⟨.ok (), { s with live := live }, []⟩ := rfl
      rw [answerAll, Action.bind_of_ok _ (congrArg Ended.result hset), hset,
        Ended.behind_result, Action.bind_of_ok _ hok]
      exact hanswers

/-- A guest may have a host function run in its place. What that says is heard, or it fails. -/
theorem hears_turn_of_host (call : HostCall) (s : Session σ) :
    Hears (answer call) s (s.guest.spoken (Turn.host call s.live).calls) := by
  cases hu : call.utterance? s.guest s.live with
  | some u => simpa [Turn.calls, Guest.spoken, hu] using (hears_answer hu).1
  | none =>
      obtain ⟨e, hend⟩ := answer_of_none hu
      simp only [Turn.calls, Guest.spoken, hu]
      exact ⟨by rw [hend], by rw [hend, Log.heard_nil], by rw [hend]; rfl⟩

/-- What is left of a call once the guest's own calls were answered. -/
def finish (e : Execution σ) : Action (Session σ) GuestFault UInt32 := do
  setLive e.final
  match e.ending with
  | .ok result => pure result
  | .error trap => throw (.execution (.trap trap))

theorem silent_finish (e : Execution σ) : Silent (finish e) := by
  refine .bind (silent_setLive e.final) fun _ => ?_
  cases e.ending with
  | ok result => exact .pure result
  | error trap => exact .throw _

/-- A guest function that has no fuel does not begin. -/
theorem call_of_no_fuel (f : Function σ) (args : List UInt32) {s : Session σ}
    (hfuel : s.live.fuel ≤ entryFuel) :
    call f args s = ⟨.error (.execution (.trap .outOfFuel)),
      { s with live := { s.live with fuel := 0 } }, []⟩ := by
  simp [call, hfuel, setLive]

/-- A guest function that has fuel runs, and all its calls are answered before it ends. -/
theorem call_of_fuel (f : Function σ) (args : List UInt32) {s : Session σ}
    (hfuel : ¬s.live.fuel ≤ entryFuel) :
    call f args s =
      (answerAll (f.run args s.live).calls >>= fun _ => finish (f.run args s.live)) s := by
  simp only [call, Action.get_bind_apply, if_neg hfuel]
  rfl

/-- What a function of the guest says is what the log hears of it. -/
theorem hears_call (f : Function σ) (args : List UInt32) (s : Session σ) :
    Hears (call f args) s (s.guest.spoken (Turn.function f args s.live).calls) := by
  by_cases hfuel : s.live.fuel ≤ entryFuel
  · have hcall := call_of_no_fuel f args hfuel
    simp only [Turn.calls, if_pos hfuel, Guest.spoken]
    exact ⟨by rw [hcall], by rw [hcall, Log.heard_nil], by rw [hcall]; rfl⟩
  · have hcall := call_of_fuel f args hfuel
    simp only [Turn.calls, if_neg hfuel]
    have hanswers := hears_answerAll (f.run args s.live).calls s
    have hears : Hears (answerAll (f.run args s.live).calls >>= fun _ => finish (f.run args s.live))
        s (s.guest.spoken (f.run args s.live).calls) := by
      cases hresult : (answerAll (f.run args s.live).calls s).result with
      | ok _ =>
          have hrest := silent_finish (f.run args s.live)
          simpa using hanswers.bind_of_ok (f := fun _ => finish _) hresult (hrest _)
      | error e => exact hanswers.bind_of_error _ hresult
    exact ⟨hcall ▸ hears.guest, hcall ▸ hears.log, hcall ▸ hears.reports⟩

/-- A function whose calls do not fail leaves what it comes to behind, and what it says is heard. -/
theorem call_of_says {f : Function σ} {args : List UInt32} {s : Session σ}
    {speech : List Utterance} (hfuel : ¬s.live.fuel ≤ entryFuel)
    (h : s.guest.Says (f.run args s.live).calls speech) :
    (call f args s).result =
        (f.run args s.live).ending.mapError (fun t => .execution (.trap t)) ∧
      (call f args s).state.live = (f.run args s.live).final ∧
      (call f args s).state.log = s.log.heard speech := by
  obtain ⟨hanswers, hspoken⟩ := answerAll_of_says h
  have hlog := (hears_answerAll (f.run args s.live).calls s).log
  rw [hspoken] at hlog
  rw [call_of_fuel f args hfuel, Action.bind_of_ok _ hanswers, ← hlog]
  unfold finish
  cases (f.run args s.live).ending with
  | ok result => exact ⟨rfl, rfl, rfl⟩
  | error trap => exact ⟨rfl, rfl, rfl⟩

end Session

namespace Watched

open Session (Silent)

variable {σ α β : Type}

/-- All that the log gets from a watched action is what the guest says in its turns. -/
def Heard (x : Watched σ α) : Prop :=
  ∀ s, Session.Hears x.action s (s.guest.speech (x.turns s))

theorem Heard.alone {x : Action (Session σ) GuestFault α} (hx : Silent x) : (alone x).Heard := hx

theorem Heard.pure (a : α) : (Pure.pure a : Watched σ α).Heard := Silent.pure a

theorem Heard.call (f : Function σ) (args : List UInt32) : (call f args).Heard := by
  intro s
  simpa [Watched.call] using Session.hears_call f args s

theorem Heard.bind {x : Watched σ α} {f : α → Watched σ β} (hx : x.Heard)
    (hf : ∀ a, (f a).Heard) : (x >>= f).Heard := by
  intro s
  cases h : (x.action s).result with
  | ok a =>
      have hrest := hf a (x.action s).state
      rw [(hx s).guest] at hrest
      rw [turns_bind_of_ok f h, Guest.speech_append]
      exact (hx s).bind_of_ok h hrest
  | error e =>
      rw [turns_bind_of_error f h]
      exact (hx s).bind_of_error _ h

theorem Heard.ite {c : Prop} [Decidable c] {x y : Watched σ α} (hx : x.Heard) (hy : y.Heard) :
    (if c then x else y).Heard := by
  split
  · exact hx
  · exact hy

/-! ## The compile, heard -/

theorem heard_allocate (name : String) (size : UInt32) :
    (allocate name size : Watched σ Region).Heard := by
  refine .bind (.alone .get) fun s => ?_
  refine .bind (.alone (.ofExcept _)) fun allocator => ?_
  refine .ite ?_ (.alone (.throw _))
  refine .bind (.call allocator [size]) fun result => ?_
  exact .alone (.ite (.throw _) (.pure _))

theorem heard_place (allocator : String) (data : ByteArray) (length : Nat) :
    (place allocator data length : Watched σ Region).Heard := by
  refine .ite ?_ (.alone (.throw _))
  refine .bind (heard_allocate allocator _) fun region => ?_
  exact .alone (.bind (Session.silent_writeRegion region data) fun _ => .pure region)

theorem heard_encode (text : String) : (encode text : Watched σ EncodedText).Heard :=
  .bind (heard_place _ _ _) fun _ => .pure _

theorem heard_loadFilesystem (image : ByteArray) :
    (loadFilesystem image : Watched σ Region).Heard := by
  refine .bind (heard_place _ _ _) fun region => .alone ?_
  refine .bind (.emit _ rfl) fun _ => ?_
  exact .bind (.modify _ (fun _ => rfl) (fun _ => rfl)) fun _ => .pure region

theorem heard_prepareInputs (options : Options) (source : String) :
    (prepareInputs options source : Watched σ (EncodedText × EncodedText)).Heard := by
  refine .bind (heard_encode _) fun optionsText => ?_
  refine .bind (heard_encode _) fun sourceText => ?_
  exact .alone (.bind (.emit _ rfl) fun _ => .pure _)

theorem heard_enter (f : Function σ) (args : List Address) : (enter f args).Heard := by
  refine .ite (.alone (.throw _)) ?_
  exact .ite (.alone (.throw _)) (.call f _)

theorem heard_enterWith (form : EntryForm) (f : Function σ) (options : Options)
    (source : String) : (enterWith form f options source).Heard := by
  cases form with
  | noInputs =>
      refine .bind (.alone (.ite (.pure _) (.emit _ rfl))) fun _ => ?_
      exact heard_enter f []
  | source =>
      refine .bind (.alone (.ite (.pure _) (.emit _ rfl))) fun _ => ?_
      exact .bind (heard_encode source) fun _ => heard_enter f _
  | optionsAndSource =>
      exact .bind (heard_prepareInputs options source) fun _ => heard_enter f _

theorem heard_compile (options : Options) (source : String) :
    (compile options source : Watched σ Address).Heard := by
  refine .bind (.alone Session.silent_entryForm) fun form => ?_
  refine .bind (.alone (.emit _ rfl)) fun _ => ?_
  refine .bind (.alone Session.silent_entryPoint) fun f => ?_
  refine .bind (heard_enterWith form f options source) fun result => ?_
  exact .alone (.bind .get fun _ => .bind (.emit _ rfl) fun _ => .pure _)

/-- Whatever the guest does, the log hears just what it says from the first allocation to the
decoded result, and whatever ends the compile early. -/
theorem heard_compileIn (p : Pipeline σ) (request : Request) : (compileIn p request).Heard := by
  refine .bind ?_ fun result => .alone (Session.silent_outcomeAt result)
  unfold compileFor
  cases p.image with
  | none => exact heard_compile _ _
  | some image => exact .bind (heard_loadFilesystem image) fun _ => heard_compile _ _

end Watched

end CompilerHost
