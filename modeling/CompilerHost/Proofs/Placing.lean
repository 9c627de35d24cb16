import CompilerHost.Proofs.Encoding

/-! # Placing inputs

The host puts an input into the guest by asking an allocator for room and writing into what it is
given. The allocator is the guest's: it may answer anything, and do to memory what it likes. One
placement takes one of seven courses (`Session.placing`), told apart by what the allocator is, by
the size of the input and by the answer.

* `Session.keeps_call`: what a function of the guest leaves alone, whatever it does;
* `Session.placing`: the courses are all that there are.
-/

namespace CompilerHost

namespace Session

variable {σ α β : Type}

/-! ## What a guest cannot change -/

/-- What a session has apart from its guest's own part and the log is the same in another. -/
structure SameHost (s s' : Session σ) : Prop where
  guest : s'.guest = s.guest
  filesystem : s'.filesystem = s.filesystem
  initialFuel : s'.initialFuel = s.initialFuel

theorem SameHost.refl (s : Session σ) : s.SameHost s := ⟨rfl, rfl, rfl⟩

theorem SameHost.trans {a b c : Session σ} (h : a.SameHost b) (h' : b.SameHost c) : a.SameHost c :=
  ⟨h'.guest.trans h.guest, h'.filesystem.trans h.filesystem, h'.initialFuel.trans h.initialFuel⟩

/-- Wherever it begins, an action leaves alone what belongs to the host. -/
def Keeps (x : Action (Session σ) GuestFault α) : Prop :=
  ∀ s : Session σ, s.SameHost (x s).state

namespace Keeps

theorem pure (a : α) : Keeps (Pure.pure a : Action (Session σ) GuestFault α) := SameHost.refl

theorem throw (e : GuestFault) : Keeps (MonadExcept.throw e : Action (Session σ) GuestFault α) :=
  SameHost.refl

theorem get : Keeps (Action.get : Action (Session σ) GuestFault (Session σ)) := SameHost.refl

theorem emit (e : Event) : Keeps (Action.emit e : Action (Session σ) GuestFault Unit) :=
  SameHost.refl

theorem setLive (live : Instance σ) :
    Keeps (Session.setLive live : Action (Session σ) GuestFault Unit) := fun _ => ⟨rfl, rfl, rfl⟩

theorem bind {x : Action (Session σ) GuestFault α} {f : α → Action (Session σ) GuestFault β}
    (hx : Keeps x) (hf : ∀ a, Keeps (f a)) : Keeps (x >>= f) := by
  intro s
  cases h : (x s).result with
  | ok a =>
      rw [Action.bind_of_ok f h]
      exact (hx s).trans (hf a _)
  | error e =>
      rw [Action.bind_of_error f h]
      exact hx s

theorem ite {c : Prop} [Decidable c] {x y : Action (Session σ) GuestFault α}
    (hx : Keeps x) (hy : Keeps y) : Keeps (if c then x else y) := by
  split
  · exact hx
  · exact hy

end Keeps

theorem keeps_answer (call : HostCall) :
    Keeps (answer call : Action (Session σ) GuestFault Unit) := by
  cases call with
  | flush => exact fun _ => ⟨rfl, rfl, rfl⟩
  | write start length =>
      refine .bind .get fun s => .ite ?_ (.throw _)
      cases s.live.memory.readTextLossy start length.toNat with
      | error access => exact .throw _
      | ok read =>
          have happend : Keeps (Action.modify fun s => { s with log := s.log.append read.1 } :
              Action (Session σ) GuestFault Unit) := fun _ => ⟨rfl, rfl, rfl⟩
          exact .ite (.bind (.emit _) fun _ => happend) happend

theorem keeps_answerAll (calls : List (HostCall × Instance σ)) : Keeps (answerAll calls) := by
  induction calls with
  | nil => exact .pure ()
  | cons c calls ih => exact .bind (.setLive c.2) fun _ => .bind (keeps_answer c.1) fun _ => ih

/-- A function of the guest may call the host as it likes, and leaves alone what is the host's. -/
theorem keeps_call (f : Function σ) (args : List UInt32) : Keeps (call f args) := by
  refine .bind .get fun s => .ite (.bind (.setLive _) fun _ => .throw _) ?_
  refine .bind (keeps_answerAll _) fun _ => .bind (.setLive _) fun _ => ?_
  cases (f.run args s.live).ending with
  | ok result => exact .pure result
  | error trap => exact .throw _

/-! ## The courses of a placement -/

/-- The session with another memory. -/
def withMemory (s : Session σ) (m : Memory) : Session σ :=
  { s with live := { s.live with memory := m } }

@[simp] theorem withMemory_memory (s : Session σ) (m : Memory) :
    (s.withMemory m).live.memory = m := rfl

/-- Asks an allocator for room for so many bytes. -/
def ask (f : Function σ) (size : Nat) : Action (Session σ) GuestFault UInt32 :=
  call f [UInt32.ofNat size]

/-- How a placement of bytes ends, and which turns the guest has in it. Of the sizes, `2 ^ 31` is
the first that an allocator cannot be asked for. -/
inductive Placing (s : Session σ) (allocator : String) (data : ByteArray) (length : Nat) :
    Except GuestFault Region → Session σ → List (Turn σ) → Prop
  /-- The size does not fit a word. -/
  | endless (hsize : 2 ^ 32 ≤ data.size) :
      Placing s allocator data length (.error (.inputTooLarge length)) s []
  /-- There is no such allocator. -/
  | unusable {cause : GuestFault} (hsize : data.size < 2 ^ 32)
      (hallocator : s.guest.allocator? allocator = .error cause) :
      Placing s allocator data length (.error cause) s []
  /-- The size is one that the allocator would take for a negative number. -/
  | tooLarge {f : Function σ} (hsize : data.size < 2 ^ 32)
      (hallocator : s.guest.allocator? allocator = .ok f) (hlarge : 2 ^ 31 ≤ data.size) :
      Placing s allocator data length (.error (.inputTooLarge data.size)) s []
  /-- The allocator fails. -/
  | failed {f : Function σ} {cause : GuestFault} (hsize : data.size < 2 ^ 31)
      (hallocator : s.guest.allocator? allocator = .ok f)
      (hasked : (ask f data.size s).result = .error cause) :
      Placing s allocator data length (.error cause) (ask f data.size s).state
        [.function f [UInt32.ofNat data.size] s.live]
  /-- The allocator has no room. -/
  | full {f : Function σ} (hsize : data.size < 2 ^ 31)
      (hallocator : s.guest.allocator? allocator = .ok f)
      (hasked : (ask f data.size s).result = .ok 0) :
      Placing s allocator data length (.error (.allocationFailed allocator data.size))
        (ask f data.size s).state [.function f [UInt32.ofNat data.size] s.live]
  /-- What the allocator gives is not all in memory. -/
  | outside {f : Function σ} {p : UInt32} (hsize : data.size < 2 ^ 31)
      (hallocator : s.guest.allocator? allocator = .ok f)
      (hasked : (ask f data.size s).result = .ok p) (hp : p ≠ 0)
      (hfits : ¬(ask f data.size s).state.live.memory.Fits ⟨p⟩ data.size) :
      Placing s allocator data length
        (.error (.outOfBounds ((ask f data.size s).state.live.memory.badAccess ⟨p⟩ data.size)))
        (ask f data.size s).state [.function f [UInt32.ofNat data.size] s.live]
  /-- The bytes are where the allocator says. -/
  | placed {f : Function σ} {p : UInt32} (hsize : data.size < 2 ^ 31)
      (hallocator : s.guest.allocator? allocator = .ok f)
      (hasked : (ask f data.size s).result = .ok p) (hp : p ≠ 0)
      (hfits : (ask f data.size s).state.live.memory.Fits ⟨p⟩ data.size) :
      Placing s allocator data length (.ok ⟨⟨p⟩, UInt32.ofNat data.size⟩)
        ((ask f data.size s).state.withMemory
          ((ask f data.size s).state.live.memory.overwrite p.toNat data.toList))
        [.function f [UInt32.ofNat data.size] s.live]

section Courses

variable {allocator : String} {data : ByteArray} (length : Nat) {s : Session σ}

theorem place_of_long (allocator : String) (hlong : ¬data.size < 1 <<< 32) :
    place allocator data length s = ⟨.error (.inputTooLarge length), s, []⟩ := by
  simp only [place, if_neg hlong, Action.throw_apply]

theorem place_of_unusable {cause : GuestFault} (hword : data.size < 1 <<< 32)
    (hallocator : s.guest.allocator? allocator = .error cause) :
    place allocator data length s = ⟨.error cause, s, []⟩ := by
  simp only [place, if_pos hword, allocate, bind_assoc, Action.get_bind_apply, hallocator,
    Action.ofExcept_error, Action.throw_bind_apply]

theorem place_of_large {f : Function σ} (hword : data.size < 1 <<< 32)
    (hallocator : s.guest.allocator? allocator = .ok f) (hlarge : ¬data.size < 1 <<< 31) :
    place allocator data length s = ⟨.error (.inputTooLarge data.size), s, []⟩ := by
  have hsize : (UInt32.ofNat data.size).toNat = data.size := UInt32.toNat_ofNat_of_lt' hword
  simp only [place, if_pos hword, allocate, bind_assoc, Action.get_bind_apply, hallocator,
    Action.ofExcept_ok, pure_bind, hsize, if_neg hlarge, Action.throw_bind_apply]

/-- Behind an allocator that is asked stand the look at its answer and the write. -/
theorem place_of_small {f : Function σ} (hallocator : s.guest.allocator? allocator = .ok f)
    (hsmall : data.size < 1 <<< 31) :
    place allocator data length s =
      (ask f data.size >>= fun p =>
        if p = 0 then throw (.allocationFailed allocator data.size)
        else do
          writeRegion ⟨⟨p⟩, UInt32.ofNat data.size⟩ data
          pure ⟨⟨p⟩, UInt32.ofNat data.size⟩) s := by
  have hword : data.size < 1 <<< 32 := Nat.lt_trans hsmall (by decide)
  have hsize : (UInt32.ofNat data.size).toNat = data.size := UInt32.toNat_ofNat_of_lt' hword
  simp only [place, if_pos hword, allocate, bind_assoc, Action.get_bind_apply, hallocator,
    Action.ofExcept_ok, pure_bind, hsize, if_pos hsmall, ask]
  -- up to the call both are the same; behind it they look at the same answer
  refine congrArg (fun g => (call f [UInt32.ofNat data.size] >>= g) s) ?_
  funext p
  by_cases hnull : p = 0
  · simp only [if_pos hnull]
    rfl
  · simp only [if_neg hnull, pure_bind]

end Courses

theorem writeRegion_of_fits {r : Region} {data : ByteArray} {s : Session σ}
    (hroom : data.size ≤ r.length.toNat) (hfits : s.live.memory.Fits r.start data.size) :
    writeRegion r data s =
      ⟨.ok (), s.withMemory (s.live.memory.overwrite r.start.offset.toNat data.toList), []⟩ := by
  simp only [writeRegion, Action.get_bind_apply, Memory.writeRegion, if_pos hroom,
    Memory.write_of_fits hfits]
  rfl

theorem writeRegion_of_not_fits {r : Region} {data : ByteArray} {s : Session σ}
    (hroom : data.size ≤ r.length.toNat) (hfits : ¬s.live.memory.Fits r.start data.size) :
    writeRegion r data s =
      ⟨.error (.outOfBounds (s.live.memory.badAccess r.start data.size)), s, []⟩ := by
  simp only [writeRegion, Action.get_bind_apply, Memory.writeRegion, if_pos hroom,
    Memory.write_of_not_fits hfits]
  rfl

end Session

namespace Watched

variable {σ α β : Type}

theorem turns_bind_alone (x : Watched σ α) (f : α → Action (Session σ) GuestFault β)
    (s : Session σ) : (x >>= fun a => alone (f a)).turns s = x.turns s := by
  cases h : (x.action s).result with
  | ok a =>
      rw [turns_bind_of_ok _ h]
      exact List.append_nil _
  | error e => rw [turns_bind_of_error _ h]

/-- An allocator has one turn if it is there and the size is one to ask for, and else none. -/
theorem turns_allocate (allocator : String) (size : UInt32) (s : Session σ) :
    (allocate allocator size).turns s =
      match s.guest.allocator? allocator with
      | .error _ => []
      | .ok f => if size.toNat < 1 <<< 31 then [.function f [size] s.live] else [] := by
  have hget : ((alone Action.get : Watched σ (Session σ)).action s).result = .ok s := rfl
  rw [allocate, turns_bind_of_ok _ hget]
  cases hallocator : s.guest.allocator? allocator with
  | error cause => rfl
  | ok f =>
      show ([] : List (Turn σ)) ++ ([] ++ _) = _
      rw [List.nil_append, List.nil_append]
      by_cases hsmall : size.toNat < 1 <<< 31
      · simp only [if_pos hsmall]
        exact turns_bind_alone _ _ s
      · simp only [if_neg hsmall]
        rfl

theorem turns_place (allocator : String) (data : ByteArray) (length : Nat) (s : Session σ) :
    (place allocator data length).turns s =
      match s.guest.allocator? allocator with
      | .error _ => []
      | .ok f =>
        if data.size < 1 <<< 31 then [.function f [UInt32.ofNat data.size] s.live] else [] := by
  by_cases hword : data.size < 1 <<< 32
  · have hsize : (UInt32.ofNat data.size).toNat = data.size := UInt32.toNat_ofNat_of_lt' hword
    rw [place, if_pos hword, turns_bind_alone, turns_allocate, hsize]
  · have hlarge : ¬data.size < 1 <<< 31 := fun h => hword (Nat.lt_trans h (by decide))
    rw [place, if_neg hword]
    cases s.guest.allocator? allocator with
    | error cause => rfl
    | ok f => exact (if_neg hlarge).symm

end Watched

namespace Session

variable {σ : Type}

/-- A placement takes one of seven courses. -/
theorem placing (s : Session σ) (allocator : String) (data : ByteArray) (length : Nat) :
    Placing s allocator data length (place allocator data length s).result
      (place allocator data length s).state
      ((Watched.place allocator data length).turns s) := by
  rw [Watched.turns_place]
  by_cases hword : data.size < 1 <<< 32
  · cases hallocator : s.guest.allocator? allocator with
    | error cause =>
        rw [place_of_unusable length hword hallocator]
        exact .unusable hword hallocator
    | ok f =>
        by_cases hsmall : data.size < 1 <<< 31
        · rw [place_of_small length hallocator hsmall]
          simp only [if_pos hsmall]
          cases hasked : (ask f data.size s).result with
          | error cause =>
              rw [Action.bind_of_error _ hasked]
              exact .failed hsmall hallocator hasked
          | ok p =>
              rw [Action.bind_of_ok _ hasked]
              by_cases hnull : p = 0
              · subst hnull
                exact .full hsmall hallocator hasked
              · have hroom : data.size ≤ (UInt32.ofNat data.size).toNat :=
                  Nat.le_of_eq (UInt32.toNat_ofNat_of_lt' hword).symm
                rw [if_neg hnull]
                by_cases hfits : (ask f data.size s).state.live.memory.Fits ⟨p⟩ data.size
                · have hwrite :=
                    writeRegion_of_fits (r := ⟨⟨p⟩, UInt32.ofNat data.size⟩) hroom hfits
                  rw [Action.bind_of_ok _ (congrArg Ended.result hwrite), hwrite]
                  exact .placed hsmall hallocator hasked hnull hfits
                · have hwrite :=
                    writeRegion_of_not_fits (r := ⟨⟨p⟩, UInt32.ofNat data.size⟩) hroom hfits
                  rw [Action.bind_of_error _ (congrArg Ended.result hwrite), hwrite]
                  exact .outside hsmall hallocator hasked hnull hfits
        · rw [place_of_large length hword hallocator hsmall]
          simp only [if_neg hsmall]
          exact .tooLarge hword hallocator (Nat.not_lt.1 hsmall)
  · have hlarge : ¬data.size < 1 <<< 31 := fun h => hword (Nat.lt_trans h (by decide))
    rw [place_of_long length allocator hword]
    cases s.guest.allocator? allocator with
    | error cause => exact .endless (Nat.not_lt.1 hword)
    | ok f =>
        simp only [if_neg hlarge]
        exact .endless (Nat.not_lt.1 hword)

end Session

end CompilerHost
