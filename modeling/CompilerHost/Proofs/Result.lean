import CompilerHost.Proofs.Run

/-! # Where a result comes from

The artifact of a run is what its guest left in memory when the entry point returned, and nothing
else: the last of the guest's turns is that of its entry point, and the result is read from the
memory at the end of it.

* `Memory.holdsOutput_of_outcomeAt`: an artifact is, byte for byte, the output that memory holds;
* `Pipeline.last_of_decoded`: a decoded result is the outcome in the memory that the entry point
  left in its turn.
-/

namespace CompilerHost

/-! ## Output in memory -/

theorem Address.offset_add? {a start : Address} {delta : UInt32}
    (h : a.add? delta = some start) : start.offset.toNat = a.offset.toNat + delta.toNat := by
  unfold Address.add? at h
  split at h
  · rename_i hlt
    obtain rfl := Option.some.inj h
    exact (UInt32.toNat_add _ _).trans (Nat.mod_eq_of_lt hlt)
  · cases h

namespace Memory

/-- A memory holds an output at an address: a positive length in the first four bytes, and behind
them so many bytes, none of them beyond the end. -/
structure HoldsOutput (m : Memory) (a : Address) (bytes : ByteArray) : Prop where
  length : signed (m.wordAt a.offset.toNat) = bytes.size
  positive : 0 < bytes.size
  fits : a.offset.toNat + 4 + bytes.size ≤ m.size
  content : bytes.data.toList =
    (List.range bytes.size).map fun i => m.byte (a.offset.toNat + 4 + i)

theorem toList_collect (m : Memory) (start n : Nat) (acc : ByteArray) :
    (m.collect start n acc).data.toList =
      acc.data.toList ++ (List.range n).map fun i => m.byte (start + i) := by
  induction n generalizing start acc with
  | zero => simp [collect]
  | succ n ih =>
      have hrest : (fun i => m.byte (start + 1 + i)) = fun i => m.byte (start + (i + 1)) := by
        funext i
        rw [Nat.add_assoc, Nat.add_comm 1 i]
      rw [collect, ih, hrest, ByteArray.data_push, Array.toList_push, List.append_assoc,
        List.range_succ_eq_map, List.map_cons, List.map_map]
      rfl

theorem size_slice (m : Memory) (start length : Nat) : (m.slice start length).size = length := by
  have hlength := congrArg List.length (m.toList_collect start length .empty)
  rw [List.length_append, List.length_map, List.length_range] at hlength
  exact hlength.trans (Nat.zero_add length)

theorem toList_slice (m : Memory) (start length : Nat) :
    (m.slice start length).data.toList = (List.range length).map fun i => m.byte (start + i) :=
  m.toList_collect start length .empty

/-- A word that counts something counts as many as it says without a sign. -/
theorem signed_of_pos {w : UInt32} (h : 0 < signed w) : signed w = w.toNat := by
  have hlt := w.toNat_lt
  unfold signed at h ⊢
  split
  · rfl
  · rename_i hhigh
    rw [if_neg hhigh] at h
    omega

theorem wordAt_of_readWord {m : Memory} {a : Address} {w : UInt32} (h : m.readWord a = .ok w) :
    w = m.wordAt a.offset.toNat := by
  unfold readWord at h
  split at h
  · exact (Except.ok.inj h).symm
  · cases h

/-- An output has a positive length before it, and is read from right behind that. -/
theorem read_of_outcomeAt {m : Memory} {a : Address} {bytes : ByteArray}
    (h : m.outcomeAt a = .ok (.payload bytes)) :
    ∃ w start, m.readWord a = .ok w ∧ 0 < signed w ∧ a.add? lengthBytes = some start ∧
      m.read start w.toNat = .ok bytes := by
  cases hread : m.readWord a with
  | error access =>
      rw [outcomeAt, hread] at h
      cases h
  | ok w =>
      rw [outcomeAt, hread] at h
      change (if signed w ≤ 0 then _ else _) = _ at h
      split at h
      · cases h
      · rename_i hsome
        cases hstart : a.add? lengthBytes with
        | none =>
            rw [hstart] at h
            cases h
        | some start =>
            rw [hstart] at h
            change Outcome.payload <$> m.read start w.toNat = _ at h
            refine ⟨w, start, rfl, Int.not_le.1 hsome, rfl, ?_⟩
            cases hregion : m.read start w.toNat with
            | error access =>
                rw [hregion] at h
                cases h
            | ok read =>
                rw [hregion] at h
                rw [Outcome.payload.inj (Except.ok.inj h)]

/-- An artifact is what memory holds, byte for byte. -/
theorem holdsOutput_of_outcomeAt {m : Memory} {a : Address} {bytes : ByteArray}
    (h : m.outcomeAt a = .ok (.payload bytes)) : m.HoldsOutput a bytes := by
  obtain ⟨w, start, hword, hpositive, hstart, hread⟩ := read_of_outcomeAt h
  have hoffset : start.offset.toNat = a.offset.toNat + 4 := Address.offset_add? hstart
  have hlength : signed w = w.toNat := signed_of_pos hpositive
  unfold read at hread
  split at hread
  · rename_i hfits
    obtain rfl := Except.ok.inj hread
    unfold Fits at hfits
    rw [hoffset] at hfits
    refine ⟨?_, ?_, ?_, ?_⟩
    · rw [size_slice, ← wordAt_of_readWord hword, hlength]
    · rw [size_slice]
      omega
    · rw [size_slice]
      exact hfits
    · rw [size_slice, toList_slice, hoffset]
  · cases hread

end Memory

/-! ## The last turn -/

/-- The last of some turns is one of a function, which has fuel and comes to a result. -/
inductive Turn.Last {σ : Type} :
    List (Turn σ) → Function σ → UInt32 → Instance σ → Prop where
  | intro (front : List (Turn σ)) (f : Function σ) (args : List UInt32) (live : Instance σ)
      (result : UInt32) (hfuel : Session.entryFuel < live.fuel)
      (hresult : (f.run args live).ending = .ok result) :
      Last (front ++ [.function f args live]) f result (f.run args live).final

theorem Turn.Last.behind {σ : Type} {turns : List (Turn σ)} {f : Function σ} {result : UInt32}
    {final : Instance σ} (h : Turn.Last turns f result final) (before : List (Turn σ)) :
    Turn.Last (before ++ turns) f result final := by
  cases h with
  | intro front f args live result hfuel hresult =>
      rw [← List.append_assoc]
      exact .intro _ f args live result hfuel hresult

namespace Session

variable {σ : Type}

/-- A call that succeeds leaves the guest where the function has left it. -/
theorem ending_of_call {f : Function σ} {args : List UInt32} {s : Session σ} {result : UInt32}
    (h : (call f args s).result = .ok result) :
    entryFuel < s.live.fuel ∧ (f.run args s.live).ending = .ok result ∧
      (call f args s).state.live = (f.run args s.live).final := by
  by_cases hfuel : s.live.fuel ≤ entryFuel
  · rw [call_of_no_fuel f args hfuel] at h
    cases h
  · rw [call_of_fuel f args hfuel] at h ⊢
    obtain ⟨_, hanswers, hfinish⟩ := Action.ok_of_bind_ok h
    rw [Action.bind_of_ok _ hanswers, Ended.behind_state]
    cases hending : (f.run args s.live).ending with
    | error trap =>
        rw [finish, hending] at hfinish
        cases hfinish
    | ok returned =>
        rw [finish, hending] at hfinish ⊢
        obtain rfl := Except.ok.inj hfinish
        exact ⟨UInt64.not_le.1 hfuel, rfl, rfl⟩

/-- An outcome that was read is the outcome in memory. -/
theorem outcome_of_outcomeAt {a : Address} {s : Session σ} {outcome : Outcome}
    (h : (outcomeAt a s).result = .ok outcome) : s.live.memory.outcomeAt a = .ok outcome := by
  rw [outcomeAt, Action.get_bind_apply] at h
  cases houtcome : s.live.memory.outcomeAt a with
  | error access =>
      rw [houtcome] at h
      cases h
  | ok read =>
      rw [houtcome] at h
      rw [Except.ok.inj h]

end Session

namespace Watched

variable {σ α β : Type}

/-- If a watched action succeeds, its last turn is one of a function, it comes to the result of
that, and it leaves the guest where that has left it. -/
def EndsIn (x : Watched σ UInt32) (f : Function σ) : Prop :=
  ∀ s result, (x.action s).result = .ok result →
    Turn.Last (x.turns s) f result (x.action s).state.live

theorem EndsIn.throw (e : GuestFault) (f : Function σ) :
    EndsIn (alone (throw e)) f := by
  intro s result h
  cases h

theorem EndsIn.call (f : Function σ) (args : List UInt32) : EndsIn (call f args) f := by
  intro s result h
  obtain ⟨hfuel, hending, hlive⟩ := Session.ending_of_call h
  rw [action_call, hlive]
  exact .intro [] f args s.live result hfuel hending

theorem EndsIn.bind {x : Watched σ α} {g : α → Watched σ UInt32} {f : Function σ}
    (hg : ∀ a, EndsIn (g a) f) : EndsIn (x >>= g) f := by
  intro s result h
  obtain ⟨a, hx, hresult⟩ := Action.ok_of_bind_ok h
  rw [turns_bind_of_ok g hx, action_bind, Action.bind_of_ok _ hx]
  exact (hg a _ result hresult).behind (x.turns s)

theorem EndsIn.ite {c : Prop} [Decidable c] {x y : Watched σ UInt32} {f : Function σ}
    (hx : EndsIn x f) (hy : EndsIn y f) : EndsIn (if c then x else y) f := by
  split
  · exact hx
  · exact hy

theorem endsIn_enter (f : Function σ) (args : List Address) : EndsIn (enter f args) f :=
  .ite (.throw _ f) (.ite (.throw _ f) (.call f _))

theorem endsIn_enterWith (form : EntryForm) (f : Function σ) (options : Options)
    (source : String) : EndsIn (enterWith form f options source) f := by
  cases form with
  | noInputs => exact .bind fun _ => endsIn_enter f _
  | source => exact .bind fun _ => .bind fun _ => endsIn_enter f _
  | optionsAndSource => exact .bind fun _ => endsIn_enter f _

/-- The function of an entry point that was found is the guest's. -/
theorem function?_of_entryPoint {s : Session σ} {f : Function σ}
    (h : (Session.entryPoint s).result = .ok f) : s.guest.function? compileExport = some f := by
  rw [Session.entryPoint, Action.get_bind_apply] at h
  cases hf : s.guest.function? compileExport with
  | none =>
      rw [hf] at h
      cases h
  | some g =>
      rw [hf] at h
      rw [Except.ok.inj h]

/-- If a watched action succeeds, the guest's entry point had its last turn, and its address is
where that says. -/
def EndsInEntry (x : Watched σ Address) : Prop :=
  ∀ s a, (x.action s).result = .ok a →
    ∃ f, s.guest.function? compileExport = some f ∧
      Turn.Last (x.turns s) f a.offset (x.action s).state.live

theorem EndsInEntry.bind {x : Watched σ α} {g : α → Watched σ Address} (hx : x.Heard)
    (hg : ∀ a, EndsInEntry (g a)) : EndsInEntry (x >>= g) := by
  intro s a h
  obtain ⟨b, hb, hrest⟩ := Action.ok_of_bind_ok h
  obtain ⟨f, hf, hlast⟩ := hg b _ a hrest
  rw [(hx s).guest] at hf
  refine ⟨f, hf, ?_⟩
  rw [turns_bind_of_ok g hb, action_bind, Action.bind_of_ok _ hb]
  exact hlast.behind (x.turns s)

theorem endsInEntry_compile (options : Options) (source : String) :
    EndsInEntry (compile options source : Watched σ Address) := by
  refine .bind (.alone Session.silent_entryForm) fun form => ?_
  refine .bind (.alone (.emit _ rfl)) fun _ => ?_
  intro s a h
  -- from here on the function is that of the entry point
  obtain ⟨f, hf, hrest⟩ := Action.ok_of_bind_ok h
  refine ⟨f, function?_of_entryPoint hf, ?_⟩
  rw [turns_bind_of_ok _ hf, action_bind, Action.bind_of_ok _ hf, Ended.behind_state]
  refine Turn.Last.behind ?_ _
  obtain ⟨result, hresult, hreturn⟩ := Action.ok_of_bind_ok hrest
  have hlast := endsIn_enterWith form f options source _ result hresult
  rw [turns_bind_of_ok _ hresult, action_bind, Action.bind_of_ok _ hresult]
  obtain rfl := Except.ok.inj hreturn
  show Turn.Last (_ ++ []) f result _
  rw [List.append_nil]
  exact hlast

theorem endsInEntry_compileFor (p : Pipeline σ) (request : Request) :
    EndsInEntry (compileFor p request) := by
  unfold compileFor
  cases p.image with
  | none => exact endsInEntry_compile _ _
  | some image =>
      exact .bind (heard_loadFilesystem image) fun _ => endsInEntry_compile _ _

end Watched

namespace Pipeline

variable {σ : Type}

/-- A decoded result is the outcome that the entry point left in memory, where it says, in the last
of the guest's turns. -/
theorem last_of_decoded {p : Pipeline σ} {request : Request} {log : Log} {outcome : Outcome}
    (h : p.decoded request log = .ok outcome) :
    ∃ f result final, p.loaded.guest.function? compileExport = some f ∧
      Turn.Last (p.turns request log) f result final ∧
      final.memory.outcomeAt ⟨result⟩ = .ok outcome := by
  cases hopen : (p.loaded.instantiate log ()).result with
  | error cause =>
      rw [decoded_of_not_opened request hopen] at h
      cases h
  | ok session =>
      rw [decoded_of_opened request hopen, ← Watched.action_compileIn] at h
      obtain ⟨a, hcompile, houtcome⟩ := Action.ok_of_bind_ok h
      obtain ⟨f, hf, hlast⟩ := Watched.endsInEntry_compileFor p request session a hcompile
      rw [(p.loaded.opens_instantiate log).guest session hopen] at hf
      refine ⟨f, a.offset, ((Watched.compileFor p request).action session).state.live, hf, ?_,
        Session.outcome_of_outcomeAt houtcome⟩
      have hturns : (Watched.compileIn p request).turns session =
          (Watched.compileFor p request).turns session ++ [] :=
        Watched.turns_bind_of_ok _ hcompile
      rw [turns_of_opened request hopen, hturns, List.append_nil]
      exact hlast.behind p.loaded.startTurns

end Pipeline

end CompilerHost
