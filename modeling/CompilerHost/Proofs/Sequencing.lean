import CompilerHost.Action

/-! # Sequences of actions

How a sequence unfolds once its first part is known. A part that ended in a result hands over to
the rest, whose reports come behind its own (`bind_of_ok`); a part that ended in a fault is the end
of the sequence (`bind_of_error`). Parts that do one thing only unfold by `simp`. What an action may
do to a state is a relation (`Respects`), and a sequence may do what its parts may.
-/

namespace CompilerHost

namespace Ended

variable {S ε α : Type}

/-- The same ending, with reports from before. -/
def behind (j : Journal) (e : Ended S ε α) : Ended S ε α := ⟨e.result, e.state, j ++ e.journal⟩

@[simp] theorem behind_result (j : Journal) (e : Ended S ε α) : (e.behind j).result = e.result := rfl

@[simp] theorem behind_state (j : Journal) (e : Ended S ε α) : (e.behind j).state = e.state := rfl

@[simp] theorem behind_journal (j : Journal) (e : Ended S ε α) :
    (e.behind j).journal = j ++ e.journal := rfl

theorem behind_behind (i j : Journal) (e : Ended S ε α) :
    (e.behind j).behind i = e.behind (i ++ j) := by
  simp [behind, List.append_assoc]

end Ended

namespace Action

variable {S T ε δ α β : Type}

@[simp] theorem pure_apply (a : α) (s : S) : (Pure.pure a : Action S ε α) s = ⟨.ok a, s, []⟩ := rfl

@[simp] theorem throw_apply (e : ε) (s : S) : (throw e : Action S ε α) s = ⟨.error e, s, []⟩ := rfl

@[simp] theorem ofExcept_ok (a : α) : (ofExcept (.ok a) : Action S ε α) = Pure.pure a := rfl

@[simp] theorem ofExcept_error (e : ε) : (ofExcept (.error e) : Action S ε α) = throw e := rfl

@[simp] theorem finalState_apply (x : Action S ε α) (s : S) (t : T) :
    finalState x s t = ⟨(x s).result.map fun _ => (x s).state, t, (x s).journal⟩ := rfl

theorem bind_of_ok {x : Action S ε α} {s : S} {a : α} (f : α → Action S ε β)
    (h : (x s).result = .ok a) : (x >>= f) s = (f a (x s).state).behind (x s).journal := by
  show bind x f s = _
  unfold bind
  simp [h, Ended.behind]

theorem bind_of_error {x : Action S ε α} {s : S} {e : ε} (f : α → Action S ε β)
    (h : (x s).result = .error e) : (x >>= f) s = ⟨.error e, (x s).state, (x s).journal⟩ := by
  show bind x f s = _
  unfold bind
  simp [h]

/-- What is reported before the first part is reported before the sequence. -/
theorem bind_of_behind {x y : Action S ε α} {s : S} {j : Journal} (f : α → Action S ε β)
    (h : x s = (y s).behind j) : (x >>= f) s = ((y >>= f) s).behind j := by
  have hresult : (x s).result = (y s).result := by rw [h, Ended.behind_result]
  cases hy : (y s).result with
  | error e =>
      rw [bind_of_error f hy, bind_of_error f (hresult.trans hy), h]
      rfl
  | ok a =>
      rw [bind_of_ok f hy, bind_of_ok f (hresult.trans hy), h, Ended.behind_behind]
      rfl

/-- A sequence that succeeds did so part by part. -/
theorem ok_of_bind_ok {x : Action S ε α} {f : α → Action S ε β} {s : S} {b : β}
    (h : ((x >>= f) s).result = .ok b) :
    ∃ a, (x s).result = .ok a ∧ (f a (x s).state).result = .ok b := by
  cases hx : (x s).result with
  | error e =>
      rw [bind_of_error _ hx] at h
      cases h
  | ok a =>
      rw [bind_of_ok _ hx] at h
      exact ⟨a, rfl, h⟩

theorem ok_of_ofExcept {r : Except ε α} {s : S} {a : α}
    (h : (ofExcept r s).result = .ok a) : r = .ok a := by
  cases r with
  | ok b => exact h
  | error e => cases h

/-- A state that was kept is that behind an action that succeeds. -/
theorem ok_of_finalState_ok {x : Action S ε α} {s last : S} {t : T}
    (h : (finalState x s t).result = .ok last) :
    ∃ a, (x s).result = .ok a ∧ last = (x s).state := by
  rw [finalState_apply] at h
  cases hx : (x s).result with
  | error e =>
      rw [hx] at h
      cases h
  | ok a =>
      rw [hx] at h
      exact ⟨a, rfl, (Except.ok.inj h).symm⟩

theorem mapFault_of_ok (f : ε → δ) {x : Action S ε α} {s : S} {a : α}
    (h : (x s).result = .ok a) : x.mapFault f s = ⟨.ok a, (x s).state, (x s).journal⟩ := by
  rw [mapFault, h]
  rfl

theorem mapFault_of_error (f : ε → δ) {x : Action S ε α} {s : S} {e : ε}
    (h : (x s).result = .error e) :
    x.mapFault f s = ⟨.error (f e), (x s).state, (x s).journal⟩ := by
  rw [mapFault, h]
  rfl

theorem tryCatch_of_error {x : Action S ε α} (handler : ε → Action S ε α) {s : S} {e : ε}
    (h : (x s).result = .error e) :
    (tryCatch x handler : Action S ε α) s = (handler e (x s).state).behind (x s).journal := by
  show (MonadExceptOf.tryCatch x handler : Action S ε α) s = _
  simp only [MonadExceptOf.tryCatch, h]
  rfl

theorem id_map_eq (x : Action S ε α) : id <$> x = x := by
  show x >>= (fun a => Pure.pure (id a)) = x
  funext s
  cases h : (x s).result with
  | error e =>
      rw [bind_of_error _ h, ← h]
  | ok a =>
      rw [bind_of_ok _ h]
      simp only [Ended.behind, pure_apply, id_eq, List.append_nil, ← h]

/-- How the parts of a sequence are bracketed does not matter. -/
theorem bind_bind {γ : Type} (x : Action S ε α) (f : α → Action S ε β) (g : β → Action S ε γ) :
    x >>= f >>= g = x >>= fun a => f a >>= g := by
  funext s
  cases h : (x s).result with
  | error e =>
      have hf : ((x >>= f) s).result = .error e := by rw [bind_of_error _ h]
      rw [bind_of_error _ hf, bind_of_error _ h, bind_of_error _ h]
  | ok a =>
      have hf := bind_of_ok f h
      rw [bind_of_ok _ h]
      cases hg : (f a (x s).state).result with
      | error e =>
          have hfe : ((x >>= f) s).result = .error e := by rw [hf]; exact hg
          rw [bind_of_error _ hfe, bind_of_error _ hg, hf]
          rfl
      | ok b =>
          have hfb : ((x >>= f) s).result = .ok b := by rw [hf]; exact hg
          rw [bind_of_ok _ hfb, bind_of_ok _ hg, hf]
          simp [Ended.behind, List.append_assoc]

instance : LawfulMonad (Action S ε) :=
  LawfulMonad.mk' _ id_map_eq (fun _ _ => rfl) bind_bind

/-! ## Parts that do one thing -/

section Parts

variable (f : α → Action S ε β) (s : S)

@[simp] theorem pure_bind_apply (a : α) : ((Pure.pure a : Action S ε α) >>= f) s = f a s := rfl

@[simp] theorem throw_bind_apply (e : ε) :
    ((throw e : Action S ε α) >>= f) s = ⟨.error e, s, []⟩ := rfl

@[simp] theorem get_bind_apply (g : S → Action S ε β) : (get >>= g) s = g s s := rfl

@[simp] theorem modify_bind_apply (m : S → S) (g : Unit → Action S ε β) :
    (modify m >>= g) s = g () (m s) := rfl

@[simp] theorem emit_bind_apply (e : Event) (g : Unit → Action S ε β) :
    (emit e >>= g) s = (g () s).behind [.event e] := rfl

@[simp] theorem reported_bind_apply (j : Journal) (g : Unit → Action S ε β) :
    (reported j >>= g) s = (g () s).behind j := rfl

@[simp] theorem attempt_bind_apply (x : Action S δ α) (g : Except δ α → Action S ε β) :
    (attempt x >>= g) s = (g (x s).result (x s).state).behind (x s).journal := rfl

/-- A last part that only makes something of the result. -/
@[simp] theorem map_apply (g : α → β) (x : Action S ε α) :
    (g <$> x) s = ⟨(x s).result.map g, (x s).state, (x s).journal⟩ := by
  show (x >>= fun a => Pure.pure (g a)) s = _
  cases h : (x s).result with
  | error e =>
      rw [bind_of_error _ h]
      rfl
  | ok a =>
      rw [bind_of_ok _ h]
      simp [Ended.behind, Except.map]

end Parts

/-! ## Related states -/

/-- Whatever it comes to, an action leaves a state that is related to the one before it. -/
def Respects (R : S → S → Prop) (x : Action S ε α) : Prop := ∀ s, R s (x s).state

namespace Respects

variable {R : S → S → Prop}

theorem pure [Std.Refl R] (a : α) : Respects R (Pure.pure a : Action S ε α) :=
  fun s => Std.Refl.refl s

theorem throw [Std.Refl R] (e : ε) : Respects R (MonadExcept.throw e : Action S ε α) :=
  fun s => Std.Refl.refl s

theorem emit [Std.Refl R] (e : Event) : Respects R (Action.emit e : Action S ε Unit) :=
  fun s => Std.Refl.refl s

theorem ofExcept [Std.Refl R] (r : Except ε α) : Respects R (Action.ofExcept r : Action S ε α) := by
  cases r with
  | ok a => exact .pure a
  | error e => exact .throw e

theorem get_bind {g : S → Action S ε β} (hg : ∀ s, R s (g s s).state) : Respects R (get >>= g) := hg

theorem mapFault {f : ε → δ} {x : Action S ε α} (hx : Respects R x) : Respects R (x.mapFault f) := hx

theorem bind [Trans R R R] {x : Action S ε α} {f : α → Action S ε β} (hx : Respects R x)
    (hf : ∀ a, Respects R (f a)) : Respects R (x >>= f) := by
  intro s
  cases h : (x s).result with
  | ok a =>
      rw [bind_of_ok f h]
      exact Trans.trans (hx s) (hf a _)
  | error e =>
      rw [bind_of_error f h]
      exact hx s

theorem tryCatch [Trans R R R] {x : Action S ε α} {handler : ε → Action S ε α} (hx : Respects R x)
    (hhandler : ∀ e, Respects R (handler e)) : Respects R (MonadExcept.tryCatch x handler) := by
  intro s
  show R s ((MonadExceptOf.tryCatch x handler : Action S ε α) s).state
  simp only [MonadExceptOf.tryCatch]
  cases h : (x s).result with
  | ok a => exact hx s
  | error e => exact Trans.trans (hx s) (hhandler e _)

end Respects

end Action

end CompilerHost
