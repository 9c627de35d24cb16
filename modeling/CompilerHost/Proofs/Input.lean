import CompilerHost.Proofs.Placing

/-! # Inputs

What the host puts into a guest is a text or the filesystem image. Both are placements of bytes, and
an image goes on record.

* `Input.PutIn` says what it is for an input to be in a region, and for nothing else to be
  different;
* `Input.put_confined`: an input goes to the room that was asked for it and nowhere else, or it
  goes nowhere.
-/

namespace CompilerHost

/-- Something that the host puts into a guest. -/
inductive Input where
  | text (t : String)
  | image (bytes : ByteArray)

namespace Input

variable {σ : Type}

/-- What stands in guest memory in the end; a text has a zero behind it. -/
def bytes : Input → ByteArray
  | .text t => t.toUTF8.push 0
  | .image bytes => bytes

/-- The export that is asked for room. -/
def allocator : Input → String
  | .text _ => Guest.allocatorExport
  | .image _ => Guest.imageAllocatorExport

/-- The length that is reported where no word holds it. -/
def length : Input → Nat
  | .text t => t.utf8ByteSize
  | .image bytes => bytes.size

/-- Puts the input into the guest. -/
def put : Input → Action (Session σ) GuestFault Region
  | .text t => EncodedText.region <$> Session.encode t
  | .image bytes => Session.loadFilesystem bytes

/-- The turns that the guest has in it. -/
def turns : Input → Session σ → List (Turn σ)
  | .text t => (Watched.encode t).turns
  | .image bytes => (Watched.loadFilesystem bytes).turns

/-- The session with the place of the input on record. No record is kept of texts. -/
def record (input : Input) (r : Region) (s : Session σ) : Session σ :=
  match input with
  | .text _ => s
  | .image _ => { s with filesystem := some r }

@[simp] theorem live_record (input : Input) (r : Region) (s : Session σ) :
    (input.record r s).live = s.live := by
  cases input with
  | text t => rfl
  | image bytes => rfl

theorem size_bytes_text (t : String) : (Input.text t).bytes.size = t.utf8ByteSize + 1 :=
  ByteArray.size_push

/-- Putting an input is placing its bytes, and the record behind it. -/
theorem put_of_ok {input : Input} {s : Session σ} {r : Region}
    (h : (Session.place input.allocator input.bytes input.length s).result = .ok r) :
    (input.put s).result = .ok r ∧
      (input.put s).state =
        input.record r (Session.place input.allocator input.bytes input.length s).state := by
  cases input with
  | text t =>
      simp only [allocator, bytes, length] at h
      simp only [put, Session.encode, Action.map_apply, h]
      exact ⟨rfl, rfl⟩
  | image bytes =>
      simp only [allocator, Input.bytes, length] at h
      simp only [put, Session.loadFilesystem, Action.bind_of_ok _ h]
      exact ⟨rfl, rfl⟩

theorem put_of_error {input : Input} {s : Session σ} {e : GuestFault}
    (h : (Session.place input.allocator input.bytes input.length s).result = .error e) :
    (input.put s).result = .error e ∧
      (input.put s).state =
        (Session.place input.allocator input.bytes input.length s).state := by
  cases input with
  | text t =>
      simp only [allocator, bytes, length] at h
      simp only [put, Session.encode, Action.map_apply, h]
      exact ⟨rfl, rfl⟩
  | image bytes =>
      simp only [allocator, Input.bytes, length] at h
      simp only [put, Session.loadFilesystem, Action.bind_of_error _ h]
      exact ⟨trivial, rfl⟩

theorem turns_eq (input : Input) (s : Session σ) :
    input.turns s = (Watched.place input.allocator input.bytes input.length).turns s := by
  cases input with
  | text t => exact Watched.turns_bind_alone _ _ s
  | image bytes => exact Watched.turns_bind_alone _ _ s

/-- Putting an input takes the course of a placement, and an image goes on record if it goes in. -/
theorem put_placing (input : Input) (s : Session σ) :
    ∃ result state turns,
      Session.Placing s input.allocator input.bytes input.length result state turns ∧
      input.turns s = turns ∧ (input.put s).result = result ∧
      (∀ fault, result = .error fault → (input.put s).state = state) ∧
      ∀ r, result = .ok r → (input.put s).state = input.record r state := by
  have hplacing := Session.placing s input.allocator input.bytes input.length
  refine ⟨_, _, _, hplacing, input.turns_eq s, ?_, fun _ h => (put_of_error h).2,
    fun _ h => (put_of_ok h).2⟩
  cases hresult : (Session.place input.allocator input.bytes input.length s).result with
  | ok r => exact (put_of_ok hresult).1
  | error fault => exact (put_of_error hresult).1

/-- An input is in a region of a session, and a session before had all else as it is now. -/
structure PutIn (input : Input) (r : Region) (before after : Session σ) : Prop where
  others : after = input.record r (before.withMemory after.live.memory)
  outside : before.live.memory.SameOutside after.live.memory r.start.offset.toNat r.length.toNat
  content : after.live.memory.readRegion r = .ok input.bytes
  text : ∀ t, input = .text t →
    after.live.memory.readText r.start (EncodedText.mk r).textLength.toNat = .ok t

theorem toNat_ofNat_of_small {n : Nat} (h : n < 2 ^ 31) : (UInt32.ofNat n).toNat = n :=
  UInt32.toNat_ofNat_of_lt' (Nat.lt_trans h (by decide))

/-- A text is read back from the region that has its bytes. -/
theorem readText_of_readRegion {m : Memory} {r : Region} {t : String}
    (h : m.readRegion r = .ok (text t).bytes) :
    m.readText r.start (EncodedText.mk r).textLength.toNat = .ok t := by
  obtain ⟨hsize, hholds⟩ := Memory.readRegion_eq_ok_iff.1 h
  have hbytes : (text t).bytes.size = t.toUTF8.size + 1 := size_bytes_text t
  have hlength : (EncodedText.mk r).textLength.toNat = t.toUTF8.size := by
    have hone : 1 ≤ r.length := by
      rw [UInt32.le_iff_toNat_le, ← hsize, hbytes]
      exact Nat.le_add_left 1 _
    show (r.length - 1).toNat = _
    rw [UInt32.toNat_sub_of_le _ _ hone, ← hsize, hbytes]
    rfl
  rw [hlength]
  refine Memory.readText_of_holds (Memory.Holds.front (b := [0]) ?_)
  rw [← toList_push_byteArray]
  exact hholds

/-- What a write of its bytes makes of the memory that the allocator left. -/
theorem putIn_overwrite {input : Input} {s : Session σ} {p : UInt32}
    (hsmall : input.bytes.size < 2 ^ 31) (hfits : s.live.memory.Fits ⟨p⟩ input.bytes.size) :
    input.PutIn ⟨⟨p⟩, UInt32.ofNat input.bytes.size⟩ s
      (input.record ⟨⟨p⟩, UInt32.ofNat input.bytes.size⟩
        (s.withMemory (s.live.memory.overwrite p.toNat input.bytes.toList))) := by
  have hmemory : (input.record ⟨⟨p⟩, UInt32.ofNat input.bytes.size⟩
      (s.withMemory (s.live.memory.overwrite p.toNat input.bytes.toList))).live.memory =
      s.live.memory.overwrite p.toNat input.bytes.toList := by
    rw [live_record, Session.withMemory_memory]
  have hsize := toNat_ofNat_of_small hsmall
  have hlength : p.toNat + input.bytes.toList.length ≤ s.live.memory.size := by
    rw [length_toList_byteArray]
    exact hfits
  have hcontent : (s.live.memory.overwrite p.toNat input.bytes.toList).readRegion
      ⟨⟨p⟩, UInt32.ofNat input.bytes.size⟩ = .ok input.bytes :=
    Memory.readRegion_eq_ok_iff.2 ⟨hsize.symm, Memory.holds_overwrite s.live.memory hlength⟩
  refine ⟨?_, ?_, ?_, ?_⟩
  · rw [hmemory]
  · have hsame := Memory.sameOutside_overwrite s.live.memory hlength
    rw [length_toList_byteArray] at hsame
    rw [hmemory, hsize]
    exact hsame
  · rw [hmemory]
    exact hcontent
  · rintro t rfl
    rw [hmemory]
    exact readText_of_readRegion hcontent

/-- An input goes in; or it does not, and the session is as it was or as the allocator left it. -/
theorem put_course (input : Input) (s : Session σ) :
    (∃ f p, s.guest.allocator? input.allocator = .ok f ∧ input.bytes.size < 2 ^ 31 ∧
      (Session.ask f input.bytes.size s).result = .ok p ∧ p ≠ 0 ∧
      (input.put s).result = .ok ⟨⟨p⟩, UInt32.ofNat input.bytes.size⟩ ∧
      input.PutIn ⟨⟨p⟩, UInt32.ofNat input.bytes.size⟩
        (Session.ask f input.bytes.size s).state (input.put s).state) ∨
    (∃ fault, (input.put s).result = .error fault) ∧
      ((input.put s).state = s ∨
        ∃ f, s.guest.allocator? input.allocator = .ok f ∧ input.bytes.size < 2 ^ 31 ∧
          (input.put s).state = (Session.ask f input.bytes.size s).state) := by
  obtain ⟨result, state, turns, hplacing, -, hresult, hkept, hrecord⟩ := input.put_placing s
  rw [hresult]
  cases hplacing with
  | endless => exact .inr ⟨⟨_, rfl⟩, .inl (hkept _ rfl)⟩
  | unusable => exact .inr ⟨⟨_, rfl⟩, .inl (hkept _ rfl)⟩
  | tooLarge => exact .inr ⟨⟨_, rfl⟩, .inl (hkept _ rfl)⟩
  | failed hsmall hallocator =>
      exact .inr ⟨⟨_, rfl⟩, .inr ⟨_, hallocator, hsmall, hkept _ rfl⟩⟩
  | full hsmall hallocator =>
      exact .inr ⟨⟨_, rfl⟩, .inr ⟨_, hallocator, hsmall, hkept _ rfl⟩⟩
  | outside hsmall hallocator =>
      exact .inr ⟨⟨_, rfl⟩, .inr ⟨_, hallocator, hsmall, hkept _ rfl⟩⟩
  | placed hsmall hallocator hasked hp hfits =>
      refine .inl ⟨_, _, hallocator, hsmall, hasked, hp, rfl, ?_⟩
      rw [hrecord _ rfl]
      exact putIn_overwrite hsmall hfits

/-- The host asks for as many bytes as it has, once and only if an address can count them, and
writes what it has to where it is told. Where it does not, memory is as the allocator left it. -/
theorem put_confined (s : Session σ) (input : Input) :
    match s.guest.allocator? input.allocator with
    | .error cause =>
      input.turns s = [] ∧ (input.put s).state = s ∧
        (input.put s).result =
          .error (if input.bytes.size < 2 ^ 32 then cause else .inputTooLarge input.length)
    | .ok f =>
      if input.bytes.size < 2 ^ 31 then
        let size := UInt32.ofNat input.bytes.size
        let asked := Session.call f [size] s
        input.turns s = [.function f [size] s.live] ∧ size.toNat = input.bytes.size ∧
        asked.state.filesystem = s.filesystem ∧
        match asked.result with
        | .error fault => (input.put s).result = .error fault ∧ (input.put s).state = asked.state
        | .ok p =>
          if p = 0 then
            (input.put s).result = .error (.allocationFailed input.allocator input.bytes.size) ∧
            (input.put s).state = asked.state
          else if asked.state.live.memory.Fits ⟨p⟩ input.bytes.size then
            (input.put s).result = .ok ⟨⟨p⟩, size⟩ ∧
            input.PutIn ⟨⟨p⟩, size⟩ asked.state (input.put s).state
          else
            (input.put s).result =
              .error (.outOfBounds (asked.state.live.memory.badAccess ⟨p⟩ input.bytes.size)) ∧
            (input.put s).state = asked.state
      else
        input.turns s = [] ∧ (input.put s).state = s ∧
        (input.put s).result = .error (.inputTooLarge
          (if input.bytes.size < 2 ^ 32 then input.bytes.size else input.length)) := by
  obtain ⟨result, state, turns, hplacing, hturns, hresult, hkept, hrecord⟩ := input.put_placing s
  have hfilesystem : ∀ f args, (Session.call f args s).state.filesystem = s.filesystem :=
    fun f args => (Session.keeps_call f args s).filesystem
  rw [hturns, hresult]
  cases hplacing with
  | endless hsize =>
      have hsmall : ¬input.bytes.size < 2 ^ 31 := by omega
      have hword : ¬input.bytes.size < 2 ^ 32 := by omega
      rw [hkept _ rfl]
      cases s.guest.allocator? input.allocator with
      | error cause => exact ⟨rfl, rfl, by rw [if_neg hword]⟩
      | ok f => simp only [if_neg hsmall, if_neg hword, and_self]
  | unusable hsize hallocator =>
      rw [hkept _ rfl, hallocator]
      exact ⟨rfl, rfl, by rw [if_pos hsize]⟩
  | tooLarge hsize hallocator hlarge =>
      rw [hkept _ rfl, hallocator]
      simp only [if_neg (Nat.not_lt.2 hlarge), if_pos hsize, and_self]
  | @failed f cause hsmall hallocator hasked =>
      have hsize := toNat_ofNat_of_small hsmall
      rw [hkept _ rfl, hallocator]
      simp only [Session.ask] at hasked ⊢
      simp only [if_pos hsmall, hasked]
      exact ⟨trivial, hsize, hfilesystem _ _, trivial, trivial⟩
  | @full f hsmall hallocator hasked =>
      have hsize := toNat_ofNat_of_small hsmall
      rw [hkept _ rfl, hallocator]
      simp only [Session.ask] at hasked ⊢
      simp only [if_pos hsmall, hasked, if_true]
      exact ⟨trivial, hsize, hfilesystem _ _, trivial, trivial⟩
  | @outside f p hsmall hallocator hasked hp hfits =>
      have hsize := toNat_ofNat_of_small hsmall
      rw [hkept _ rfl, hallocator]
      simp only [Session.ask] at hasked hfits ⊢
      simp only [if_pos hsmall, hasked, if_neg hp, if_neg hfits]
      exact ⟨trivial, hsize, hfilesystem _ _, trivial, trivial⟩
  | @placed f p hsmall hallocator hasked hp hfits =>
      have hsize := toNat_ofNat_of_small hsmall
      have hin := putIn_overwrite hsmall hfits
      rw [hrecord _ rfl, hallocator]
      simp only [Session.ask] at hasked hfits hin ⊢
      simp only [if_pos hsmall, hasked, if_neg hp, if_pos hfits]
      exact ⟨trivial, hsize, hfilesystem _ _, trivial, hin⟩

end Input

namespace Session

variable {σ : Type}

/-- A text that goes in is encoded, and one that does not is not. -/
theorem encode_of_put_ok {t : String} {s : Session σ} {r : Region}
    (h : ((Input.text t).put s).result = .ok r) :
    (encode t s).result = .ok ⟨r⟩ ∧ (encode t s).state = ((Input.text t).put s).state := by
  have hput : (Input.text t).put s = (EncodedText.region <$> encode t) s := rfl
  rw [Action.map_apply] at hput
  rw [hput] at h ⊢
  cases hencode : (encode t s).result with
  | error fault =>
      rw [hencode] at h
      cases h
  | ok encoded =>
      rw [hencode] at h
      cases h
      exact ⟨rfl, rfl⟩

theorem encode_of_put_error {t : String} {s : Session σ} {fault : GuestFault}
    (h : ((Input.text t).put s).result = .error fault) :
    (encode t s).result = .error fault ∧ (encode t s).state = ((Input.text t).put s).state := by
  have hput : (Input.text t).put s = (EncodedText.region <$> encode t) s := rfl
  rw [Action.map_apply] at hput
  rw [hput] at h ⊢
  cases hencode : (encode t s).result with
  | ok encoded =>
      rw [hencode] at h
      cases h
  | error e =>
      rw [hencode] at h
      cases h
      exact ⟨rfl, rfl⟩

end Session

end CompilerHost
