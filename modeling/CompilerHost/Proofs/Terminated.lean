import CompilerHost.Proofs.Entering

/-! # Texts that end with a zero

The guest is told where a text begins and not how long it is: it reads on to the first zero byte.
The host goes by the length that it asked room for. The two see the same text unless there is a zero
in it.

* `Memory.TextAt`: what is found by reading on to the first zero, and
  `Memory.TextAt.stringLength?_eq` that counting finds as much;
* `Session.seesWhole_iff`: the guest sees all of a text just if it has no character zero, and what
  comes before one in any case;
* `Session.flags_seen`: the guest sees all of its flags, whatever characters they have.
-/

namespace CompilerHost

/-! ## Reading on to a zero -/

theorem append_zero_eq_takeWhile (bytes : List UInt8) :
    ∃ rest, bytes ++ [0] = (bytes.takeWhile (· ≠ 0) ++ [0]) ++ rest := by
  induction bytes with
  | nil => exact ⟨[], rfl⟩
  | cons b rest ih =>
      by_cases hb : b = 0
      · subst hb
        exact ⟨rest ++ [0], rfl⟩
      · obtain ⟨behind, hrest⟩ := ih
        refine ⟨behind, ?_⟩
        rw [List.takeWhile_cons_of_pos (by simpa using hb), List.cons_append, hrest]
        rfl

namespace Memory

/-- From a place on, memory has some bytes before the first zero. -/
structure TextAt (m : Memory) (start : Nat) (bytes : List UInt8) : Prop where
  holds : m.Holds start (bytes ++ [0])
  plain : 0 ∉ bytes

theorem go_stringLength? {m : Memory} {i : Nat} {bytes : List UInt8}
    (hholds : m.Holds i (bytes ++ [0])) (hplain : 0 ∉ bytes) {left : Nat}
    (hleft : bytes.length < left) (n : Nat) :
    stringLength?.go m i left n = some (n + bytes.length) := by
  induction bytes generalizing i left n with
  | nil =>
      have hzero : m.byte i = 0 := hholds.content 0 Nat.one_pos
      cases left with
      | zero => cases hleft
      | succ left =>
          rw [stringLength?.go, if_pos hzero]
          rfl
  | cons b rest ih =>
      have hfirst : m.byte i = b := hholds.content 0 (Nat.succ_pos _)
      have hsome : m.byte i ≠ 0 := by
        rw [hfirst]
        exact fun hb => hplain (hb ▸ List.mem_cons_self)
      have hrest : m.Holds (i + 1) (rest ++ [0]) := Holds.back (a := [b]) hholds
      cases left with
      | zero => cases hleft
      | succ left =>
          rw [stringLength?.go, if_neg hsome,
            ih hrest (fun hzero => hplain (List.mem_cons_of_mem b hzero))
              (Nat.lt_of_succ_lt_succ hleft)]
          rw [List.length_cons, Nat.add_assoc, Nat.add_comm 1]

/-- Counting up to the first zero finds the bytes before it. -/
theorem TextAt.stringLength?_eq {m : Memory} {start : Nat} {bytes : List UInt8}
    (h : m.TextAt start bytes) : m.stringLength? start = some bytes.length := by
  have hfits := h.holds.fits
  rw [List.length_append, List.length_singleton] at hfits
  rw [stringLength?, go_stringLength? h.holds h.plain (by omega), Nat.zero_add]

/-- There is one text at a place. -/
theorem TextAt.unique {m : Memory} {start : Nat} {bytes bytes' : List UInt8}
    (h : m.TextAt start bytes) (h' : m.TextAt start bytes') : bytes = bytes' := by
  have hlength := h.stringLength?_eq.symm.trans h'.stringLength?_eq
  exact h.holds.front.unique h'.holds.front (Option.some.inj hlength)

/-- What is before the first zero is the text, whatever is behind it. -/
theorem Holds.textAt_takeWhile {m : Memory} {start : Nat} {bytes : List UInt8}
    (h : m.Holds start (bytes ++ [0])) : m.TextAt start (bytes.takeWhile (· ≠ 0)) where
  holds := by
    obtain ⟨rest, hrest⟩ := append_zero_eq_takeWhile bytes
    rw [hrest] at h
    exact h.front
  plain := by
    intro hzero
    have hall := List.all_takeWhile (p := (· ≠ 0)) (l := bytes)
    have hne := List.all_eq_true.1 hall 0 hzero
    exact absurd rfl (of_decide_eq_true hne)

theorem Holds.textAt_iff {m : Memory} {start : Nat} {bytes : List UInt8}
    (h : m.Holds start (bytes ++ [0])) : m.TextAt start bytes ↔ 0 ∉ bytes :=
  ⟨TextAt.plain, fun hplain => ⟨h, hplain⟩⟩

end Memory

/-- The zero bytes of an encoded text are its zero characters. -/
theorem Utf8.zero_mem_toUTF8_iff {text : String} :
    0 ∈ text.toUTF8.toList ↔ '\x00' ∈ text.toList := by
  constructor
  · intro hzero
    exact Decidable.not_not.1 fun hplain => zero_not_mem_toUTF8 hplain hzero
  · intro hzero
    rw [toList_toUTF8, List.mem_flatMap]
    exact ⟨'\x00', hzero, by decide⟩

/-- A region with the bytes of a text has the text and a zero. -/
theorem Input.holds_of_readRegion {m : Memory} {r : Region} {t : String}
    (h : m.readRegion r = .ok (text t).bytes) :
    m.Holds r.start.offset.toNat (t.toUTF8.toList ++ [0]) := by
  have hholds := (Memory.readRegion_eq_ok_iff.1 h).2
  rw [← toList_push_byteArray]
  exact hholds

/-- The length that the host has of a text is the number of its bytes. -/
theorem Feed.toNat_textLength {σ : Type} (f : Feed σ) :
    (EncodedText.mk f.region).textLength.toNat = f.text.toUTF8.toList.length := by
  have hlength : f.region.length.toNat = f.text.toUTF8.toList.length + 1 := by
    rw [f.length_region, length_toList_byteArray]
    exact ByteArray.size_push
  have hone : 1 ≤ f.region.length := by
    rw [UInt32.le_iff_toNat_le, hlength]
    exact Nat.le_add_left 1 _
  show (f.region.length - 1).toNat = _
  rw [UInt32.toNat_sub_of_le _ _ hone, hlength]
  rfl

namespace Session

variable {σ : Type}

/-! ## One text -/

/-- If the text goes in, the guest finds it in full where it is told. -/
def SeesWhole (s : Session σ) (text : String) : Prop :=
  ∀ e, (encode text s).result = .ok e →
    (encode text s).state.live.memory.TextAt e.start.offset.toNat text.toUTF8.toList

/-- What comes of a write is told by where it goes and how long it is. -/
theorem result_writeRegion_of_size {data data' : ByteArray} (hsize : data.size = data'.size)
    (r : Region) (s : Session σ) :
    (writeRegion r data s).result = (writeRegion r data' s).result := by
  by_cases hroom : data.size ≤ r.length.toNat
  · have hroom' := hroom
    rw [hsize] at hroom'
    by_cases hfits : s.live.memory.Fits r.start data.size
    · have hfits' := hfits
      rw [hsize] at hfits'
      rw [writeRegion_of_fits hroom hfits, writeRegion_of_fits hroom' hfits']
    · have hfits' := hfits
      rw [hsize] at hfits'
      rw [writeRegion_of_not_fits hroom hfits, writeRegion_of_not_fits hroom' hfits', hsize]
  · have hroom' := hroom
    rw [hsize] at hroom'
    simp only [writeRegion, Action.get_bind_apply, Memory.writeRegion, if_neg hroom', hsize]

/-- Whether bytes go in, and where, is told by how many there are. -/
theorem result_place_of_size {data data' : ByteArray} (hsize : data.size = data'.size)
    (allocator : String) (length : Nat) (s : Session σ) :
    (place allocator data length s).result = (place allocator data' length s).result := by
  unfold place
  rw [hsize]
  split
  · cases hroom : (allocate allocator (UInt32.ofNat data'.size) s).result with
    | error fault => rw [Action.bind_of_error _ hroom, Action.bind_of_error _ hroom]
    | ok r =>
        rw [Action.bind_of_ok _ hroom, Action.bind_of_ok _ hroom]
        generalize (allocate allocator (UInt32.ofNat data'.size) s).state = asked
        have hsame := result_writeRegion_of_size hsize r asked
        cases hwrite : (writeRegion r data' asked).result with
        | error fault =>
            rw [hwrite] at hsame
            rw [Action.bind_of_error _ hsame, Action.bind_of_error _ hwrite]
            rfl
        | ok _ =>
            rw [hwrite] at hsame
            rw [Action.bind_of_ok _ hsame, Action.bind_of_ok _ hwrite]
            rfl
  · rfl

/-- A text that went in is in memory, with a zero behind it. -/
theorem readRegion_of_encode {text : String} {s : Session σ} {e : EncodedText}
    (h : (encode text s).result = .ok e) :
    (encode text s).state.live.memory.readRegion e.region = .ok (Input.text text).bytes := by
  rcases encode_course text s with ⟨f, rfl, rfl, hresult, hstate, -⟩ | ⟨fault, hresult, -, -⟩
  · obtain rfl := Except.ok.inj (hresult.symm.trans h)
    rw [hstate]
    exact f.readRegion_after
  · cases hresult.symm.trans h

/-- Nothing about a text but its size tells whether it goes in, and where. -/
theorem result_encode_of_size {text text' : String}
    (hsize : text.utf8ByteSize = text'.utf8ByteSize) (s : Session σ) :
    (encode text s).result = (encode text' s).result := by
  have hbytes : (text.toUTF8.push 0).size = (text'.toUTF8.push 0).size := by
    rw [ByteArray.size_push, ByteArray.size_push]
    exact congrArg (· + 1) hsize
  simp only [encode, Action.map_apply, hsize, result_place_of_size hbytes]

/-- The guest sees all of a text that went in, if the text has no character zero. If it has one, the
text goes in as any other of its size would, and the guest sees what comes before. -/
theorem seesWhole_iff {text : String} {s : Session σ} {e : EncodedText}
    (h : (encode text s).result = .ok e) :
    let memory := (encode text s).state.live.memory
    (s.SeesWhole text ↔ '\x00' ∉ text.toList) ∧
    memory.TextAt e.start.offset.toNat (text.toUTF8.toList.takeWhile (· ≠ 0)) ∧
    memory.readText e.start e.textLength.toNat = .ok text ∧
    ∀ text' : String, text'.utf8ByteSize = text.utf8ByteSize →
      (encode text' s).result = .ok e := by
  have hread := readRegion_of_encode h
  have hholds := Input.holds_of_readRegion hread
  refine ⟨?_, hholds.textAt_takeWhile, Input.readText_of_readRegion hread, ?_⟩
  · rw [← Utf8.zero_mem_toUTF8_iff, ← hholds.textAt_iff]
    constructor
    · intro hwhole
      exact hwhole e h
    · intro htext e' he
      obtain rfl := Except.ok.inj (h.symm.trans he)
      exact htext
  · intro text' hsize
    rw [result_encode_of_size hsize, h]

/-- An allocator that keeps the address of what is free, and never runs out. -/
def handingOut : Function UInt32 :=
  ⟨Guest.allocatorType, fun args live =>
    ⟨[], .ok live.globals, { live with globals := live.globals + args.headD 0 }⟩⟩

theorem memory_ask_handingOut (size : Nat) (s : Session UInt32) :
    (ask handingOut size s).state.live.memory = s.live.memory := by
  unfold ask
  by_cases hfuel : s.live.fuel ≤ entryFuel
  · rw [call_of_no_fuel _ _ hfuel]
  · rw [call_of_fuel _ _ hfuel]
    rfl

/-- A session with such an allocator and a page of memory. -/
def roomy : Session UInt32 where
  guest :=
    { imports := []
      exports :=
        [(Guest.memoryExport, .memory), (Guest.allocatorExport, .function handingOut)]
      memory := .zeros 1 1
      globals := .ok 16
      data := []
      start := none }
  live := ⟨.zeros 1 1, 16, 100⟩
  log := .fresh none
  filesystem := none
  initialFuel := 100

theorem seesWhole_accented :
    (encode "é" roomy).result = .ok ⟨⟨⟨16⟩, 3⟩⟩ ∧ roomy.SeesWhole "é" := by
  have h : (encode "é" roomy).result = .ok ⟨⟨⟨16⟩, 3⟩⟩ := by with_unfolding_all rfl
  exact ⟨h, (seesWhole_iff h).1.2 (by decide)⟩

/-- A text with a zero in it goes in, and the guest sees the part before the zero. -/
theorem not_seesWhole_cut :
    (encode "a\x00b" roomy).result = .ok ⟨⟨⟨16⟩, 4⟩⟩ ∧
    (encode "a\x00b" roomy).state.live.memory.TextAt 16 [0x61] ∧
    ¬roomy.SeesWhole "a\x00b" := by
  have h : (encode "a\x00b" roomy).result = .ok ⟨⟨⟨16⟩, 4⟩⟩ := by with_unfolding_all rfl
  have hbytes : "a\x00b".toUTF8.toList = [0x61, 0, 0x62] := by
    rw [Utf8.toList_toUTF8]
    rfl
  have hholds := Input.holds_of_readRegion (readRegion_of_encode h)
  rw [hbytes] at hholds
  have hcut := hholds.textAt_takeWhile
  refine ⟨h, hcut, ?_⟩
  intro hwhole
  have hsame := (hwhole _ h).unique hcut
  rw [hbytes] at hsame
  exact absurd hsame (by decide)

/-! ## Two texts -/

/-- The second of two texts goes elsewhere, and the allocator, asked for room for it, leaves the
first as it is. -/
structure KeepsFirst (s : Session σ) (first second : String) (t u : EncodedText) : Prop where
  apart : u.region.Disjoint t.region
  unchanged : ∀ f, s.guest.allocator? Guest.allocatorExport = .ok f →
    (ask f (second.utf8ByteSize + 1) (encode first s).state).state.live.memory.readRegion t.region =
      (encode first s).state.live.memory.readRegion t.region

/-- Inputs that are prepared are two texts that go in, one right after the other. -/
theorem prepareInputs_course {options : Options} {source : String} {s : Session σ}
    {t u : EncodedText} (h : (prepareInputs options source s).result = .ok (t, u)) :
    ∃ f g : Feed σ, f.text = options.json ∧ f.before = s ∧ g.text = source ∧ g.before = f.after ∧
      t = ⟨f.region⟩ ∧ u = ⟨g.region⟩ ∧ (encode options.json s).state = f.after ∧
      (prepareInputs options source s).state = g.after := by
  obtain ⟨first, hfirst, hrest⟩ := Action.ok_of_bind_ok h
  obtain ⟨second, hsecond, hlast⟩ := Action.ok_of_bind_ok hrest
  obtain ⟨rfl, rfl⟩ : first = t ∧ second = u := Prod.mk.inj (Except.ok.inj hlast)
  rcases encode_course options.json s with
    ⟨f, htext, hbefore, hresult, hstate, -⟩ | ⟨fault, hresult, -, -⟩
  · obtain rfl := Except.ok.inj (hresult.symm.trans hfirst)
    rw [hstate] at hsecond
    rcases encode_course source f.after with
      ⟨g, htext', hbefore', hresult', hstate', -⟩ | ⟨fault, hresult', -, -⟩
    · obtain rfl := Except.ok.inj (hresult'.symm.trans hsecond)
      refine ⟨f, g, htext, hbefore, htext', hbefore', rfl, rfl, hstate, ?_⟩
      rw [prepareInputs, Action.bind_of_ok _ hfirst, hstate, Action.bind_of_ok _ hsecond]
      exact hstate'
    · cases hresult'.symm.trans hsecond
  · cases hresult.symm.trans hfirst

/-- The guest sees all of its flags: reading on to the first zero, it finds their JSON text, which
is as long as the host has it. -/
theorem flags_seen {entries : List String} {source : String} {s : Session σ} {t u : EncodedText}
    (h : (prepareInputs (.ofEntries entries) source s).result = .ok (t, u))
    (hkeeps : s.KeepsFirst (Options.ofEntries entries).json source t u) :
    let json := (Options.ofEntries entries).json
    let memory := (prepareInputs (.ofEntries entries) source s).state.live.memory
    memory.TextAt t.start.offset.toNat json.toUTF8.toList ∧
    memory.stringLength? t.start.offset.toNat = some t.textLength.toNat := by
  obtain ⟨f, g, htext, rfl, rfl, hbefore, rfl, rfl, hbetween, hstate⟩ := prepareInputs_course h
  -- the first text is spared when the second goes in
  have hspares : g.Spares f.region := by
    have hguest : f.after.guest = f.before.guest := (keeps_call f.allocator _ f.before).guest
    have hunchanged := hkeeps.unchanged g.allocator
    rw [hbetween, ← hguest, ← hbefore, ← Input.size_bytes_text] at hunchanged
    exact ⟨hkeeps.apart, hunchanged g.usable⟩
  have hread := f.readRegion_after
  rw [← hbefore] at hread
  have hheld := hspares.readRegion hread
  rw [← hstate] at hheld
  have hholds := Input.holds_of_readRegion hheld
  rw [htext] at hholds
  have hseen := hholds.textAt_iff.2 (Options.zero_not_mem_json _)
  refine ⟨hseen, ?_⟩
  rw [f.toNat_textLength, htext]
  exact hseen.stringLength?_eq

/-- Two flags, of which one has control characters and nothing remains of the other. -/
def controls : List String := ["-D\x00\x01", " "]

theorem flags_seen_controls :
    (prepareInputs (.ofEntries controls) "x" roomy).result = .ok (⟨⟨⟨16⟩, 19⟩⟩, ⟨⟨⟨35⟩, 2⟩⟩) ∧
    roomy.KeepsFirst (Options.ofEntries controls).json "x" ⟨⟨⟨16⟩, 19⟩⟩ ⟨⟨⟨35⟩, 2⟩⟩ ∧
    (prepareInputs (.ofEntries controls) "x" roomy).state.live.memory.stringLength? 16 =
      some 18 := by
  have h : (prepareInputs (.ofEntries controls) "x" roomy).result =
      .ok (⟨⟨⟨16⟩, 19⟩⟩, ⟨⟨⟨35⟩, 2⟩⟩) := by with_unfolding_all rfl
  have hkeeps : roomy.KeepsFirst (Options.ofEntries controls).json "x" ⟨⟨⟨16⟩, 19⟩⟩
      ⟨⟨⟨35⟩, 2⟩⟩ := by
    constructor
    · rintro i ⟨hlow, _⟩ ⟨_, hhigh⟩
      have hbegin : 35 ≤ i := hlow
      have hend : i < 16 + 19 := hhigh
      omega
    · intro f hf
      have hhanding : roomy.guest.allocator? Guest.allocatorExport = .ok handingOut := rfl
      obtain rfl := Except.ok.inj (hhanding.symm.trans hf)
      rw [memory_ask_handingOut]
  exact ⟨h, hkeeps, (flags_seen h hkeeps).2⟩

end Session

end CompilerHost
