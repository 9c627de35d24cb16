import CompilerHost.Proofs.Cutting
import CompilerHost.Proofs.Framing

/-! # Strict and lossy readings

Bytes of memory are read as text in two ways. The strict one accepts what is the encoding of a text
and nothing else; the lossy one gives the same text there, and marks what is none. A lossy reading
looks ahead only inside a character, so that bytes may be read in parts wherever no part begins
inside one, valid or not.

* `Utf8.append_step_of_char`: a character is read only where its encoding stands;
* `Utf8.decode_eq_ok_iff`: the strict reading gives the text that the bytes are;
* `Utf8.step_append`: what stands behind a cut does not change the piece before it;
* `Utf8.decodeLossy_append`: lossy readings of parts, by induction on the pieces of the first;
* `Session.readings_agree`: both readings at any place of memory, and what the log has of parts.
-/

namespace CompilerHost

namespace Utf8

/-! ## Encodings that are read -/

theorem val_ofNat {v : Nat} (h : v < 0xD800 ∨ 0xDFFF < v ∧ v < 0x110000) :
    (Char.ofNat v).val.toNat = v := by
  have hvalid : v.isValidChar := h
  rw [Char.ofNat, dif_pos hvalid]
  rfl

theorem ofNat_eq_of_toNat {b : UInt8} {n : Nat} (h : b.toNat = n) : UInt8.ofNat n = b := by
  rw [← h, UInt8.ofNat_toNat]

theorem utf8EncodeChar_of_one {a : UInt8} (ha : a.toNat < 0x80) :
    String.utf8EncodeChar (Char.ofNat a.toNat) = [a] := by
  have hval := val_ofNat (v := a.toNat) (by omega)
  simp only [String.utf8EncodeChar, hval]
  rw [if_pos (by omega), UInt8.ofNat_toNat]

theorem utf8EncodeChar_of_two {a b : UInt8} (ha : 0xC2 ≤ a.toNat ∧ a.toNat ≤ 0xDF)
    (hb : isContinuation b = true) :
    String.utf8EncodeChar (Char.ofNat (extend (a.toNat - 0xC0) b)) = [a, b] := by
  rw [isContinuation_iff] at hb
  unfold extend
  generalize hv : (a.toNat - 0xC0) * 64 + (b.toNat - 0x80) = v
  have hval := val_ofNat (v := v) (by omega)
  simp only [String.utf8EncodeChar, hval]
  rw [if_neg (by omega), if_pos (by omega), ofNat_eq_of_toNat (b := a) (by omega),
    ofNat_eq_of_toNat (b := b) (by omega)]

theorem bounds_of_secondOfThree {a b : UInt8} (h : secondOfThree a b = true) :
    (a.toNat = 0xE0 → 0xA0 ≤ b.toNat) ∧ (a.toNat = 0xED → b.toNat ≤ 0x9F) := by
  have h224 : UInt8.toNat 0xE0 = 0xE0 := rfl
  have h237 : UInt8.toNat 0xED = 0xED := rfl
  simp only [secondOfThree, beq_iff_eq, ← UInt8.toNat_inj, h224, h237] at h
  split at h
  · simp only [Bool.and_eq_true, decide_eq_true_eq, UInt8.le_iff_toNat_le] at h
    exact ⟨fun _ => h.1, by omega⟩
  · split at h
    · simp only [Bool.and_eq_true, decide_eq_true_eq, UInt8.le_iff_toNat_le] at h
      exact ⟨by omega, fun _ => h.2⟩
    · exact ⟨by omega, by omega⟩

theorem utf8EncodeChar_of_three {a b c : UInt8} (ha : 0xE0 ≤ a.toNat ∧ a.toNat ≤ 0xEF)
    (hb : secondOfThree a b = true) (hc : isContinuation c = true) :
    String.utf8EncodeChar (Char.ofNat (extend (extend (a.toNat - 0xE0) b) c)) = [a, b, c] := by
  -- the range of the second byte leaves out what is shorter, and the surrogates
  have hrange := bounds_of_secondOfThree hb
  have hb := isContinuation_iff.1 (isContinuation_of_secondOfThree hb)
  rw [isContinuation_iff] at hc
  unfold extend
  generalize hv : ((a.toNat - 0xE0) * 64 + (b.toNat - 0x80)) * 64 + (c.toNat - 0x80) = v
  have hval := val_ofNat (v := v) (by omega)
  simp only [String.utf8EncodeChar, hval]
  rw [if_neg (by omega), if_neg (by omega), if_pos (by omega),
    ofNat_eq_of_toNat (b := a) (by omega), ofNat_eq_of_toNat (b := b) (by omega),
    ofNat_eq_of_toNat (b := c) (by omega)]

theorem bounds_of_secondOfFour {a b : UInt8} (h : secondOfFour a b = true) :
    (a.toNat = 0xF0 → 0x90 ≤ b.toNat) ∧ (a.toNat = 0xF4 → b.toNat ≤ 0x8F) := by
  have h240 : UInt8.toNat 0xF0 = 0xF0 := rfl
  have h244 : UInt8.toNat 0xF4 = 0xF4 := rfl
  simp only [secondOfFour, beq_iff_eq, ← UInt8.toNat_inj, h240, h244] at h
  split at h
  · simp only [Bool.and_eq_true, decide_eq_true_eq, UInt8.le_iff_toNat_le] at h
    exact ⟨fun _ => h.1, by omega⟩
  · split at h
    · simp only [Bool.and_eq_true, decide_eq_true_eq, UInt8.le_iff_toNat_le] at h
      exact ⟨by omega, fun _ => h.2⟩
    · exact ⟨by omega, by omega⟩

theorem utf8EncodeChar_of_four {a b c d : UInt8} (ha : 0xF0 ≤ a.toNat ∧ a.toNat ≤ 0xF4)
    (hb : secondOfFour a b = true) (hc : isContinuation c = true)
    (hd : isContinuation d = true) :
    String.utf8EncodeChar
      (Char.ofNat (extend (extend (extend (a.toNat - 0xF0) b) c) d)) = [a, b, c, d] := by
  -- here it leaves out what is shorter, and what is too great
  have hrange := bounds_of_secondOfFour hb
  have hb := isContinuation_iff.1 (isContinuation_of_secondOfFour hb)
  rw [isContinuation_iff] at hc hd
  unfold extend
  generalize hv : (((a.toNat - 0xF0) * 64 + (b.toNat - 0x80)) * 64 + (c.toNat - 0x80)) * 64 +
    (d.toNat - 0x80) = v
  have hval := val_ofNat (v := v) (by omega)
  simp only [String.utf8EncodeChar, hval]
  rw [if_neg (by omega), if_neg (by omega), if_neg (by omega),
    ofNat_eq_of_toNat (b := a) (by omega), ofNat_eq_of_toNat (b := b) (by omega),
    ofNat_eq_of_toNat (b := c) (by omega), ofNat_eq_of_toNat (b := d) (by omega)]

/-- Where a character is read, its encoding stands. -/
theorem append_step_of_char {a : UInt8} {rest left : List UInt8} {c : Char}
    (h : step a rest = (.char c, left)) : a :: rest = String.utf8EncodeChar c ++ left := by
  unfold step at h
  split at h
  · rename_i ha
    obtain ⟨hc, rfl⟩ := Prod.mk.inj h
    obtain rfl := Piece.char.inj hc
    rw [utf8EncodeChar_of_one (UInt8.lt_iff_toNat_lt.1 ha)]
    rfl
  · split at h
    · -- a character of two bytes, if they are all there
      rename_i ha
      simp only [Bool.and_eq_true, decide_eq_true_eq, UInt8.le_iff_toNat_le] at ha
      split at h
      · cases h
      · split at h
        · rename_i hb
          obtain ⟨hc, rfl⟩ := Prod.mk.inj h
          obtain rfl := Piece.char.inj hc
          rw [utf8EncodeChar_of_two ha hb]
          rfl
        · cases h
    · split at h
      · -- of three
        rename_i ha
        simp only [Bool.and_eq_true, decide_eq_true_eq, UInt8.le_iff_toNat_le] at ha
        split at h
        · cases h
        · split at h
          · rename_i hb
            split at h
            · cases h
            · split at h
              · rename_i hthird
                obtain ⟨hc, rfl⟩ := Prod.mk.inj h
                obtain rfl := Piece.char.inj hc
                rw [utf8EncodeChar_of_three ha hb hthird]
                rfl
              · cases h
          · cases h
      · split at h
        · -- of four
          rename_i ha
          simp only [Bool.and_eq_true, decide_eq_true_eq, UInt8.le_iff_toNat_le] at ha
          split at h
          · cases h
          · split at h
            · rename_i hb
              split at h
              · cases h
              · split at h
                · rename_i hthird
                  split at h
                  · cases h
                  · split at h
                    · rename_i hfourth
                      obtain ⟨hc, rfl⟩ := Prod.mk.inj h
                      obtain rfl := Piece.char.inj hc
                      rw [utf8EncodeChar_of_four ha hb hthird hfourth]
                      rfl
                    · cases h
                · cases h
            · cases h
        · cases h

/-- Bytes without an invalid piece are the encoding of what is read. -/
theorem eq_flatMap_of_firstFault? {bytes : List UInt8} {offset : Nat}
    (h : firstFault? offset (pieces bytes) = none) :
    bytes = ((pieces bytes).map Piece.lossyChar).flatMap String.utf8EncodeChar := by
  fun_induction pieces bytes generalizing offset with
  | case1 => rfl
  | case2 a rest ih =>
      cases hstep : step a rest with
      | mk piece left =>
          rw [hstep] at h ih
          cases piece with
          | char c =>
              rw [append_step_of_char hstep, List.map_cons, List.flatMap_cons, ← ih h]
              rfl
          | invalid n => cases h
          | truncated n => cases h

/-- The strict reading gives the text that the bytes are the encoding of, if there is one. -/
theorem decode_eq_ok_iff {bytes : ByteArray} {text : String} :
    decode bytes = .ok text ↔ bytes.toList = text.toUTF8.toList := by
  constructor
  · intro h
    rw [decode, decodeList, piecesFrom_nil] at h
    cases hfault : firstFault? 0 (pieces bytes.toList) with
    | some fault =>
        simp only [hfault] at h
        cases h
    | none =>
        simp only [hfault] at h
        obtain rfl := Except.ok.inj h
        rw [toList_toUTF8, lossyText, String.toList_ofList]
        exact eq_flatMap_of_firstFault? hfault
  · intro h
    rw [← decode_toUTF8 text, decode, decode, h]

/-! ## Cuts between characters -/

/-- What stands behind a cut does not change the piece before it, as long as it does not begin
inside a character. It may make a truncated piece an invalid one, which is read as the same. -/
theorem step_append (a : UInt8) (rest : List UInt8) {more : List UInt8}
    (hcut : ¬BeginsInside more) :
    (step a (rest ++ more)).1.lossyChar = (step a rest).1.lossyChar ∧
      (step a (rest ++ more)).2 = (step a rest).2 ++ more := by
  cases more with
  | nil => simp
  | cons x xs =>
      have hx : isContinuation x = false := by
        rw [← Bool.not_eq_true]
        intro hinside
        exact hcut ⟨x, rfl, hinside⟩
      have hthree : secondOfThree a x = false := by
        rw [← Bool.not_eq_true] at hx ⊢
        exact mt isContinuation_of_secondOfThree hx
      have hfour : secondOfFour a x = false := by
        rw [← Bool.not_eq_true] at hx ⊢
        exact mt isContinuation_of_secondOfFour hx
      unfold step
      split
      · exact ⟨rfl, rfl⟩
      · split
        · -- two bytes: the cut may be behind the first
          cases rest with
          | nil => simp [hx, Piece.lossyChar]
          | cons b rest =>
              simp only [List.cons_append]
              split <;> exact ⟨rfl, rfl⟩
        · split
          · -- three: behind the first or the second
            cases rest with
            | nil => simp [hthree, Piece.lossyChar]
            | cons b rest =>
                simp only [List.cons_append]
                split
                · cases rest with
                  | nil => simp [hx, Piece.lossyChar]
                  | cons c rest =>
                      simp only [List.cons_append]
                      split <;> exact ⟨rfl, rfl⟩
                · exact ⟨rfl, rfl⟩
          · split
            · -- four: behind the first, the second or the third
              cases rest with
              | nil => simp [hfour, Piece.lossyChar]
              | cons b rest =>
                  simp only [List.cons_append]
                  split
                  · cases rest with
                    | nil => simp [hx, Piece.lossyChar]
                    | cons c rest =>
                        simp only [List.cons_append]
                        split
                        · cases rest with
                          | nil => simp [hx, Piece.lossyChar]
                          | cons d rest =>
                              simp only [List.cons_append]
                              split <;> exact ⟨rfl, rfl⟩
                        · exact ⟨rfl, rfl⟩
                  · exact ⟨rfl, rfl⟩
            · exact ⟨rfl, rfl⟩

/-- The pieces before a cut are read as if nothing came behind it. The induction is on them. -/
theorem map_lossyChar_pieces_append (bytes : List UInt8) {more : List UInt8}
    (hcut : ¬BeginsInside more) :
    (pieces (bytes ++ more)).map Piece.lossyChar =
      (pieces bytes).map Piece.lossyChar ++ (pieces more).map Piece.lossyChar := by
  fun_induction pieces bytes with
  | case1 => rfl
  | case2 a rest ih =>
      obtain ⟨hchar, hleft⟩ := step_append a rest hcut
      rw [List.cons_append, pieces, List.map_cons, List.map_cons, hchar, hleft, ih,
        List.cons_append]

/-- Bytes are read lossily in parts where no part begins inside a character. -/
theorem decodeLossy_append (front : ByteArray) {back : ByteArray}
    (hcut : ¬BeginsInside back.toList) :
    (decodeLossy (front ++ back)).1 = (decodeLossy front).1 ++ (decodeLossy back).1 := by
  simp only [decodeLossy, piecesFrom_nil, lossyText, toList_append_byteArray]
  rw [map_lossyChar_pieces_append front.toList hcut, String.ofList_append]

/-! ## Both readings -/

/-- A repaired text has a mark in it, for each piece that is no character. -/
theorem mem_lossyText_of_firstFault? {ps : List Piece} {offset : Nat} {fault : Fault}
    (h : firstFault? offset ps = some fault) : '\uFFFD' ∈ (lossyText ps).toList := by
  rw [lossyText, String.toList_ofList]
  induction ps generalizing offset with
  | nil => cases h
  | cons piece ps ih =>
      cases piece with
      | char c => exact List.mem_cons_of_mem _ (ih h)
      | invalid n => exact List.mem_cons_self
      | truncated n => exact List.mem_cons_self

/-- How both readings see the same bytes: they are a text, or there is something to repair. -/
inductive Read (bytes : ByteArray) : Prop where
  | text (text : String) (hbytes : bytes.toList = text.toUTF8.toList)
      (hstrict : decode bytes = .ok text) (hlossy : decodeLossy bytes = (text, false))
  | repaired (fault : Fault) (text : String) (hbytes : ¬IsText bytes.toList)
      (hstrict : decode bytes = .error fault) (hlossy : decodeLossy bytes = (text, true))
      (hmark : '\uFFFD' ∈ text.toList)

theorem read (bytes : ByteArray) : Read bytes := by
  cases hfault : firstFault? 0 (pieces bytes.toList) with
  | none =>
      have hstrict : decode bytes = .ok (lossyText (pieces bytes.toList)) := by
        simp only [decode, decodeList, piecesFrom_nil, hfault]
      refine .text _ (decode_eq_ok_iff.1 hstrict) hstrict ?_
      simp only [decodeLossy, piecesFrom_nil, hfault, Option.isSome_none]
  | some fault =>
      have hstrict : decode bytes = .error fault := by
        simp only [decode, decodeList, piecesFrom_nil, hfault]
      refine .repaired fault (lossyText (pieces bytes.toList)) ?_ hstrict ?_
        (mem_lossyText_of_firstFault? hfault)
      · rintro ⟨text, htext⟩
        rw [decode_eq_ok_iff.2 htext] at hstrict
        cases hstrict
      · simp only [decodeLossy, piecesFrom_nil, hfault, Option.isSome_some]

end Utf8

/-! ## Readings of memory -/

namespace Memory

variable {m : Memory} {a : Address} {length : Nat}

/-- How both readings of so many bytes at a place agree. -/
structure ReadingsAgree (m : Memory) (a : Address) (length : Nat) : Prop where
  outOfBounds : ∀ access, m.readText a length = .error (.outOfBounds access) ↔
    m.readTextLossy a length = .error access
  text : ∀ text, m.readText a length = .ok text ↔ m.readTextLossy a length = .ok (text, false)
  /-- The text that both give is the one whose encoding memory holds. -/
  held : ∀ text, m.readText a length = .ok text ↔
    text.toUTF8.size = length ∧ m.Holds a.offset.toNat text.toUTF8.toList
  repaired : (∃ fault, m.readText a length = .error (.undecodableText fault)) ↔
    ∃ text, m.readTextLossy a length = .ok (text, true)
  marked : ∀ text, m.readTextLossy a length = .ok (text, true) → '\uFFFD' ∈ text.toList

/-- A strict reading gives the text whose encoding memory holds. -/
theorem readText_eq_ok_iff {text : String} :
    m.readText a length = .ok text ↔
      text.toUTF8.size = length ∧ m.Holds a.offset.toNat text.toUTF8.toList := by
  constructor
  · intro h
    cases hread : m.read a length with
    | error access =>
        rw [readText_of_bad hread] at h
        cases h
    | ok bytes =>
        rw [readText_of_read hread] at h
        cases hdecode : Utf8.decode bytes with
        | error fault =>
            rw [hdecode] at h
            cases h
        | ok text' =>
            rw [hdecode] at h
            obtain rfl := Except.ok.inj h
            have hbytes := Utf8.decode_eq_ok_iff.1 hdecode
            obtain ⟨hsize, hheld⟩ := read_eq_ok_iff.1 hread
            rw [hbytes] at hheld
            refine ⟨?_, hheld⟩
            rw [← hsize, ← length_toList_byteArray, ← length_toList_byteArray, hbytes]
  · rintro ⟨rfl, hheld⟩
    exact readText_of_holds hheld

theorem readingsAgree (m : Memory) (a : Address) (length : Nat) : m.ReadingsAgree a length := by
  cases hread : m.read a length with
  | error access =>
      have hstrict := readText_of_bad hread
      have hlossy : m.readTextLossy a length = .error access := by
        rw [readTextLossy, hread]
        rfl
      refine ⟨?_, ?_, fun _ => readText_eq_ok_iff, ?_, ?_⟩ <;> simp [hstrict, hlossy]
  | ok bytes =>
      have hstrict := readText_of_read hread
      have hlossy : m.readTextLossy a length = .ok (Utf8.decodeLossy bytes) := by
        rw [readTextLossy, hread]
        rfl
      cases Utf8.read bytes with
      | text text _ hdecode hdecodeLossy =>
          rw [hdecode] at hstrict
          rw [hdecodeLossy] at hlossy
          refine ⟨?_, ?_, fun _ => readText_eq_ok_iff, ?_, ?_⟩ <;>
            simp [hstrict, hlossy, Except.mapError]
      | repaired fault text _ hdecode hdecodeLossy hmark =>
          rw [hdecode] at hstrict
          rw [hdecodeLossy] at hlossy
          refine ⟨?_, ?_, fun _ => readText_eq_ok_iff, ?_, ?_⟩
          all_goals simp [hstrict, hlossy, Except.mapError]
          exact hmark

end Memory

/-! ## Readings of the log -/

namespace Session

variable {σ : Type}

/-- Calls are all answered, and add a text to the log. -/
structure Accumulates (s : Session σ) (calls : List (HostCall × Instance σ)) (text : String) :
    Prop where
  answered : (answerAll calls s).result = .ok ()
  log : (answerAll calls s).state.log = s.log.append text

/-- Calls that write parts add them to the log, each as it is read by itself. -/
theorem accumulates_of_writesParts {s : Session σ} {calls : List (HostCall × Instance σ)}
    {parts : List ByteArray} (hmemory : s.guest.exportsMemory = true)
    (hwrites : List.Forall₂ WritesPart calls parts) :
    s.Accumulates calls (Utf8.lossyJoin parts) := by
  obtain ⟨live, j, hanswers, _⟩ := answerAll_of_writesParts hmemory hwrites []
  rw [List.append_nil] at hanswers
  exact ⟨by rw [hanswers]; rfl, by rw [hanswers]; rfl⟩

/-- Strict and lossy readings agree at any place of memory: they refuse what is not there with the
same words, give the text that is there, and if there is none, the one refuses and the other marks
what it repairs. Where the second of two parts does not begin inside a character, what is read of
both is what is read of each, so that a guest that writes them in one call or in two adds the same
text to its log. -/
theorem readings_agree :
    (∀ (m : Memory) (a : Address) (length : Nat), m.ReadingsAgree a length) ∧
    ∀ front back : ByteArray, ¬Utf8.BeginsInside back.toList →
      (Utf8.decodeLossy (front ++ back)).1 =
        (Utf8.decodeLossy front).1 ++ (Utf8.decodeLossy back).1 ∧
      ∀ (s : Session σ) (one two : List (HostCall × Instance σ)),
        s.guest.exportsMemory = true → List.Forall₂ WritesPart one [front ++ back] →
        List.Forall₂ WritesPart two [front, back] →
          s.Accumulates one (Utf8.decodeLossy (front ++ back)).1 ∧
          s.Accumulates two (Utf8.decodeLossy (front ++ back)).1 := by
  refine ⟨Memory.readingsAgree, ?_⟩
  intro front back hcut
  have happend := Utf8.decodeLossy_append front hcut
  refine ⟨happend, ?_⟩
  intro s one two hmemory hone htwo
  have hwhole := accumulates_of_writesParts hmemory hone
  have hparts := accumulates_of_writesParts hmemory htwo
  have hjoinOne : Utf8.lossyJoin [front ++ back] = (Utf8.decodeLossy (front ++ back)).1 := by
    simp [Utf8.lossyJoin]
  have hjoinTwo : Utf8.lossyJoin [front, back] = (Utf8.decodeLossy (front ++ back)).1 := by
    rw [happend]
    simp [Utf8.lossyJoin]
  rw [hjoinOne] at hwhole
  rw [hjoinTwo] at hparts
  exact ⟨hwhole, hparts⟩

/-- A session with a guest that has three bytes, the second of which begins a character that the
third does not go on with. -/
def garbled : Session Unit :=
  { accented with live := ⟨(Memory.zeros 1 1).overwrite 16 [0x6E, 0xC3, 0x41], (), 100⟩ }

theorem readings_agree_garbled :
    ¬Utf8.BeginsInside (ByteArray.toList ⟨#[0x41]⟩) ∧
      garbled.Accumulates (cutWrites garbled.live ⟨16⟩ [⟨#[0x6E, 0xC3, 0x41]⟩]) "n\uFFFDA" ∧
      garbled.Accumulates (cutWrites garbled.live ⟨16⟩ [⟨#[0x6E, 0xC3]⟩, ⟨#[0x41]⟩])
        "n\uFFFDA" := by
  have hcut : ¬Utf8.BeginsInside (ByteArray.toList ⟨#[0x41]⟩) := by
    rintro ⟨b, hb, hinside⟩
    have hlist : ByteArray.toList ⟨#[0x41]⟩ = [0x41] := by decide +kernel
    rw [hlist] at hb
    obtain rfl := Option.some.inj hb
    exact absurd hinside (by decide)
  have hheld : garbled.live.memory.Holds 16 [0x6E, 0xC3, 0x41] :=
    Memory.holds_overwrite _ (by decide)
  have hread : (Utf8.decodeLossy (⟨#[0x6E, 0xC3]⟩ ++ ⟨#[0x41]⟩)).1 = "n\uFFFDA" := by
    decide +kernel
  have hwrites : ∀ parts : List ByteArray,
      parts.flatMap ByteArray.toList = [0x6E, 0xC3, 0x41] →
        List.Forall₂ WritesPart (cutWrites garbled.live ⟨16⟩ parts) parts := by
    intro parts hparts
    refine writesPart_cutWrites ?_ ?_
    · rw [hparts]
      exact hheld
    · rw [hparts]
      decide
  obtain ⟨_, hparts⟩ := readings_agree (σ := Unit)
  obtain ⟨_, hlog⟩ := hparts ⟨#[0x6E, 0xC3]⟩ ⟨#[0x41]⟩ hcut
  have hsame := hlog garbled _ _ rfl
    (hwrites [⟨#[0x6E, 0xC3]⟩ ++ ⟨#[0x41]⟩] (by decide +kernel))
    (hwrites [⟨#[0x6E, 0xC3]⟩, ⟨#[0x41]⟩] (by decide +kernel))
  rw [hread] at hsame
  exact ⟨hcut, hsame⟩

end Session

end CompilerHost
