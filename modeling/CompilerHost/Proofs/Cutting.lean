import CompilerHost.Proofs.Encoding
import CompilerHost.Proofs.Hearing
import Mathlib.Data.List.Forall2

/-! # Text that is written in pieces

A guest writes its text in as many calls as it likes, and the host reads the bytes of each call by
themselves. So a text is heard whole exactly when it is cut between characters.

* `Utf8.isText_of_cut`: a text falls into texts wherever no cut has a continuing byte behind it;
* `Utf8.starts_le_length_pieces`: no piece of decoding has more than one byte in it that starts a
  character, so that a cut inside a character shows in the number of characters that are read;
* `Session.heard_whole_iff`: pieces of a text are heard as that text exactly if each is a text, and
  the operator is told of a repair exactly if one is not.
-/

namespace CompilerHost

namespace Utf8

/-! ## Where characters start -/

/-- Bytes that are a text. -/
def IsText (bytes : List UInt8) : Prop := ∃ text : String, bytes = text.toUTF8.toList

/-- Bytes that do not go on with a character. -/
def starts (bytes : List UInt8) : Nat := bytes.countP (!isContinuation ·)

/-- Whether bytes begin inside a character. -/
def BeginsInside (bytes : List UInt8) : Prop := ∃ b, bytes.head? = some b ∧ isContinuation b = true

theorem starts_append (a b : List UInt8) : starts (a ++ b) = starts a + starts b :=
  List.countP_append

theorem starts_eq_zero {bytes : List UInt8} (h : ∀ b ∈ bytes, isContinuation b = true) :
    starts bytes = 0 := by
  refine List.countP_eq_zero.2 ?_
  intro b hb
  simp [h b hb]

theorem not_isContinuation_marked {bits mark : Nat} (hmark : 192 ≤ mark) (h : bits + mark < 256) :
    isContinuation (UInt8.ofNat (bits + mark)) = false := by
  have hvalue := toNat_marked bits mark h
  rw [← Bool.not_eq_true, isContinuation_iff]
  omega

/-- The encoding of a character starts it with its first byte, and goes on with all others. -/
theorem utf8EncodeChar_eq_cons (c : Char) :
    ∃ a tail, String.utf8EncodeChar c = a :: tail ∧ isContinuation a = false ∧
      ∀ b ∈ tail, isContinuation b = true := by
  have htail : ∀ bits, isContinuation (UInt8.ofNat (bits % 64 + 128)) = true :=
    fun bits => isContinuation_marked (Nat.mod_lt _ (by decide))
  have hvalid : c.val.toNat < 0x110000 := by
    rcases c.valid with hlow | ⟨_, hhigh⟩
    · exact Nat.lt_trans hlow (by decide)
    · exact hhigh
  simp only [String.utf8EncodeChar]
  generalize c.val.toNat = v at hvalid
  -- as many cases as an encoding has lengths
  split
  · rename_i h1
    refine ⟨_, _, rfl, ?_, fun b hb => by cases hb⟩
    have ha : (UInt8.ofNat v).toNat = v :=
      UInt8.toNat_ofNat_of_lt' (Nat.lt_of_le_of_lt h1 (by decide))
    rw [← Bool.not_eq_true, isContinuation_iff]
    omega
  · split
    · refine ⟨_, _, rfl, not_isContinuation_marked (by decide) (by omega), ?_⟩
      intro b hb
      obtain rfl := List.mem_singleton.1 hb
      exact htail v
    · split
      · refine ⟨_, _, rfl, not_isContinuation_marked (by decide) (by omega), ?_⟩
        intro b hb
        simp only [List.mem_cons, List.not_mem_nil, or_false] at hb
        rcases hb with rfl | rfl
        · exact htail (v / 64)
        · exact htail v
      · refine ⟨_, _, rfl, not_isContinuation_marked (by decide) (by omega), ?_⟩
        intro b hb
        simp only [List.mem_cons, List.not_mem_nil, or_false] at hb
        rcases hb with rfl | rfl | rfl
        · exact htail (v / 4096)
        · exact htail (v / 64)
        · exact htail v

/-- A text starts as many characters as it has. -/
theorem starts_flatMap (cs : List Char) :
    starts (cs.flatMap String.utf8EncodeChar) = cs.length := by
  induction cs with
  | nil => rfl
  | cons c cs ih =>
      obtain ⟨a, tail, hbytes, ha, htail⟩ := utf8EncodeChar_eq_cons c
      have hchar : starts (String.utf8EncodeChar c) = 1 := by
        rw [hbytes, starts, List.countP_cons_of_pos (by simp [ha])]
        exact congrArg (· + 1) (starts_eq_zero htail)
      rw [List.flatMap_cons, starts_append, hchar, ih, List.length_cons, Nat.add_comm]

/-! ## Cuts -/

/-- A text falls into two texts where the second part does not begin inside a character. The
induction is on the characters of the text. -/
theorem flatMap_eq_append {cs : List Char} {xs ys : List UInt8}
    (h : cs.flatMap String.utf8EncodeChar = xs ++ ys) (hcut : ¬BeginsInside ys) :
    ∃ front back : List Char, xs = front.flatMap String.utf8EncodeChar ∧
      ys = back.flatMap String.utf8EncodeChar := by
  induction cs generalizing xs with
  | nil =>
      obtain ⟨rfl, rfl⟩ := List.append_eq_nil_iff.1 h.symm
      exact ⟨[], [], rfl, rfl⟩
  | cons c cs ih =>
      rw [List.flatMap_cons] at h
      rcases List.append_eq_append_iff.1 h with ⟨more, hxs, hrest⟩ | ⟨inside, hchar, hys⟩
      · -- the first part has the whole character
        obtain ⟨front, back, hfront, hback⟩ := ih hrest
        refine ⟨c :: front, back, ?_, hback⟩
        rw [hxs, hfront, List.flatMap_cons]
      · cases xs with
        | nil => exact ⟨[], c :: cs, rfl, by rw [List.flatMap_cons, h]; rfl⟩
        | cons x xs =>
            cases inside with
            | nil =>
                rw [List.append_nil] at hchar
                exact ⟨[c], cs, by rw [List.flatMap_singleton, hchar], by rw [hys]; rfl⟩
            | cons b inside =>
                -- the cut would be inside the character
                obtain ⟨a, tail, hbytes, _, htail⟩ := utf8EncodeChar_eq_cons c
                rw [hbytes, List.cons_append] at hchar
                have hb : b ∈ tail := by
                  rw [(List.cons.inj hchar).2]
                  exact List.mem_append_right xs List.mem_cons_self
                exact absurd ⟨b, by rw [hys]; rfl, htail b hb⟩ hcut

theorem isText_flatMap (cs : List Char) : IsText (cs.flatMap String.utf8EncodeChar) :=
  ⟨String.ofList cs, by rw [toList_toUTF8, String.toList_ofList]⟩

/-- Behind each other, parts begin inside a character only if one of them does. -/
theorem exists_beginsInside {parts : List ByteArray}
    (h : BeginsInside (parts.flatMap ByteArray.toList)) :
    ∃ part ∈ parts, BeginsInside part.toList := by
  obtain ⟨b, hb, hinside⟩ := h
  induction parts with
  | nil => cases hb
  | cons part parts ih =>
      rw [List.flatMap_cons] at hb
      cases hpart : part.toList with
      | nil =>
          rw [hpart, List.nil_append] at hb
          obtain ⟨other, hmem, hother⟩ := ih hb
          exact ⟨other, List.mem_cons_of_mem part hmem, hother⟩
      | cons x xs =>
          rw [hpart] at hb
          exact ⟨part, List.mem_cons_self, b, by rw [hpart]; exact hb, hinside⟩

/-- Parts of a text are texts if none of them begins inside a character. -/
theorem isText_of_cut {parts : List ByteArray} {text : String}
    (htext : parts.flatMap ByteArray.toList = text.toUTF8.toList)
    (hcut : ∀ part ∈ parts, ¬BeginsInside part.toList) : ∀ part ∈ parts, IsText part.toList := by
  rw [toList_toUTF8] at htext
  generalize text.toList = cs at htext
  induction parts generalizing cs with
  | nil =>
      intro part hpart
      cases hpart
  | cons first parts ih =>
      -- the cut behind the first part is one between characters
      have hothers : ¬BeginsInside (parts.flatMap ByteArray.toList) := by
        intro hinside
        obtain ⟨part, hmem, hpart⟩ := exists_beginsInside hinside
        exact hcut part (List.mem_cons_of_mem first hmem) hpart
      rw [List.flatMap_cons] at htext
      obtain ⟨front, back, hfront, hback⟩ := flatMap_eq_append htext.symm hothers
      have hrest := ih (fun part hmem => hcut part (List.mem_cons_of_mem first hmem)) back hback
      intro part hpart
      rcases List.mem_cons.1 hpart with rfl | hpart
      · rw [hfront]
        exact isText_flatMap front
      · exact hrest part hpart

/-! ## What decoding makes of a cut -/

theorem isContinuation_of_between {low high b : UInt8} (hlow : 0x80 ≤ low.toNat)
    (hhigh : high.toNat ≤ 0xBF) (h : (decide (low ≤ b) && decide (b ≤ high)) = true) :
    isContinuation b = true := by
  simp only [Bool.and_eq_true, decide_eq_true_eq, UInt8.le_iff_toNat_le] at h
  exact isContinuation_iff.2 ⟨Nat.le_trans hlow h.1, Nat.le_trans h.2 hhigh⟩

theorem isContinuation_of_secondOfThree {a b : UInt8} (h : secondOfThree a b = true) :
    isContinuation b = true := by
  unfold secondOfThree at h
  split at h
  · exact isContinuation_of_between (by decide) (by decide) h
  · split at h
    · exact isContinuation_of_between (by decide) (by decide) h
    · exact h

theorem isContinuation_of_secondOfFour {a b : UInt8} (h : secondOfFour a b = true) :
    isContinuation b = true := by
  unfold secondOfFour at h
  split at h
  · exact isContinuation_of_between (by decide) (by decide) h
  · split at h
    · exact isContinuation_of_between (by decide) (by decide) h
    · exact h

/-- Bytes go on with continuing bytes only, up to where others are left. -/
def GoesOn (bytes left : List UInt8) : Prop :=
  ∃ taken, bytes = taken ++ left ∧ ∀ b ∈ taken, isContinuation b = true

namespace GoesOn

theorem refl (bytes : List UInt8) : GoesOn bytes bytes := ⟨[], rfl, fun _ h => by cases h⟩

theorem cons {b : UInt8} {bytes left : List UInt8} (hb : isContinuation b = true)
    (h : GoesOn bytes left) : GoesOn (b :: bytes) left := by
  obtain ⟨taken, rfl, htaken⟩ := h
  refine ⟨b :: taken, rfl, ?_⟩
  intro x hx
  rcases List.mem_cons.1 hx with rfl | hx
  · exact hb
  · exact htaken x hx

theorem starts_eq {bytes left : List UInt8} (h : GoesOn bytes left) :
    starts bytes = starts left := by
  obtain ⟨taken, rfl, htaken⟩ := h
  rw [starts_append, starts_eq_zero htaken, Nat.zero_add]

end GoesOn

/-- Behind its first byte a piece takes continuing bytes only. -/
theorem goesOn_step (a : UInt8) (rest : List UInt8) : GoesOn rest (step a rest).2 := by
  unfold step
  split
  · exact .refl _
  · split
    · -- a character of two bytes, or what is there of it
      split
      · exact .refl _
      · split
        · exact .cons ‹_› (.refl _)
        · exact .refl _
    · split
      · -- of three
        split
        · exact .refl _
        · split
          · have hsecond := isContinuation_of_secondOfThree ‹_›
            split
            · exact .cons hsecond (.refl _)
            · split
              · exact .cons hsecond (.cons ‹_› (.refl _))
              · exact .cons hsecond (.refl _)
          · exact .refl _
      · split
        · -- of four
          split
          · exact .refl _
          · split
            · have hsecond := isContinuation_of_secondOfFour ‹_›
              split
              · exact .cons hsecond (.refl _)
              · split
                · have hthird : isContinuation _ = true := ‹_›
                  split
                  · exact .cons hsecond (.cons hthird (.refl _))
                  · split
                    · exact .cons hsecond (.cons hthird (.cons ‹_› (.refl _)))
                    · exact .cons hsecond (.cons hthird (.refl _))
                · exact .cons hsecond (.refl _)
            · exact .refl _
        · exact .refl _

/-- There are at least as many pieces as bytes that start a character. -/
theorem starts_le_length_pieces (bytes : List UInt8) : starts bytes ≤ (pieces bytes).length := by
  fun_induction pieces bytes with
  | case1 => exact Nat.le_refl 0
  | case2 a rest ih =>
      -- what the piece takes behind its first byte starts nothing
      have hstarts := (goesOn_step a rest).starts_eq
      have hfirst : starts (a :: rest) ≤ starts rest + 1 := by
        rw [starts, List.countP_cons]
        split
        · exact Nat.le_refl _
        · exact Nat.le_succ _
      rw [List.length_cons]
      omega

/-- A continuing byte that comes first is a piece of its own, and no character. -/
theorem step_of_isContinuation {a : UInt8} (rest : List UInt8) (h : isContinuation a = true) :
    step a rest = (.invalid 1, rest) := by
  have ha := isContinuation_iff.1 h
  have h1 : ¬a.toNat < 0x80 := by omega
  have h2 : ¬0xC2 ≤ a.toNat := by omega
  have h3 : ¬0xE0 ≤ a.toNat := by omega
  have h4 : ¬0xF0 ≤ a.toNat := by omega
  unfold step
  simp [UInt8.lt_iff_toNat_lt, UInt8.le_iff_toNat_le, h1, h2, h3, h4]

theorem pieces_of_beginsInside {bytes : List UInt8} (h : BeginsInside bytes) :
    ∃ rest, pieces bytes = .invalid 1 :: pieces rest ∧ starts bytes = starts rest := by
  obtain ⟨b, hhead, hb⟩ := h
  cases bytes with
  | nil => cases hhead
  | cons a rest =>
      obtain rfl := Option.some.inj hhead
      refine ⟨rest, by rw [pieces, step_of_isContinuation rest hb], ?_⟩
      rw [starts, List.countP_cons_of_neg (by simp [hb])]
      rfl

/-- A cut inside a character shows in the number of pieces. -/
theorem starts_lt_length_pieces {bytes : List UInt8} (h : BeginsInside bytes) :
    starts bytes < (pieces bytes).length := by
  obtain ⟨rest, hpieces, hstarts⟩ := pieces_of_beginsInside h
  have hrest := starts_le_length_pieces rest
  rw [hpieces, hstarts, List.length_cons]
  omega

/-! ## Parts that are decoded by themselves -/

/-- The text of parts each of which is decoded by itself, and repaired where it is none. -/
def lossyJoin (parts : List ByteArray) : String :=
  String.join (parts.map fun part => (decodeLossy part).1)

theorem lossyJoin_cons (part : ByteArray) (parts : List ByteArray) :
    lossyJoin (part :: parts) = (decodeLossy part).1 ++ lossyJoin parts := by
  simp [lossyJoin]

theorem length_decodeLossy (part : ByteArray) :
    (decodeLossy part).1.length = (pieces part.toList).length := by
  rw [decodeLossy, lossyText, piecesFrom_nil, String.length_ofList, List.length_map]

/-- Together the parts have as many characters as are started in them, or more. -/
theorem starts_le_length_lossyJoin (parts : List ByteArray) :
    starts (parts.flatMap ByteArray.toList) ≤ (lossyJoin parts).length := by
  induction parts with
  | nil => exact Nat.zero_le _
  | cons part parts ih =>
      have hpart := starts_le_length_pieces part.toList
      rw [List.flatMap_cons, starts_append, lossyJoin_cons, String.length_append,
        length_decodeLossy]
      omega

/-- They have more if one of them begins inside a character. -/
theorem starts_lt_length_lossyJoin {parts : List ByteArray} {part : ByteArray}
    (hmem : part ∈ parts) (h : BeginsInside part.toList) :
    starts (parts.flatMap ByteArray.toList) < (lossyJoin parts).length := by
  induction parts with
  | nil => cases hmem
  | cons first parts ih =>
      rw [List.flatMap_cons, starts_append, lossyJoin_cons, String.length_append,
        length_decodeLossy]
      rcases List.mem_cons.1 hmem with rfl | hmem
      · have hpart := starts_lt_length_pieces h
        have hothers := starts_le_length_lossyJoin parts
        omega
      · have hfirst := starts_le_length_pieces first.toList
        have hothers := ih hmem
        omega

/-- There is nothing to repair in a text. -/
theorem decodeLossy_of_isText {part : ByteArray} (h : IsText part.toList) :
    ∃ text : String, part.toList = text.toUTF8.toList ∧ decodeLossy part = (text, false) := by
  obtain ⟨text, htext⟩ := h
  refine ⟨text, htext, ?_⟩
  rw [← decodeLossy_toUTF8 text, decodeLossy, decodeLossy, htext]

/-- What begins inside a character is repaired. -/
theorem repaired_of_beginsInside {part : ByteArray} (h : BeginsInside part.toList) :
    (decodeLossy part).2 = true := by
  obtain ⟨rest, hpieces, _⟩ := pieces_of_beginsInside h
  rw [decodeLossy, piecesFrom_nil, hpieces]
  rfl

theorem not_beginsInside_of_isText {part : ByteArray} (h : IsText part.toList) :
    ¬BeginsInside part.toList := by
  intro hinside
  obtain ⟨_, _, hdecode⟩ := decodeLossy_of_isText h
  have hrepaired := repaired_of_beginsInside hinside
  rw [hdecode] at hrepaired
  cases hrepaired

theorem toUTF8_append (a b : String) :
    (a ++ b).toUTF8.toList = a.toUTF8.toList ++ b.toUTF8.toList := by
  rw [toList_toUTF8, toList_toUTF8, toList_toUTF8, String.toList_append, List.flatMap_append]

/-- Parts that are texts make up the text of all their bytes. -/
theorem toUTF8_lossyJoin {parts : List ByteArray} (h : ∀ part ∈ parts, IsText part.toList) :
    (lossyJoin parts).toUTF8.toList = parts.flatMap ByteArray.toList := by
  induction parts with
  | nil => exact toList_toUTF8 ""
  | cons part parts ih =>
      obtain ⟨text, hbytes, hdecode⟩ := decodeLossy_of_isText (h part List.mem_cons_self)
      have hothers := ih fun other hmem => h other (List.mem_cons_of_mem part hmem)
      rw [lossyJoin_cons, toUTF8_append, hdecode, hothers, List.flatMap_cons, hbytes]

section Parts

variable {parts : List ByteArray} {text : String}

/-- Parts of a text make it up again exactly if each is a text. -/
theorem lossyJoin_eq_iff (htext : parts.flatMap ByteArray.toList = text.toUTF8.toList) :
    lossyJoin parts = text ↔ ∀ part ∈ parts, IsText part.toList := by
  constructor
  · intro hjoin
    refine isText_of_cut htext ?_
    intro part hmem hinside
    -- there would be more characters than the text has
    have hlt := starts_lt_length_lossyJoin hmem hinside
    rw [htext, toList_toUTF8, starts_flatMap, String.length_toList, hjoin] at hlt
    exact Nat.lt_irrefl _ hlt
  · intro htexts
    exact eq_of_toUTF8 ((toUTF8_lossyJoin htexts).trans htext)

/-- Parts of a text need no repair exactly if each is a text. -/
theorem unrepaired_iff (htext : parts.flatMap ByteArray.toList = text.toUTF8.toList) :
    (∀ part ∈ parts, (decodeLossy part).2 = false) ↔ ∀ part ∈ parts, IsText part.toList := by
  constructor
  · intro hsound
    refine isText_of_cut htext ?_
    intro part hmem hinside
    have hrepaired := repaired_of_beginsInside hinside
    rw [hsound part hmem] at hrepaired
    cases hrepaired
  · intro htexts part hmem
    obtain ⟨_, _, hdecode⟩ := decodeLossy_of_isText (htexts part hmem)
    rw [hdecode]

end Parts

end Utf8

/-! ## Writing a text in parts -/

/-- A call writes a part: that is what memory holds where the call says. -/
def WritesPart {σ : Type} (c : HostCall × Instance σ) (part : ByteArray) : Prop :=
  ∃ start length, c.1 = .write start length ∧ length.toNat = part.size ∧
    c.2.memory.Holds start.offset.toNat part.toList

/-- The calls that write parts as they stand behind each other from a place on. -/
def cutWrites {σ : Type} (live : Instance σ) : Address → List ByteArray →
    List (HostCall × Instance σ)
  | _, [] => []
  | start, part :: parts =>
    (.write start (UInt32.ofNat part.size), live) ::
      cutWrites live ⟨start.offset + UInt32.ofNat part.size⟩ parts

/-- However what is held is cut, there are calls that write the parts. -/
theorem writesPart_cutWrites {σ : Type} {live : Instance σ} {start : Address}
    {parts : List ByteArray}
    (hheld : live.memory.Holds start.offset.toNat (parts.flatMap ByteArray.toList))
    (hsize : start.offset.toNat + (parts.flatMap ByteArray.toList).length < 1 <<< 32) :
    List.Forall₂ WritesPart (cutWrites live start parts) parts := by
  induction parts generalizing start with
  | nil => exact .nil
  | cons part parts ih =>
      rw [List.flatMap_cons] at hheld hsize
      rw [List.length_append] at hsize
      have hlength : part.toList.length = part.size := length_toList_byteArray part
      have hword : (UInt32.ofNat part.size).toNat = part.size :=
        UInt32.toNat_ofNat_of_lt' (by
          show part.size < 1 <<< 32
          omega)
      have hnext : (start.offset + UInt32.ofNat part.size).toNat =
          start.offset.toNat + part.toList.length := by
        rw [UInt32.toNat_add, hword, hlength]
        omega
      refine .cons ⟨start, _, rfl, hword, hheld.front⟩ (ih ?_ ?_)
      · rw [hnext]
        exact hheld.back
      · rw [hnext]
        omega

/-- A report that text had to be repaired. -/
def Report.isRepair : Report → Bool
  | .event (.logTextRepaired ..) => true
  | _ => false

/-- Deliveries of the log report no repair. -/
theorem isRepair_of_mem_blockReports {surface : Option Surface} {block : String} {r : Report}
    (h : r ∈ blockReports surface block) : r.isRepair = false := by
  rcases List.mem_cons.1 h with rfl | h
  · rfl
  · cases surface with
    | none => cases h
    | some s =>
        simp only [shownBlock, Surface.show] at h
        split at h
        · obtain rfl := List.mem_singleton.1 h
          rfl
        · obtain rfl := List.mem_singleton.1 h
          rfl

namespace Session

variable {σ : Type} {s : Session σ}

/-- The answer to a call that writes a part. -/
theorem answer_of_writesPart {call : HostCall} {part : ByteArray}
    (hmemory : s.guest.exportsMemory = true) (h : WritesPart (call, s.live) part) :
    ∃ j, answer call s =
        ⟨.ok (), { s with log := s.log.append (Utf8.decodeLossy part).1 }, j⟩ ∧
      j.any Report.isRepair = (Utf8.decodeLossy part).2 := by
  obtain ⟨start, length, rfl, hlength, hheld⟩ := h
  have hread : s.live.memory.readTextLossy start length.toNat = .ok (Utf8.decodeLossy part) := by
    rw [Memory.readTextLossy, hlength, Memory.read_of_holds hheld]
    rfl
  cases hdecode : Utf8.decodeLossy part with
  | mk text repaired =>
      rw [hdecode] at hread
      cases repaired with
      | true =>
          refine ⟨[.event (.logTextRepaired start length.toNat)], ?_, rfl⟩
          simp [answer, hmemory, hread, Ended.behind, Action.modify]
      | false =>
          refine ⟨[], ?_, rfl⟩
          simp [answer, hmemory, hread, Action.modify]

/-- Calls that write parts are all answered. The log has the parts then, each decoded by itself, and
a repair was reported if one of them needed it. The induction is on the calls. -/
theorem answerAll_of_writesParts {writes : List (HostCall × Instance σ)} {parts : List ByteArray}
    (hmemory : s.guest.exportsMemory = true) (hwrites : List.Forall₂ WritesPart writes parts)
    (rest : List (HostCall × Instance σ)) :
    ∃ live j, answerAll (writes ++ rest) s =
        (answerAll rest { s with live, log := s.log.append (Utf8.lossyJoin parts) }).behind j ∧
      j.any Report.isRepair = parts.any fun part => (Utf8.decodeLossy part).2 := by
  induction hwrites generalizing s with
  | nil => exact ⟨s.live, [], by simp [Utf8.lossyJoin, Log.append, Ended.behind], rfl⟩
  | @cons c part writes parts hpart _ ih =>
      obtain ⟨call, live⟩ := c
      obtain ⟨j, hanswer, hrepair⟩ :=
        answer_of_writesPart (s := { s with live := live }) hmemory hpart
      -- the part is pending then, and the others come behind it
      obtain ⟨live', j', hrest, hrepairs⟩ :=
        ih (s := { s with live, log := s.log.append (Utf8.decodeLossy part).1 }) hmemory
      refine ⟨live', j ++ j', ?_, by rw [List.any_append, hrepair, hrepairs, List.any_cons]⟩
      have hset : (setLive live : Action (Session σ) GuestFault Unit) s =
          ⟨.ok (), { s with live := live }, []⟩ := rfl
      rw [List.cons_append, answerAll, Action.bind_of_ok _ (congrArg Ended.result hset), hset,
        Action.bind_of_ok _ (congrArg Ended.result hanswer), hanswer]
      simp only [hrest, Ended.behind_behind, List.nil_append]
      simp [Log.append, Utf8.lossyJoin_cons, String.append_assoc]

/-- Calls are heard as one block, which goes on from the text at hand with this one. -/
def HeardAs (s : Session σ) (calls : List (HostCall × Instance σ)) (text : String) : Prop :=
  (answerAll calls s).state.log.transcript = s.log.transcript ++ [s.log.pending ++ text]

/-- No repair is reported while calls are answered. -/
def HeardUnrepaired (s : Session σ) (calls : List (HostCall × Instance σ)) : Prop :=
  (answerAll calls s).journal.any Report.isRepair = false

/-- The end of a block, as the only call. -/
theorem answerAll_flush (last : Instance σ) (s : Session σ) :
    answerAll [(.flush, last)] s = ⟨.ok (), { s with live := last, log := s.log.flushed },
      blockReports s.log.surface s.log.pending⟩ := by
  simp [answerAll, setLive, answer, onLog, Action.within, Log.flush, Log.delivery_eq,
    Except.map]

section Written

variable {writes : List (HostCall × Instance σ)} {parts : List ByteArray} {text : String}
  (last : Instance σ) (hmemory : s.guest.exportsMemory = true)
  (hwrites : List.Forall₂ WritesPart writes parts)
include hmemory hwrites

/-- Parts that are written, and then the end of a block: the log has what they are together when
each is decoded by itself. -/
theorem answerAll_block :
    ∃ j : Journal, answerAll (writes ++ [(.flush, last)]) s =
        ⟨.ok (), { s with
            live := last
            log := (s.log.append (Utf8.lossyJoin parts)).flushed }, j⟩ ∧
      j.any Report.isRepair = parts.any fun part => (Utf8.decodeLossy part).2 := by
  obtain ⟨live, j, hanswers, hrepairs⟩ := answerAll_of_writesParts hmemory hwrites [(.flush, last)]
  have hflush := answerAll_flush last
    { s with live, log := s.log.append (Utf8.lossyJoin parts) }
  have hdelivery : (blockReports s.log.surface (s.log.append (Utf8.lossyJoin parts)).pending).any
      Report.isRepair = false := by
    rw [List.any_eq_false]
    intro r hr
    simp [isRepair_of_mem_blockReports hr]
  refine ⟨_, by rw [hanswers, hflush]; rfl, ?_⟩
  rw [List.any_append, hrepairs]
  exact (congrArg _ hdelivery).trans (Bool.or_false _)

/-- What is heard of parts of a text is that text exactly if each part is a text. -/
theorem heardAs_iff (htext : parts.flatMap ByteArray.toList = text.toUTF8.toList) :
    s.HeardAs (writes ++ [(.flush, last)]) text ↔ ∀ part ∈ parts, Utf8.IsText part.toList := by
  obtain ⟨j, hanswers, _⟩ := answerAll_block last hmemory hwrites
  rw [← Utf8.lossyJoin_eq_iff htext, HeardAs, hanswers]
  constructor
  · intro h
    -- behind the same transcript stands one block, and in it the same text was pending before
    have hblock := List.singleton_inj.1 (List.append_cancel_left h)
    exact String.append_right_inj _ |>.1 hblock
  · rintro rfl
    rfl

/-- They are heard without a repair exactly then. -/
theorem heardUnrepaired_iff (htext : parts.flatMap ByteArray.toList = text.toUTF8.toList) :
    s.HeardUnrepaired (writes ++ [(.flush, last)]) ↔
      ∀ part ∈ parts, Utf8.IsText part.toList := by
  obtain ⟨j, hanswers, hrepairs⟩ := answerAll_block last hmemory hwrites
  rw [← Utf8.unrepaired_iff htext, HeardUnrepaired, hanswers, hrepairs, List.any_eq_false]
  simp only [Bool.not_eq_true]

end Written

/-- A text that is written in parts, and then ends its block, is heard as that text exactly if each
part is a text by itself, and exactly then nothing is repaired. -/
theorem heard_whole_iff {writes : List (HostCall × Instance σ)} {parts : List ByteArray}
    {text : String} (last : Instance σ) (hmemory : s.guest.exportsMemory = true)
    (hwrites : List.Forall₂ WritesPart writes parts)
    (htext : parts.flatMap ByteArray.toList = text.toUTF8.toList) :
    (answerAll (writes ++ [(.flush, last)]) s).result = .ok () ∧
      (s.HeardAs (writes ++ [(.flush, last)]) text ↔
        ∀ part ∈ parts, Utf8.IsText part.toList) ∧
      (s.HeardUnrepaired (writes ++ [(.flush, last)]) ↔
        ∀ part ∈ parts, Utf8.IsText part.toList) := by
  obtain ⟨_, hanswers, _⟩ := answerAll_block last hmemory hwrites
  exact ⟨congrArg Ended.result hanswers, heardAs_iff last hmemory hwrites htext,
    heardUnrepaired_iff last hmemory hwrites htext⟩

/-- A session with a guest that has a text of three bytes, the last two of which are one
character. -/
def accented : Session Unit where
  guest := ⟨[], [(Guest.memoryExport, .memory)], .zeros 1 1, .ok (), [], none⟩
  live := ⟨(Memory.zeros 1 1).overwrite 16 [0x6E, 0xC3, 0xA9], (), 100⟩
  log := .fresh none
  filesystem := none
  initialFuel := 100

/-- The session's guest writes its text in parts and ends the block. -/
def accentedCalls (parts : List ByteArray) : List (HostCall × Instance Unit) :=
  cutWrites accented.live ⟨16⟩ parts ++ [(.flush, accented.live)]

theorem writesPart_accented {parts : List ByteArray}
    (h : parts.flatMap ByteArray.toList = "né".toUTF8.toList) :
    List.Forall₂ WritesPart (cutWrites accented.live ⟨16⟩ parts) parts := by
  have htext : "né".toUTF8.toList = [0x6E, 0xC3, 0xA9] := by decide +kernel
  refine writesPart_cutWrites ?_ ?_
  · rw [h, htext]
    exact Memory.holds_overwrite _ (by decide)
  · rw [h, htext]
    decide

theorem heard_whole_accented :
    [⟨#[0x6E]⟩, ⟨#[0xC3, 0xA9]⟩].flatMap ByteArray.toList = "né".toUTF8.toList ∧
      accented.HeardAs (accentedCalls [⟨#[0x6E]⟩, ⟨#[0xC3, 0xA9]⟩]) "né" ∧
      accented.HeardUnrepaired (accentedCalls [⟨#[0x6E]⟩, ⟨#[0xC3, 0xA9]⟩]) := by
  have htext : [⟨#[0x6E]⟩, ⟨#[0xC3, 0xA9]⟩].flatMap ByteArray.toList = "né".toUTF8.toList := by
    decide +kernel
  have htexts : ∀ part ∈ ([⟨#[0x6E]⟩, ⟨#[0xC3, 0xA9]⟩] : List ByteArray),
      Utf8.IsText part.toList := by
    intro part hpart
    simp only [List.mem_cons, List.not_mem_nil, or_false] at hpart
    rcases hpart with rfl | rfl
    · exact ⟨"n", by decide +kernel⟩
    · exact ⟨"é", by decide +kernel⟩
  obtain ⟨_, hheard, hunrepaired⟩ :=
    heard_whole_iff (s := accented) accented.live rfl (writesPart_accented htext) htext
  exact ⟨htext, hheard.2 htexts, hunrepaired.2 htexts⟩

theorem not_heard_whole_accented :
    [⟨#[0x6E, 0xC3]⟩, ⟨#[0xA9]⟩].flatMap ByteArray.toList = "né".toUTF8.toList ∧
      ¬accented.HeardAs (accentedCalls [⟨#[0x6E, 0xC3]⟩, ⟨#[0xA9]⟩]) "né" ∧
      ¬accented.HeardUnrepaired (accentedCalls [⟨#[0x6E, 0xC3]⟩, ⟨#[0xA9]⟩]) := by
  have htext : [⟨#[0x6E, 0xC3]⟩, ⟨#[0xA9]⟩].flatMap ByteArray.toList = "né".toUTF8.toList := by
    decide +kernel
  have hbroken : ¬∀ part ∈ ([⟨#[0x6E, 0xC3]⟩, ⟨#[0xA9]⟩] : List ByteArray),
      Utf8.IsText part.toList := by
    intro htexts
    have hlast := htexts ⟨#[0xA9]⟩ (by simp)
    exact Utf8.not_beginsInside_of_isText hlast ⟨0xA9, by decide +kernel, by decide⟩
  have hwrites := writesPart_accented htext
  exact ⟨htext, mt (heardAs_iff (s := accented) accented.live rfl hwrites htext).1 hbroken,
    mt (heardUnrepaired_iff (s := accented) accented.live rfl hwrites htext).1 hbroken⟩

end Session

end CompilerHost
