import CompilerHost.Proofs.Bump
import CompilerHost.Proofs.Encoding
import CompilerHost.Proofs.Speech
import CompilerHost.Pipeline

/-! # A guest that echoes

A guest that stands in for a compiler. It says which options it was given, and its output is the
source, behind the four bytes that open an ELF file.

* `standIn` is the guest, with `compiling` as the code of its entry point;
* `ends_call_stringLength`: it finds the end of a text by the zero behind it;
* `Echoed` is what a compile comes to, and `ends_compiling` that it does, instruction by
  instruction, with the fuel that this takes;
* `echoingFuel` bounds that fuel by the lengths of the texts, and `run_echoCompiler` is what the host
  gets to see of it.
-/

namespace CompilerHost.Binary

open Operation

/-! ## Counting up to a zero -/

/-- Counts bytes in local 1 until one is zero. -/
def scanning : List Instruction :=
  [.localGet 0, .localGet 1, .operate addWords, .load (.plain .i32 1) 0, .operate isZeroWord,
    .branchIf 1,
    .localGet 1, .constant .i32 1, .operate addWords, .localSet 1,
    .branch 0]

/-- The number of bytes from a place up to the first zero. -/
def lengthCode : List Instruction :=
  [.block (.plain none) [.loop (.plain none) scanning], .localGet 1]

def stringLength : Callee := ⟨⟨[.i32], [.i32]⟩, .code 1 lengthCode⟩

/-- The first zero is right behind bytes that have none. -/
theorem byte_eq_zero_iff {m : Memory} {start : Nat} {bytes : List UInt8}
    (hheld : m.Holds start (bytes ++ [0])) (hzero : 0 ∉ bytes) {n : Nat} (hn : n ≤ bytes.length) :
    m.byte (start + n) = 0 ↔ n = bytes.length := by
  rcases Nat.lt_or_eq_of_le hn with hlt | rfl
  · have hbyte := hheld.content n (by rw [List.length_append]; omega)
    rw [List.getElem_append_left hlt] at hbyte
    rw [hbyte]
    constructor
    · intro hnull
      exact absurd (hnull ▸ List.getElem_mem hlt) hzero
    · intro hend
      exact absurd hend (Nat.ne_of_lt hlt)
  · rw [hheld.content bytes.length (by simp), List.getElem_concat_length rfl]
    exact ⟨fun _ => rfl, fun _ => rfl⟩

section

variable {p : Program} {outcome : Shared → Except Trap (List Nat) → Prop} {s : Shared}
  {waiting : List Activation} {start after : Nat} {bytes : List UInt8} {rest : List Instruction}

/-- The loop stops at the first zero. It goes round once for each byte, with eleven instructions. -/
theorem ends_scanning (after : Nat) (hheld : s.memory.Holds start (bytes ++ [0]))
    (hzero : 0 ∉ bytes)
    (hword : start + bytes.length < 2 ^ 32)
    (hends : Ends p outcome after s waiting ⟨1, #[start, bytes.length], [], rest, []⟩)
    (n : Nat) (hn : n ≤ bytes.length) :
    Ends p outcome (11 * (bytes.length - n) + after + 6) s waiting
      ⟨1, #[start, n], [⟨0, rest, rest, []⟩], [.loop (.plain none) scanning], []⟩ := by
  have hfits := hheld.fits
  rw [List.length_append, List.length_singleton] at hfits
  -- by what is left up to the zero
  induction hleft : bytes.length - n using Nat.strongRecOn generalizing n with
  | ind left ih =>
      have hend : (s.memory.byte (start + n)).toNat = 0 ↔ n = bytes.length := by
        rw [← byte_eq_zero_iff hheld hzero hn, ← UInt8.toNat_inj, UInt8.toNat_zero]
      refine .loop ?_
      refine .compute 3 (scanning.drop 3) #[start, n] [start + n] ?_ ?_
      · rw [← Nat.mod_eq_of_lt (show start + n < 2 ^ 32 by omega)]
        rfl
      refine .load8 (by omega) ?_
      refine .compute 1 (scanning.drop 5) _
        [flag (decide ((s.memory.byte (start + n)).toNat = 0))] rfl ?_
      refine .branchIf rfl ?_ ?_
      · intro hflag
        have hne := mt hend.2 (flag_eq_zero_decide.1 hflag)
        have hround : 11 * (bytes.length - (n + 1)) + after + 11 ≤ 11 * left + after := by omega
        refine .mono ?_ hround
        refine .compute 4 [.branch 0] #[start, n + 1] [] ?_ ?_
        · rw [← Nat.mod_eq_of_lt (show n + 1 < 2 ^ 32 by omega)]
          rfl
        refine .branch rfl ?_
        exact ih (bytes.length - (n + 1)) (by omega) (n + 1) (by omega) rfl
      · intro hflag
        have hnull := Decidable.not_not.1 (mt flag_eq_zero_decide.2 hflag)
        rw [hend.1 hnull]
        exact hends.mono (Nat.le_add_left _ _)

variable {results : Nat} {locals : Array Nat} {labels : List Label} {values : List Nat}

/-- Of bytes with a zero behind them, the length is counted. -/
theorem ends_call_stringLength (after : Nat) {f : Nat}
    (hcallee : p.functions[f]? = some stringLength)
    (hheld : s.memory.Holds start (bytes ++ [0])) (hzero : 0 ∉ bytes)
    (hword : start + bytes.length < 2 ^ 32) (hdepth : waiting.length < Machine.maxDepth)
    (h : Ends p outcome after s waiting ⟨results, locals, labels, rest, bytes.length :: values⟩) :
    Ends p outcome (11 * bytes.length + after + 9) s waiting
      ⟨results, locals, labels, .call f :: rest, start :: values⟩ := by
  refine .call hcallee rfl hdepth ?_
  refine .block ?_
  refine (ends_scanning (after + 1) hheld hzero hword ?_ 0 (Nat.zero_le _)).mono ?_
  · refine .compute 1 [] _ [bytes.length] rfl ?_
    exact .finish (.inl ⟨rfl, rfl⟩) h
  · omega

end

/-! ## The code -/

/-- Writes a text to the log that is in memory from a place on. -/
def saying (start length : Nat) : List Instruction :=
  [.constant .i32 start, .constant .i32 length, .call 0]

/-- Returns a length without an output. -/
def declining (length : Nat) : List Instruction :=
  [.constant .i32 4, .call 2, .localSet 3,
    .localGet 3, .constant .i32 length, .store ⟨.i32, 4⟩ 0,
    .localGet 3, .leave]

/-- Declines a source that begins with a byte. -/
def decliningAt (byte length : Nat) : List Instruction :=
  [.localGet 1, .load (.plain .i32 1) 0, .constant .i32 byte, .operate (compareWords .equal),
    .choose (.plain none) (declining length) []]

/-- Returns the source as the output, behind four bytes that open an ELF file. -/
def echoing : List Instruction :=
  [.localGet 2, .constant .i32 8, .operate addWords, .call 2, .localSet 3,
    .localGet 3, .localGet 2, .constant .i32 4, .operate addWords, .store ⟨.i32, 4⟩ 0,
    .localGet 3, .constant .i32 4, .operate addWords, .constant .i32 0x464C457F, .store ⟨.i32, 4⟩ 0,
    .localGet 3, .constant .i32 8, .operate addWords, .localGet 1, .localGet 2, .memoryCopy] ++
  saying 80 7 ++ [.call 1, .localGet 3]

/-- Tells the options, which are in local 0, and echoes the source in local 1, or declines it. -/
def compiling : List Instruction :=
  saying 16 13 ++ [.localGet 0, .localGet 0, .call 3, .call 0, .call 1] ++
  [.localGet 1, .call 3, .localSet 2, .localGet 2, .operate isZeroWord,
    .choose (.plain none) (saying 48 16 ++ .call 1 :: declining 0) []] ++
  decliningAt 33 0xFFFFFFFF ++ decliningAt 63 0x7FFFFFFF ++ echoing

/-- The guest. Its heap goes on from 4096, above its texts, and the image goes there as well. -/
def standIn : Module where
  types := [⟨[.i32, .i32], []⟩, ⟨[], []⟩, Guest.allocatorType, ⟨[.i32, .i32], [.i32]⟩]
  imports := [⟨hostModule, logWriteImport, .function 0⟩, ⟨hostModule, logFlushImport, .function 1⟩]
  functions := [2, 2, 2, 3]
  tables := []
  memories := [⟨1, 1, some 16⟩]
  globals := [(⟨some .i32, 1⟩, [.constant .i32 4096])]
  exports := [⟨Guest.memoryExport, 2, 0⟩, ⟨Guest.allocatorExport, 0, 2⟩,
    ⟨Guest.imageAllocatorExport, 0, 4⟩, ⟨compileExport, 0, 5⟩]
  start := none
  elements := []
  dataCount := none
  codes := [⟨[.i32, .i32], allocatorCode 0⟩, ⟨[.i32], lengthCode⟩, ⟨[], [.localGet 0, .call 2]⟩,
    ⟨[.i32, .i32], compiling⟩]
  data := [⟨some [.constant .i32 16], "tcc: options ".toUTF8.data.toList⟩,
    ⟨some [.constant .i32 48], "error: no source".toUTF8.data.toList⟩,
    ⟨some [.constant .i32 80], "tcc: ok".toUTF8.data.toList⟩]

def logWrite : Callee := ⟨⟨[.i32, .i32], []⟩, Module.importedBody hostModule logWriteImport⟩

def logFlush : Callee := ⟨⟨[], []⟩, Module.importedBody hostModule logFlushImport⟩

def echoCompiler : Callee := ⟨⟨[.i32, .i32], [.i32]⟩, .code 2 compiling⟩

/-- What a compile of the echoing guest comes to. -/
inductive Echoed (options : String) (source : List UInt8) (s : Shared) :
    Except Trap (List Nat) → Prop
  /-- There is no more fuel. -/
  | stopped (speech : List Utterance) (hsaid : standIn.guest.Says s.calls.reverse speech) :
      Echoed options source s (.error .outOfFuel)
  /-- The options were told first, and there is an output. -/
  | done (place : Nat) (last : String)
      (hsaid : standIn.guest.Says s.calls.reverse
        [.words "tcc: options ", .words options, .blockEnd, .words last, .blockEnd])
      (hheld : s.memory.Holds place
        (Memory.wordBytes (UInt32.ofNat (source.length + 4)) ++ (ArtifactKind.elfMagic ++ source)))
      (hplace : place + lengthBytes.toNat < 2 ^ 32) :
      Echoed options source s (.ok [place])

section

variable {options : String} {source : List UInt8} {state : State} {memory : Memory}
  {calls : List (HostCall × Instance State)} {speech : List Utterance}
  {waiting : List Activation} {results after : Nat} {locals : Array Nat} {labels : List Label}
  {rest : List Instruction} {values : List Nat}

theorem ends_write {start length : Nat} {text : String} {repaired : Bool}
    (hsaid : standIn.guest.Says calls.reverse speech)
    (hread : memory.readTextLossy ⟨UInt32.ofNat start⟩ (UInt32.ofNat length).toNat =
      .ok (text, repaired))
    (h : ∀ calls, standIn.guest.Says calls.reverse (speech ++ [.words text]) →
      Ends standIn.program (Echoed options source) after ⟨state, memory, calls⟩ waiting
        ⟨results, locals, labels, rest, values⟩) :
    Ends standIn.program (Echoed options source) (after + 1) ⟨state, memory, calls⟩ waiting
      ⟨results, locals, labels, .call 0 :: rest, length :: start :: values⟩ := by
  have hcallee : standIn.program.functions[0]? = some logWrite := rfl
  refine .callHost hcallee rfl (.stopped speech hsaid) ?_
  intro fuel
  refine h _ ?_
  rw [List.reverse_cons]
  refine hsaid.snoc ?_
  exact HostCall.utterance?_write rfl hread

theorem ends_flush (hsaid : standIn.guest.Says calls.reverse speech)
    (h : ∀ calls, standIn.guest.Says calls.reverse (speech ++ [.blockEnd]) →
      Ends standIn.program (Echoed options source) after ⟨state, memory, calls⟩ waiting
        ⟨results, locals, labels, rest, values⟩) :
    Ends standIn.program (Echoed options source) (after + 1) ⟨state, memory, calls⟩ waiting
      ⟨results, locals, labels, .call 1 :: rest, values⟩ := by
  have hcallee : standIn.program.functions[1]? = some logFlush := rfl
  refine .callHost hcallee rfl (.stopped speech hsaid) ?_
  intro fuel
  refine h _ ?_
  rw [List.reverse_cons]
  exact hsaid.snoc rfl

/-- A length, a mark and a source that are put behind each other stand there, if the first two do
not go over the source before it is copied. -/
theorem holds_echo {place start : Nat} (head mark : List UInt8)
    (hheld : memory.Holds start source)
    (hfits : place + head.length + mark.length + source.length ≤ memory.size)
    (hapart : start + source.length ≤ place ∨ place + head.length + mark.length ≤ start) :
    let marked := (memory.overwrite place head).overwrite (place + head.length) mark
    (marked.overwrite (place + head.length + mark.length)
      (marked.slice start source.length).toList).Holds place (head ++ (mark ++ source)) := by
  intro marked
  have hhead : place + head.length ≤ memory.size := by omega
  have hmark : place + head.length + mark.length ≤ (memory.overwrite place head).size := by
    rw [Memory.size_overwrite]
    omega
  -- the source is read when the two others have been written, and they are apart from it
  have hsource : marked.Holds start source := by
    refine Memory.Holds.of_overwrite (hheld.of_overwrite hhead ?_) hmark ?_
    · omega
    · omega
  rw [hsource.slice]
  -- the copy may go over the source itself, but not over the two others
  have hlast : place + head.length + mark.length + source.length ≤ marked.size := by
    rw [Memory.size_overwrite, Memory.size_overwrite]
    exact hfits
  have hfirst : marked.Holds place head :=
    (Memory.holds_overwrite memory hhead).of_overwrite hmark (.inl (Nat.le_refl _))
  have hsecond : marked.Holds (place + head.length) mark := Memory.holds_overwrite _ hmark
  refine (hfirst.of_overwrite hlast (.inl (Nat.le_add_right _ _))).append ?_
  refine (hsecond.of_overwrite hlast (.inl (Nat.le_refl _))).append ?_
  exact Memory.holds_overwrite _ hlast

theorem lowerBytes_four {n : Nat} (h : n < 2 ^ 32) :
    Machine.lowerBytes 4 n = Memory.wordBytes (UInt32.ofNat n) := by
  rw [Memory.wordBytes, UInt32.toNat_ofNat_of_lt' h]
  rfl

/-- An output that is in memory is reported. The text that is told by then may be a part of it. -/
theorem ends_reporting {place start o : Nat}
    (hsaid : standIn.guest.Says calls.reverse
      [.words "tcc: options ", .words options, .blockEnd])
    (hheld : memory.Holds place
      (Memory.wordBytes (UInt32.ofNat (source.length + 4)) ++ (ArtifactKind.elfMagic ++ source)))
    (hplace : place + lengthBytes.toNat < 2 ^ 32) (hleast : 87 ≤ memory.size) :
    Ends standIn.program (Echoed options source) 5 ⟨state, memory, calls⟩ [.taking 1]
      ⟨1, #[o, start, source.length, place], [], echoing.drop 21, []⟩ := by
  have hfits : memory.Fits ⟨80⟩ 7 := hleast
  obtain ⟨last, repaired, hread⟩ := Memory.readTextLossy_of_fits hfits
  refine .compute 2 (echoing.drop 23) _ [7, 80] rfl ?_
  refine ends_write hsaid hread ?_
  intro calls hsaid
  refine ends_flush hsaid ?_
  intro calls hsaid
  refine .compute 1 [] _ [place] rfl ?_
  refine .finish (.inl ⟨rfl, rfl⟩) ?_
  exact .done (.done place last hsaid hheld hplace) (.stopped _ hsaid)

/-- Where there is room for the output, it is written; the source is there until it is copied. -/
theorem ends_echoing {place start o : Nat}
    (hsaid : standIn.guest.Says calls.reverse
      [.words "tcc: options ", .words options, .blockEnd])
    (hheld : memory.Holds start source) (hfits : place + 8 + source.length ≤ memory.size)
    (hapart : start + source.length ≤ place ∨ place + 8 ≤ start)
    (hleast : 87 ≤ memory.size) (hmost : memory.size < 2 ^ 32) :
    Ends standIn.program (Echoed options source) 22 ⟨state, memory, calls⟩ [.taking 1]
      ⟨1, #[o, start, source.length, 0], [], echoing.drop 4, [place]⟩ := by
  have hstopped : ∀ m, Echoed options source ⟨state, m, calls⟩ (.error .outOfFuel) :=
    fun m => .stopped _ hsaid
  have hlength : source.length + 4 < 2 ^ 32 := by omega
  have hecho := holds_echo (Memory.wordBytes (UInt32.ofNat (source.length + 4)))
    ArtifactKind.elfMagic hheld hfits hapart
  refine .compute 5 (echoing.drop 9) #[o, start, source.length, place]
    [source.length + 4, place] ?_ ?_
  · rw [← Nat.mod_eq_of_lt hlength]
    rfl
  refine .store (hstopped _) (show place + 0 + 4 ≤ memory.size by omega) ?_
  rw [lowerBytes_four hlength]
  refine .compute 4 (echoing.drop 14) #[o, start, source.length, place]
    [0x464C457F, place + 4] ?_ ?_
  · rw [← Nat.mod_eq_of_lt (show place + 4 < 2 ^ 32 by omega)]
    rfl
  refine .store (hstopped _) ?_ ?_
  · show place + 4 + 0 + 4 ≤ _
    rw [Memory.size_overwrite]
    show place + 4 + 0 + 4 ≤ memory.size
    omega
  refine .compute 5 (echoing.drop 20) #[o, start, source.length, place]
    [source.length, start, place + 8] ?_ ?_
  · rw [← Nat.mod_eq_of_lt (show place + 8 < 2 ^ 32 by omega)]
    rfl
  refine .memoryCopy (hstopped _) ?_ ?_ ?_
  · rw [Memory.size_overwrite, Memory.size_overwrite]
    exact hheld.fits
  · rw [Memory.size_overwrite, Memory.size_overwrite]
    exact hfits
  refine ends_reporting hsaid hecho (show place + 4 < 2 ^ 32 by omega) ?_
  rw [Memory.size_overwrite, Memory.size_overwrite, Memory.size_overwrite]
  exact hleast

theorem ends_decliningAt {p : Program} {outcome : Shared → Except Trap (List Nat) → Prop}
    {s : Shared} {o start n byte length : Nat} (hplace : start < s.memory.size)
    (hbyte : (s.memory.byte start).toNat ≠ byte)
    (h : Ends p outcome after s waiting ⟨1, #[o, start, n, 0], [], rest, []⟩) :
    Ends p outcome (after + 5) s waiting
      ⟨1, #[o, start, n, 0], [], decliningAt byte length ++ rest, []⟩ := by
  have hother : compared .equal (s.memory.byte start).toNat byte = 0 :=
    compared_equal_eq_zero.2 hbyte
  refine .compute 1 (.load (.plain .i32 1) 0 :: (decliningAt byte length ++ rest).drop 2) _ [start]
    rfl ?_
  refine .load8 hplace ?_
  refine .compute 2 (.choose (.plain none) (declining length) [] :: rest) _
    [compared .equal (s.memory.byte start).toNat byte] rfl ?_
  refine .choose (fun _ => ?_) fun h => absurd hother h
  exact .close h

/-- What the guest finds when it is to compile: its own text, and the inputs, on top of which the
heap goes on. -/
structure Handed (options : String) (source : List UInt8) (state : State) (memory : Memory)
    (o start : Nat) : Prop where
  greeting : memory.Holds 16 "tcc: options ".toUTF8.toList
  optionsText : memory.Holds o (options.toUTF8.toList ++ [0])
  sourceText : memory.Holds start (source ++ [0])
  low : 87 ≤ start
  heap : ∃ next, state.globals[0]? = some next ∧ start + source.length < next ∧ next < 2 ^ 32
  within : memory.Within 16

/-- The options are told, behind the greeting. -/
theorem ends_telling {o start : Nat} (h : Handed options source state memory o start)
    (hoptions : 0 ∉ options.toUTF8.toList)
    (hends : ∀ calls, standIn.guest.Says calls.reverse
        [.words "tcc: options ", .words options, .blockEnd] →
      Ends standIn.program (Echoed options source) after ⟨state, memory, calls⟩ [.taking 1]
        ⟨1, #[o, start, 0, 0], [], compiling.drop 8, []⟩) :
    Ends standIn.program (Echoed options source)
      (11 * options.toUTF8.toList.length + after + 16) ⟨state, memory, []⟩ [.taking 1]
      ⟨1, #[o, start, 0, 0], [], compiling, []⟩ := by
  have hsize : memory.size < 2 ^ 32 := Nat.lt_of_le_of_lt h.within.size_le (by decide)
  have hplaced := h.optionsText.fits
  rw [List.length_append, List.length_singleton] at hplaced
  have hsaid : standIn.guest.Says [].reverse [] := rfl
  refine .compute 2 (compiling.drop 2) _ [13, 16] rfl ?_
  refine ends_write hsaid (Memory.readTextLossy_of_holds (a := ⟨16⟩) h.greeting) ?_
  intro calls hsaid
  refine .compute 2 (compiling.drop 5) _ [o, o] rfl ?_
  refine .mono (ends_call_stringLength (after + 2) rfl h.optionsText hoptions (by omega)
    (show 1 < Machine.maxDepth by decide) ?_) (by omega)
  have hread : memory.readTextLossy ⟨UInt32.ofNat o⟩
      (UInt32.ofNat options.toUTF8.toList.length).toNat = .ok (options, false) := by
    have hplace : (UInt32.ofNat o).toNat = o :=
      UInt32.toNat_ofNat_of_lt' (show o < 2 ^ 32 by omega)
    have hlength : (UInt32.ofNat options.toUTF8.toList.length).toNat = options.toUTF8.size := by
      rw [UInt32.toNat_ofNat_of_lt' (show options.toUTF8.toList.length < 2 ^ 32 by omega)]
      exact length_toList_byteArray _
    rw [hlength]
    refine Memory.readTextLossy_of_holds ?_
    show memory.Holds (UInt32.ofNat o).toNat _
    rw [hplace]
    exact h.optionsText.front
  refine ends_write hsaid hread ?_
  intro calls hsaid
  refine ends_flush hsaid ?_
  exact hends

/-- A source is taken if it has something in it, and does not begin with what the guest declines. -/
theorem ends_taking {outcome : Shared → Except Trap (List Nat) → Prop} {s : Shared} {o start : Nat}
    (hheld : s.memory.Holds start (source ++ [0])) (hsource : 0 ∉ source)
    (hword : s.memory.size < 2 ^ 32) {first : UInt8} (hfirst : source.head? = some first)
    (hplain : first ≠ 33 ∧ first ≠ 63)
    (hends : Ends standIn.program outcome after s [.taking 1]
      ⟨1, #[o, start, source.length, 0], [], echoing, []⟩) :
    Ends standIn.program outcome (11 * source.length + after + 24) s [.taking 1]
      ⟨1, #[o, start, 0, 0], [], compiling.drop 8, []⟩ := by
  have hplaced := hheld.fits
  rw [List.length_append, List.length_singleton] at hplaced
  refine .compute 1 (compiling.drop 9) _ [start] rfl ?_
  refine .mono (ends_call_stringLength (after + 14) rfl hheld hsource (by omega)
    (show 1 < Machine.maxDepth by decide) ?_) (by omega)
  refine .compute 3 (compiling.drop 13) #[o, start, source.length, 0]
    [flag (decide (source.length = 0))] rfl ?_
  have hsome : flag (decide (source.length = 0)) = 0 := by
    refine flag_eq_zero_decide.2 ?_
    intro hnone
    rw [List.length_eq_zero_iff.1 hnone] at hfirst
    cases hfirst
  refine .choose (fun _ => ?_) fun h => absurd hsome h
  refine .close ?_
  have hbyte : ∀ b : UInt8, first ≠ b → (s.memory.byte start).toNat ≠ b.toNat := by
    obtain ⟨tail, rfl⟩ := List.head?_eq_some_iff.1 hfirst
    have hheld : s.memory.byte start = first := hheld.content 0 (Nat.zero_lt_succ _)
    intro b hb heq
    exact hb (hheld.symm.trans (UInt8.toNat_inj.1 heq))
  have hplace : start < s.memory.size := by omega
  show Ends standIn.program _ (after + 5 + 5) _ _ ⟨1, #[o, start, source.length, 0], [],
    decliningAt 33 0xFFFFFFFF ++ (decliningAt 63 0x7FFFFFFF ++ echoing), []⟩
  refine ends_decliningAt hplace (hbyte 33 hplain.1) ?_
  exact ends_decliningAt hplace (hbyte 63 hplain.2) hends

/-- The whole code, for a source that it takes. -/
theorem ends_compiling {o start : Nat} (h : Handed options source state memory o start)
    (hoptions : 0 ∉ options.toUTF8.toList) (hsource : 0 ∉ source)
    {first : UInt8} (hfirst : source.head? = some first) (hplain : first ≠ 33 ∧ first ≠ 63) :
    Ends standIn.program (Echoed options source)
      (11 * options.toUTF8.toList.length +
        (11 * source.length + (12 * memory.growth + 52) + 24) + 16)
      ⟨state, memory, []⟩ [.taking 1] ⟨1, #[o, start, 0, 0], [], compiling, []⟩ := by
  have hmost : ∀ m, Memory.Within m 16 → m.size < 2 ^ 32 :=
    fun m hm => Nat.lt_of_le_of_lt hm.size_le (by decide)
  have hplaced := h.sourceText.fits
  have hlow := h.low
  rw [List.length_append, List.length_singleton] at hplaced
  refine ends_telling h hoptions ?_
  intro calls hsaid
  refine ends_taking h.sourceText hsource (hmost memory h.within) hfirst hplain ?_
  obtain ⟨next, hnext, hbelow, hword⟩ := h.heap
  have hsize := hmost memory h.within
  have hroom : source.length + 8 < 2 ^ 32 := by omega
  refine .compute 3 (echoing.drop 3) #[o, start, source.length, 0] [source.length + 8] ?_ ?_
  · rw [← Nat.mod_eq_of_lt hroom]
    rfl
  have hechoing : ∀ s place (m : Memory), memory.Grown m → place + 8 + source.length ≤ m.size →
      (start + source.length ≤ place ∨ place + 8 ≤ start) →
      Ends standIn.program (Echoed options source) 22 ⟨s, m, calls⟩ [.taking 1]
        ⟨1, #[o, start, source.length, 0], [], echoing.drop 4, [place]⟩ := by
    intro s place m hgrown hfits hapart
    have hmore : memory.size ≤ m.size := hgrown.toExtends.size
    refine ends_echoing hsaid (h.sourceText.front.of_extends hgrown.toExtends) hfits hapart ?_ ?_
    · omega
    · exact hmost m (hgrown.within h.within)
  refine ends_call_allocator 22 (s := ⟨state, memory, calls⟩) rfl hnext hword hroom
    (show 1 < Machine.maxDepth by decide) (fun m _ => .stopped _ hsaid) ?_ ?_
  · intro m hgrown _
    -- there is no room, and the output goes to the null address, below the source
    have hmore : memory.size ≤ m.size := hgrown.toExtends.size
    exact hechoing _ 0 m hgrown (by omega) (.inr (by omega))
  · intro m hgrown _ hfits
    exact hechoing _ next m hgrown (by omega) (.inl (by omega))

/-- So much fuel is enough for a compile: eleven units for each byte that is looked at, twelve for
each page that memory may add, and the rest of the code. -/
def echoingFuel (options : String) (source : List UInt8) (m : Memory) : Nat :=
  11 * (options.toUTF8.toList.length + source.length) + 12 * m.growth + 93

/-- Handed a source that it takes, the guest leaves its output in memory, unless there was not fuel
enough; either way its calls to the host do not fail. -/
theorem run_echoCompiler {live : Instance State} {o start : Nat}
    (h : Handed options source live.globals live.memory o start)
    (hoptions : 0 ∉ options.toUTF8.toList) (hsource : 0 ∉ source)
    {first : UInt8} (hfirst : source.head? = some first) (hplain : first ≠ 33 ∧ first ≠ 63) :
    let e := standIn.program.run echoCompiler [o, start] live
    (∃ speech, standIn.guest.Says e.calls speech ∧ e.ending = .error .outOfFuel ∧
      live.fuel.toNat < echoingFuel options source live.memory) ∨
    ∃ (result : UInt32) (last : String),
      standIn.guest.Says e.calls
        [.words "tcc: options ", .words options, .blockEnd, .words last, .blockEnd] ∧
      e.ending = .ok result ∧ result.toNat + lengthBytes.toNat < 2 ^ 32 ∧
      e.final.memory.Holds result.toNat
        (Memory.wordBytes (UInt32.ofNat (source.length + 4)) ++
          (ArtifactKind.elfMagic ++ source)) := by
  intro e
  have hargs : [o, start].length = echoCompiler.type.params.length := rfl
  have hends := ends_compiling h hoptions hsource hfirst hplain
  obtain ⟨s, ending, hechoed, hcalls, hending, hmemory, -, henough⟩ :=
    Program.run_of_ends rfl hargs (11 * (options.toUTF8.toList.length + source.length) +
      12 * live.memory.growth + 91) (hends.mono (by omega))
  cases hechoed with
  | stopped speech hsaid =>
      rw [← hcalls] at hsaid
      refine .inl ⟨speech, hsaid, hending, ?_⟩
      refine Nat.not_le.1 fun hfuel => ?_
      exact (henough hfuel).1 rfl
  | done place last hsaid hheld hplace =>
      rw [← hcalls] at hsaid
      rw [← hmemory] at hheld
      have hresult : (UInt32.ofNat place).toNat = place :=
        UInt32.toNat_ofNat_of_lt' (Nat.lt_of_le_of_lt (Nat.le_add_right _ _) hplace)
      refine .inr ⟨UInt32.ofNat place, last, hsaid, hending, ?_, ?_⟩
      · rw [hresult]
        exact hplace
      · rw [hresult]
        exact hheld

end

end CompilerHost.Binary
