import CompilerHost.Proofs.Inspection
import CompilerHost.Proofs.BinaryForms

/-! # Framed sections

Sections are framed: whatever is in one, its id and its size say where the next begins. So what is
inspected first is told first, and is not told otherwise because of anything behind it.

* `Binary.sectionsManifest_frame`: one section, and then the rest;
* `Binary.sectionsManifest_append`: framed sections, and then the rest;
* `Binary.inspect_append`: the same of binaries, whichever of them are refused.
-/

namespace CompilerHost

theorem toList_append_byteArray (a b : ByteArray) : (a ++ b).toList = a.toList ++ b.toList := by
  simp only [toList_byteArray, ByteArray.data_append, Array.toList_append]

theorem toList_extract_byteArray (b : ByteArray) (n : Nat) :
    (b.extract 0 n).toList = b.toList.take n := by
  rw [toList_byteArray, toList_byteArray, ByteArray.data_extract, Array.toList_extract]
  rfl

namespace Binary

/-! ## Headers -/

/-- The header of a module of some version. -/
inductive ModuleHeader : List UInt8 → Prop where
  | header (low high : UInt8) : ModuleHeader (magic ++ [low, high, 0, 0])

/-- Behind the header of a module there are its sections, and nothing else is inspected. -/
theorem inspect_of_header {header w : List UInt8} {bytes : ByteArray}
    (hheader : ModuleHeader header) (h : bytes.toList = header ++ w) :
    inspect bytes = sectionsManifest w := by
  obtain ⟨low, high⟩ := hheader
  have hencoding : encoding? (bytes.extract 0 headerBytes).toList =
      some (.module (low.toNat + 256 * high.toNat)) := by
    rw [toList_extract_byteArray, h]
    rfl
  rw [inspect_eq, hencoding, h]
  rfl

/-! ## Frames -/

/-- A section in its frame: its id, the size of its content, and that. The id may be one that no
section has, and the content may be anything. -/
inductive FrameForm : Section → List UInt8 → Prop where
  | framed {s : Section} {w : List UInt8} (hsize : Unsigned 32 s.content.length w) :
      FrameForm s (s.id :: (w ++ s.content))

theorem frameForm_writeSection {id : UInt8} {content : List UInt8} (h : content.length < 2 ^ 32) :
    FrameForm ⟨id, content⟩ (writeSection id content) :=
  .framed (unsigned_writeUnsigned h)

/-- Sections in their frames, one behind the other. -/
def Framed (bytes : List UInt8) : Prop := ∃ sections, ItemsForm FrameForm sections bytes

theorem section?_frame {s : Section} {v : List UInt8} (h : FrameForm s v)
    (rest : List UInt8) : section? (v ++ rest) = if s.id < 0x80 then some (s, rest) else none := by
  rcases h with ⟨hsize⟩
  rw [List.cons_append, List.append_assoc]
  simp only [section?, byte_cons, reads_u32 _ _ _ hsize, take_append, Option.bind_eq_bind,
    Option.bind_some]

/-- A section is told of, and then the rest is, unless its id is one that no section has. -/
theorem sectionsManifest_frame {s : Section} {v : List UInt8} (h : FrameForm s v)
    (rest : List UInt8) :
    sectionsManifest (v ++ rest) =
      if s.id < 0x80 then
        sectionManifest s >>= fun first => (sectionsManifest rest).map (first ++ ·)
      else .error .unparsableBinary := by
  have hsection := section?_frame h rest
  rcases h with ⟨hsize⟩
  rw [List.cons_append] at hsection ⊢
  rw [sectionsManifest]
  by_cases hid : s.id < 0x80
  · rw [if_pos hid] at hsection ⊢
    split
    · rename_i hnone
      rw [hsection] at hnone
      cases hnone
    · rename_i hsome
      rw [hsection] at hsome
      cases hsome
      cases sectionManifest s with
      | error e => rfl
      | ok first => rfl
  · -- with such an id nothing is made out, whatever the content is
    rw [if_neg hid] at hsection ⊢
    split
    · rfl
    · rename_i hsome
      rw [hsection] at hsome
      cases hsome

/-- What framed sections tell comes first, and a reason to refuse them is the reason whatever
follows. The induction is on the sections; nothing is carried from one to the next. -/
theorem sectionsManifest_append {sections : List Section} {a : List UInt8}
    (h : ItemsForm FrameForm sections a) (b : List UInt8) :
    sectionsManifest (a ++ b) =
      sectionsManifest a >>= fun m => (sectionsManifest b).map (m ++ ·) := by
  induction h with
  | nil =>
      have hnone : sectionsManifest [] = .ok .empty := by rw [sectionsManifest]
      rw [List.nil_append, hnone]
      cases sectionsManifest b with
      | error e => rfl
      | ok n => rfl
  | @cons s _ v w hfirst _ ih =>
      rw [List.append_assoc, sectionsManifest_frame hfirst, sectionsManifest_frame hfirst, ih]
      split
      · cases sectionManifest s with
        | error e => rfl
        | ok first =>
            cases sectionsManifest w with
            | error e => rfl
            | ok m =>
                cases sectionsManifest b with
                | error e => rfl
                | ok n => exact congrArg Except.ok (Manifest.append_assoc first m n).symm
      · rfl

/-- Inspection goes on from section to section. If the sections in front are refused, then for the
same reason with anything behind them. If they are not, then what is behind them is refused for the
reason for which it would be by itself, or its names are added to theirs. -/
theorem inspect_append {header a : ByteArray} (hheader : ModuleHeader header.toList)
    (hframed : Framed a.toList) (b : ByteArray) :
    (∀ e, inspect (header ++ a) = .error e → inspect (header ++ a ++ b) = .error e) ∧
    ∀ m, inspect (header ++ a) = .ok m →
      (∀ e, inspect (header ++ b) = .error e → inspect (header ++ a ++ b) = .error e) ∧
      ∀ n, inspect (header ++ b) = .ok n →
        inspect (header ++ a ++ b) = .ok ⟨m.imports ++ n.imports, m.exports ++ n.exports⟩ := by
  obtain ⟨sections, hsections⟩ := hframed
  -- the same header is in front of all three
  have hfront : inspect (header ++ a) = sectionsManifest a.toList :=
    inspect_of_header hheader (toList_append_byteArray header a)
  have hbehind : inspect (header ++ b) = sectionsManifest b.toList :=
    inspect_of_header hheader (toList_append_byteArray header b)
  have hboth : inspect (header ++ a ++ b) =
      sectionsManifest a.toList >>= fun m => (sectionsManifest b.toList).map (m ++ ·) := by
    rw [← sectionsManifest_append hsections]
    refine inspect_of_header hheader ?_
    rw [toList_append_byteArray, toList_append_byteArray, List.append_assoc]
  rw [hfront, hbehind, hboth]
  constructor
  · intro e he
    rw [he]
    rfl
  · intro m hm
    rw [hm]
    constructor
    · intro e he
      rw [he]
      rfl
    · intro n hn
      rw [hn]
      rfl

/-- Results can be compared if what they hold can be. -/
instance decidableEqExcept {ε α : Type} [DecidableEq ε] [DecidableEq α] :
    DecidableEq (Except ε α)
  | .ok a, .ok b => decidable_of_iff (a = b) ⟨congrArg Except.ok, Except.ok.inj⟩
  | .error e, .error f => decidable_of_iff (e = f) ⟨congrArg Except.error, Except.error.inj⟩
  | .ok _, .error _ => isFalse fun h => by cases h
  | .error _, .ok _ => isFalse fun h => by cases h

/-- A section of an import that is not there. -/
def foreignImport : ByteArray :=
  ⟨(writeSection 2 (writeCounted (writeFunctionImport hostModule · 0) ["f"])).toArray⟩

/-- An import that is not there is told of, whatever comes behind its section. -/
theorem inspect_append_garbage :
    inspect (⟨writeHeader.toArray⟩ ++ foreignImport ++ ⟨#[0xFF]⟩) =
      .error (.unsupportedImport hostModule "f") := by
  have hheader : ModuleHeader (⟨writeHeader.toArray⟩ : ByteArray).toList := by
    rw [toList_byteArray]
    exact .header 1 0
  have hframed : Framed foreignImport.toList := by
    rw [toList_byteArray, ← List.append_nil foreignImport.data.toList]
    exact ⟨_, .cons (frameForm_writeSection (by decide +kernel)) .nil⟩
  exact (inspect_append hheader hframed _).1 _ (by decide +kernel)

end Binary

end CompilerHost
