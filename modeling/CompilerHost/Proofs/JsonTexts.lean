import CompilerHost.Options
import Mathlib.Data.List.TakeWhile

/-! # JSON texts

The JSON texts that are arrays of strings, written down as a grammar: a relation between a text and
the strings that it spells. A decoder conforms if it finds in each such text the strings that the
grammar has for it, whatever else it takes.

* `Json.spellsArray_printArray`: what the printer writes spells what it was given;
* `Json.conforming_parse?`: the reader at hand conforms, so that no text spells two lists.
-/

namespace CompilerHost.Json

open Text

/-! ## The grammar -/

/-- What may stand between the parts of a text. -/
def IsBlank (cs : List Char) : Prop := ∀ c ∈ cs, c ∈ [' ', '\t', '\n', '\r']

/-- A character is the digit, of either case, of a value below sixteen. -/
def IsDigit (c : Char) (n : Nat) : Prop :=
  "0123456789abcdef".toList[n]? = some c ∨ "0123456789ABCDEF".toList[n]? = some c

/-- Four digits have a value, the highest digit first. -/
inductive Digits : List Char → Nat → Prop where
  | four {a b c d : Char} {w x y z : Nat} (ha : IsDigit a w) (hb : IsDigit b x) (hc : IsDigit c y)
      (hd : IsDigit d z) : Digits [a, b, c, d] (((w * 16 + x) * 16 + y) * 16 + z)

/-- The letters that may stand behind a backslash, each with the character that it stands for. -/
def letters : List (Char × Char) :=
  [('"', '"'), ('\\', '\\'), ('/', '/'), ('b', '\x08'), ('f', '\x0c'), ('n', '\n'), ('r', '\r'),
    ('t', '\t')]

/-- The first half of a character outside the first plane. -/
def IsHighHalf (n : Nat) : Prop := 0xD800 ≤ n ∧ n < 0xDC00

/-- The second half of a character outside the first plane. -/
def IsLowHalf (n : Nat) : Prop := 0xDC00 ≤ n ∧ n < 0xE000

/-- The ways to write a character between quotes. A half on its own is no character. -/
inductive SpellsChar : List Char → Char → Prop where
  | itself {c : Char} (hquote : c ≠ '"') (hbackslash : c ≠ '\\') (hcontrol : 0x20 ≤ c.toNat) :
      SpellsChar [c] c
  | letter {l c : Char} (h : (l, c) ∈ letters) : SpellsChar ['\\', l] c
  | number {ds : List Char} {n : Nat} (hdigits : Digits ds n) (hhigh : ¬IsHighHalf n)
      (hlow : ¬IsLowHalf n) : SpellsChar ('\\' :: 'u' :: ds) (Char.ofNat n)
  | halves {ds es : List Char} {m n : Nat} (hfirst : Digits ds m) (hsecond : Digits es n)
      (hhigh : IsHighHalf m) (hlow : IsLowHalf n) :
      SpellsChar ('\\' :: 'u' :: (ds ++ '\\' :: 'u' :: es))
        (Char.ofNat (0x10000 + (m - 0xD800) * 0x400 + (n - 0xDC00)))

/-- What stands between quotes, and the string that it spells. -/
inductive SpellsString : List Char → List Char → Prop where
  | nil : SpellsString [] []
  | cons {w ws : List Char} {c : Char} {cs : List Char} (hfirst : SpellsChar w c)
      (hrest : SpellsString ws cs) : SpellsString (w ++ ws) (c :: cs)

/-- An element of an array: a string in quotes, with blanks around it. -/
inductive SpellsElement : List Char → List Char → Prop where
  | quoted {before w after s : List Char} (hbefore : IsBlank before) (hstring : SpellsString w s)
      (hafter : IsBlank after) : SpellsElement (before ++ '"' :: (w ++ '"' :: after)) s

/-- The elements of an array that has some, with commas between them. -/
inductive SpellsElements : List Char → List (List Char) → Prop where
  | last {w s : List Char} (h : SpellsElement w s) : SpellsElements w [s]
  | more {w ws s : List Char} {ss : List (List Char)} (hfirst : SpellsElement w s)
      (hrest : SpellsElements ws ss) : SpellsElements (w ++ ',' :: ws) (s :: ss)

/-- A text that is an array of strings, and those strings. -/
inductive SpellsArray : List Char → List (List Char) → Prop where
  | empty {before between after : List Char} (hbefore : IsBlank before) (hbetween : IsBlank between)
      (hafter : IsBlank after) : SpellsArray (before ++ '[' :: (between ++ ']' :: after)) []
  | elements {before w after : List Char} {ss : List (List Char)} (hbefore : IsBlank before)
      (h : SpellsElements w ss) (hafter : IsBlank after) :
      SpellsArray (before ++ '[' :: (w ++ ']' :: after)) ss

/-- A decoder conforms if it gives, for every text that is an array of strings, those strings. -/
def Conforming (decode : String → Option (List String)) : Prop :=
  ∀ text strings, SpellsArray text.toList (strings.map String.toList) →
    decode text = some strings

/-! ## Printing -/

theorem isBlank_nil : IsBlank [] := fun _ h => by cases h

theorem isDigit_hexDigit : ∀ n < 16, IsDigit (hexDigit n) n := by
  unfold IsDigit
  decide

/-- Each character is written in one of the ways that there are. -/
theorem spellsChar_escapeChar (c : Char) : SpellsChar (escapeChar c) c := by
  unfold escapeChar
  iterate 7
    split
    · rename_i hc
      subst hc
      exact .letter (by decide)
  split
  · rename_i hcontrol
    -- a control character has two digits that are not zero at most
    have hdigits := Digits.four (isDigit_hexDigit 0 (by decide)) (isDigit_hexDigit 0 (by decide))
      (isDigit_hexDigit (c.toNat / 16) (by omega)) (isDigit_hexDigit (c.toNat % 16) (by omega))
    have hvalue : ((0 * 16 + 0) * 16 + c.toNat / 16) * 16 + c.toNat % 16 = c.toNat := by omega
    rw [hvalue] at hdigits
    have hspells := SpellsChar.number hdigits (by unfold IsHighHalf; omega)
      (by unfold IsLowHalf; omega)
    rw [Char.ofNat_toNat] at hspells
    exact hspells
  · exact .itself ‹_› ‹_› (by omega)

theorem spellsString_flatMap (s : List Char) : SpellsString (s.flatMap escapeChar) s := by
  induction s with
  | nil => exact .nil
  | cons c cs ih => exact .cons (spellsChar_escapeChar c) ih

theorem spellsElement_printString (s : List Char) : SpellsElement (printString s) s := by
  have h := SpellsElement.quoted isBlank_nil (spellsString_flatMap s) isBlank_nil
  rw [List.nil_append] at h
  exact h

theorem spellsElements_printTail (s : List Char) (rest : List (List Char)) :
    SpellsElements (printString s ++ printTail rest) (s :: rest) := by
  induction rest generalizing s with
  | nil =>
      rw [printTail, List.append_nil]
      exact .last (spellsElement_printString s)
  | cons s' rest ih => exact .more (spellsElement_printString s) (ih s')

/-- What the printer writes is an array of the strings that it was given. -/
theorem spellsArray_printArray (ss : List (List Char)) : SpellsArray (printArray ss) ss := by
  cases ss with
  | nil => exact .empty isBlank_nil isBlank_nil isBlank_nil
  | cons s rest =>
      have h := SpellsArray.elements isBlank_nil (spellsElements_printTail s rest) isBlank_nil
      rw [List.nil_append] at h
      rw [printArray, List.cons_append]
      exact h

/-! ## Reading -/

theorem isSpace_of_isBlank {cs : List Char} (h : IsBlank cs) : ∀ c ∈ cs, isSpace c = true := by
  intro c hc
  have hmem := h c hc
  simp only [List.mem_cons, List.not_mem_nil, or_false] at hmem
  rcases hmem with rfl | rfl | rfl | rfl
  · rfl
  · rfl
  · rfl
  · rfl

/-- Blanks are passed over, up to a character that is none. -/
theorem skip_append {before : List Char} (h : IsBlank before) {c : Char} (hc : isSpace c = false)
    (rest : List Char) : skip (before ++ c :: rest) = c :: rest := by
  have hspaces := isSpace_of_isBlank h
  rw [skip, List.dropWhile_append_of_pos hspaces, List.dropWhile_cons_of_neg (by simp [hc])]

theorem skip_of_isBlank {cs : List Char} (h : IsBlank cs) : skip cs = [] :=
  List.dropWhile_eq_nil_iff.2 (isSpace_of_isBlank h)

/-- A digit reads as its value. -/
theorem hexValue?_of_isDigit {c : Char} {n : Nat} (h : IsDigit c n) : hexValue? c = some n := by
  have hall : ∀ n < 16, ∀ digits ∈ ["0123456789abcdef".toList, "0123456789ABCDEF".toList],
      (digits[n]?.all fun c => hexValue? c = some n) = true := by decide
  have hread : ∀ digits ∈ ["0123456789abcdef".toList, "0123456789ABCDEF".toList],
      digits[n]? = some c → hexValue? c = some n := by
    intro digits hdigits hget
    have hlength : digits.length = 16 := by
      simp only [List.mem_cons, List.not_mem_nil, or_false] at hdigits
      rcases hdigits with rfl | rfl
      · rfl
      · rfl
    obtain ⟨hn, _⟩ := List.getElem?_eq_some_iff.1 hget
    have hvalue := hall n (by omega) digits hdigits
    rw [hget] at hvalue
    simpa using hvalue
  rcases h with h | h
  · exact hread _ (by simp) h
  · exact hread _ (by simp) h

theorem hex4?_of_digits {ds : List Char} {n : Nat} (h : Digits ds n) (rest : List Char) :
    hex4? (ds ++ rest) = some (n, rest) := by
  rcases h with ⟨ha, hb, hc, hd⟩
  simp [hex4?, hexValue?_of_isDigit ha, hexValue?_of_isDigit hb, hexValue?_of_isDigit hc,
    hexValue?_of_isDigit hd]

theorem letterEscape?_of_mem {l c : Char} (h : (l, c) ∈ letters) :
    letterEscape? l = some c ∧ l ≠ 'u' := by
  have hall : ∀ pair ∈ letters, letterEscape? pair.1 = some pair.2 ∧ pair.1 ≠ 'u' := by decide
  exact hall (l, c) h

/-- A number that is no half is read as the character that it is the number of. -/
theorem escape?_of_number {ds : List Char} {n : Nat} (h : Digits ds n) (hhigh : ¬IsHighHalf n)
    (hlow : ¬IsLowHalf n) (rest : List Char) :
    escape? ('u' :: (ds ++ rest)) = some (Char.ofNat n, rest) := by
  have hread := hex4?_of_digits h rest
  unfold IsHighHalf at hhigh
  unfold IsLowHalf at hlow
  simp only [escape?, if_true, unicodeEscape?, hread, Option.bind_eq_bind, Option.bind_some,
    if_neg hhigh, if_neg hlow]

/-- Two halves are read as one character. -/
theorem escape?_of_halves {ds es : List Char} {m n : Nat} (hfirst : Digits ds m)
    (hsecond : Digits es n) (hhigh : IsHighHalf m) (hlow : IsLowHalf n) (rest : List Char) :
    escape? ('u' :: (ds ++ '\\' :: 'u' :: (es ++ rest))) =
      some (Char.ofNat (0x10000 + (m - 0xD800) * 0x400 + (n - 0xDC00)), rest) := by
  have hread := hex4?_of_digits hfirst ('\\' :: 'u' :: (es ++ rest))
  have hhalf : secondHalf? ('\\' :: 'u' :: (es ++ rest)) = some (n, rest) :=
    hex4?_of_digits hsecond rest
  unfold IsHighHalf at hhigh
  unfold IsLowHalf at hlow
  simp only [escape?, if_true, unicodeEscape?, hread, hhalf, Option.bind_eq_bind, Option.bind_some,
    if_pos hhigh, if_pos hlow]

/-- Behind a backslash, the reader goes on behind the escape. -/
theorem stringFrom?_of_escape {seen rest after : List Char} {c : Char}
    (h : escape? rest = some (c, after)) :
    stringFrom? seen ('\\' :: rest) = stringFrom? (c :: seen) after := by
  rw [stringFrom?, if_neg (by decide), if_pos rfl]
  split
  · rename_i hnone
    rw [h] at hnone
    cases hnone
  · rename_i d rest' hsome
    rw [h] at hsome
    cases hsome
    rfl

/-- A character that is spelt out is read, however it is spelt. -/
theorem stringFrom?_of_spellsChar {w : List Char} {c : Char} (h : SpellsChar w c)
    (seen rest : List Char) : stringFrom? seen (w ++ rest) = stringFrom? (c :: seen) rest := by
  cases h with
  | itself hquote hbackslash hcontrol =>
      rw [List.singleton_append, stringFrom?, if_neg hquote, if_neg hbackslash,
        if_neg (by omega)]
  | letter hmem =>
      obtain ⟨hletter, hne⟩ := letterEscape?_of_mem hmem
      exact stringFrom?_of_escape (by simp [escape?, hne, hletter])
  | number hdigits hhigh hlow =>
      rw [List.cons_append, List.cons_append]
      exact stringFrom?_of_escape (escape?_of_number hdigits hhigh hlow rest)
  | halves hfirst hsecond hhigh hlow =>
      rw [List.cons_append, List.cons_append, List.append_assoc, List.cons_append, List.cons_append]
      exact stringFrom?_of_escape (escape?_of_halves hfirst hsecond hhigh hlow rest)

/-- A string is read up to its closing quote. The induction is on its characters; what was read of
it before comes along. -/
theorem stringFrom?_of_spellsString {w s : List Char} (h : SpellsString w s)
    (seen rest : List Char) :
    stringFrom? seen (w ++ '"' :: rest) = some (seen.reverse ++ s, rest) := by
  induction h generalizing seen with
  | nil => simp [stringFrom?]
  | cons hfirst _ ih =>
      rw [List.append_assoc, stringFrom?_of_spellsChar hfirst, ih]
      simp

theorem string?_of_spellsString {w s : List Char} (h : SpellsString w s) (rest : List Char) :
    string? (w ++ '"' :: rest) = some (s, rest) :=
  stringFrom?_of_spellsString h [] rest

/-- An element in front of the closing bracket is the last. -/
theorem elements?_of_last {cs rest rest' rest'' s : List Char} (hquote : skip cs = '"' :: rest)
    (hstring : string? rest = some (s, rest')) (hend : skip rest' = ']' :: rest'') :
    elements? cs = some ([s], rest'') := by
  rw [elements?]
  split
  · rename_i hskip
    obtain rfl := List.tail_eq_of_cons_eq (hskip.symm.trans hquote)
    split
    · rename_i hnone
      rw [hstring] at hnone
      cases hnone
    · rename_i hsome
      obtain ⟨rfl, rfl⟩ := Prod.mk.inj (Option.some.inj (hsome.symm.trans hstring))
      split
      · rename_i hbracket
        obtain rfl := List.tail_eq_of_cons_eq (hbracket.symm.trans hend)
        rfl
      · rename_i hcomma
        have hne := List.head_eq_of_cons_eq (hcomma.symm.trans hend)
        exact absurd hne (by decide)
      · rename_i hno _
        exact absurd hend (hno _)
  · rename_i hno
    exact absurd hquote (hno _)

/-- Behind an element and a comma, there are more. -/
theorem elements?_of_comma {cs rest rest' rest'' s : List Char} (hquote : skip cs = '"' :: rest)
    (hstring : string? rest = some (s, rest')) (hcomma : skip rest' = ',' :: rest'') :
    elements? cs = (elements? rest'').map fun (ss, r) => (s :: ss, r) := by
  rw [elements?]
  split
  · rename_i hskip
    obtain rfl := List.tail_eq_of_cons_eq (hskip.symm.trans hquote)
    split
    · rename_i hnone
      rw [hstring] at hnone
      cases hnone
    · rename_i hsome
      obtain ⟨rfl, rfl⟩ := Prod.mk.inj (Option.some.inj (hsome.symm.trans hstring))
      split
      · rename_i hbracket
        have hne := List.head_eq_of_cons_eq (hbracket.symm.trans hcomma)
        exact absurd hne (by decide)
      · rename_i hsep
        obtain rfl := List.tail_eq_of_cons_eq (hsep.symm.trans hcomma)
        rfl
      · rename_i _ hno
        exact absurd hcomma (hno _)
  · rename_i hno
    exact absurd hquote (hno _)

/-- The elements of an array are read up to its closing bracket. -/
theorem elements?_of_spellsElements {w : List Char} {ss : List (List Char)}
    (h : SpellsElements w ss) (rest : List Char) :
    elements? (w ++ ']' :: rest) = some (ss, rest) := by
  induction h with
  | last helement =>
      rcases helement with ⟨hbefore, hstring, hafter⟩
      rw [List.append_assoc, List.cons_append, List.append_assoc, List.cons_append]
      exact elements?_of_last (skip_append hbefore rfl _) (string?_of_spellsString hstring _)
        (skip_append hafter rfl rest)
  | more helement _ ih =>
      rcases helement with ⟨hbefore, hstring, hafter⟩
      rw [List.append_assoc, List.append_assoc, List.cons_append, List.append_assoc,
        List.cons_append, List.cons_append]
      rw [elements?_of_comma (skip_append hbefore rfl _) (string?_of_spellsString hstring _)
        (skip_append hafter rfl _), ih]
      rfl

/-- Elements begin with a quote, wherever they end. -/
theorem skip_of_spellsElements {w : List Char} {ss : List (List Char)} (h : SpellsElements w ss)
    (rest : List Char) : ∃ tail, skip (w ++ rest) = '"' :: tail := by
  have hfirst : ∀ {w s : List Char}, SpellsElement w s → ∀ rest, ∃ tail,
      skip (w ++ rest) = '"' :: tail := by
    intro w s helement rest
    rcases helement with ⟨hbefore, _, _⟩
    rw [List.append_assoc, List.cons_append]
    exact ⟨_, skip_append hbefore rfl _⟩
  cases h with
  | last helement => exact hfirst helement rest
  | more helement _ =>
      rw [List.append_assoc]
      exact hfirst helement _

theorem array?_of_spellsArray {w : List Char} {ss : List (List Char)} (h : SpellsArray w ss) :
    ∃ rest, array? w = some (ss, rest) ∧ skip rest = [] := by
  cases h with
  | @empty before between after hbefore hbetween hafter =>
      refine ⟨after, ?_, skip_of_isBlank hafter⟩
      rw [array?, skip_append hbefore rfl]
      simp only
      rw [skip_append hbetween rfl]
      rfl
  | @elements before w after _ hbefore helements hafter =>
      refine ⟨after, ?_, skip_of_isBlank hafter⟩
      obtain ⟨tail, hquote⟩ := skip_of_spellsElements helements (']' :: after)
      rw [array?, skip_append hbefore rfl]
      simp only
      rw [hquote]
      exact elements?_of_spellsElements helements after

/-- The reader finds in every array of strings the strings that it spells. -/
theorem conforming_parse? : Conforming parse? := by
  intro text strings h
  obtain ⟨rest, harray, hrest⟩ := array?_of_spellsArray h
  simp [parse?, harray, hrest]

end CompilerHost.Json
