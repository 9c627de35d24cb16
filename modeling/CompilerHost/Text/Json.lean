import CompilerHost.Text.Hex

/-! # JSON arrays of strings

The compact printer of a list of strings, and the reader of every JSON text for one. What the
printer writes has no control character in it, so it can be handed over as a text that ends at
the first zero byte.
-/

namespace CompilerHost.Json

open CompilerHost.Text

/-! ## Printing -/

/-- A character inside a string literal: the quote, the backslash and the control characters are
escaped, the latter by a letter where JSON has one. -/
def escapeChar (c : Char) : List Char :=
  if c = '"' then ['\\', '"']
  else if c = '\\' then ['\\', '\\']
  else if c = '\n' then ['\\', 'n']
  else if c = '\r' then ['\\', 'r']
  else if c = '\t' then ['\\', 't']
  else if c = '\x08' then ['\\', 'b']
  else if c = '\x0c' then ['\\', 'f']
  else if c.toNat < 0x20 then
    ['\\', 'u', '0', '0', hexDigit (c.toNat / 16), hexDigit (c.toNat % 16)]
  else [c]

/-- A string literal. -/
def printString (cs : List Char) : List Char :=
  '"' :: cs.flatMap escapeChar ++ ['"']

/-- The elements after the first, each behind its comma. -/
def printTail : List (List Char) → List Char
  | [] => []
  | s :: rest => ',' :: printString s ++ printTail rest

/-- An array of strings, with no blank between its parts. -/
def printArray : List (List Char) → List Char
  | [] => ['[', ']']
  | s :: rest => '[' :: printString s ++ printTail rest ++ [']']

/-- The compact JSON text of a list of strings. -/
def print (entries : List String) : String := String.ofList (printArray (entries.map String.toList))

/-! ## Reading -/

/-- The characters that JSON allows between its parts. -/
def isSpace (c : Char) : Bool := c = ' ' || c = '\t' || c = '\n' || c = '\r'

/-- Leaves out blanks at the front. -/
def skip (cs : List Char) : List Char := cs.dropWhile isSpace

theorem length_skip_le (cs : List Char) : (skip cs).length ≤ cs.length :=
  (List.dropWhile_sublist _).length_le

/-- The value of four hexadecimal digits, and what follows them. -/
def hex4? : List Char → Option (Nat × List Char)
  | a :: b :: c :: d :: rest => do
    let a ← hexValue? a
    let b ← hexValue? b
    let c ← hexValue? c
    let d ← hexValue? d
    pure (((a * 16 + b) * 16 + c) * 16 + d, rest)
  | _ => none

/-- The four digits of a second `\u` escape that follows at once. -/
def secondHalf? : List Char → Option (Nat × List Char)
  | a :: b :: rest => if a = '\\' ∧ b = 'u' then hex4? rest else none
  | _ => none

/-- The character of a `\u` escape, after the `u`. A character outside the first plane takes two
escapes, its halves; a half on its own is refused. -/
def unicodeEscape? (cs : List Char) : Option (Char × List Char) := do
  let (high, rest) ← hex4? cs
  if 0xD800 ≤ high ∧ high < 0xDC00 then
    let (low, rest) ← secondHalf? rest
    if 0xDC00 ≤ low ∧ low < 0xE000 then
      some (Char.ofNat (0x10000 + (high - 0xD800) * 0x400 + (low - 0xDC00)), rest)
    else none
  else if 0xDC00 ≤ high ∧ high < 0xE000 then none
  else some (Char.ofNat high, rest)

/-- The character that a letter behind a backslash stands for. -/
def letterEscape? (c : Char) : Option Char :=
  if c = '"' || c = '\\' || c = '/' then some c
  else if c = 'b' then some '\x08'
  else if c = 'f' then some '\x0c'
  else if c = 'n' then some '\n'
  else if c = 'r' then some '\r'
  else if c = 't' then some '\t'
  else none

/-- The character of an escape, after the backslash. -/
def escape? : List Char → Option (Char × List Char)
  | [] => none
  | c :: rest => if c = 'u' then unicodeEscape? rest else (letterEscape? c).map (·, rest)

theorem length_hex4?_lt {cs rest : List Char} {n : Nat} (h : hex4? cs = some (n, rest)) :
    rest.length < cs.length := by
  unfold hex4? at h
  split at h
  · simp only [Option.pure_def, Option.bind_eq_bind, Option.bind_eq_some_iff, Option.some.injEq,
      Prod.mk.injEq] at h
    obtain ⟨_, _, _, _, _, _, _, _, _, rfl⟩ := h
    simp only [List.length_cons]
    omega
  · cases h

theorem length_secondHalf?_lt {cs rest : List Char} {n : Nat}
    (h : secondHalf? cs = some (n, rest)) : rest.length < cs.length := by
  unfold secondHalf? at h
  split at h
  · split at h
    · have := length_hex4?_lt h
      simp only [List.length_cons]
      omega
    · cases h
  · cases h

theorem length_unicodeEscape?_lt {cs rest : List Char} {c : Char}
    (h : unicodeEscape? cs = some (c, rest)) : rest.length < cs.length := by
  simp only [unicodeEscape?, Option.bind_eq_bind, Option.bind_eq_some_iff, Prod.exists] at h
  obtain ⟨high, after, hHigh, h⟩ := h
  have hAfter := length_hex4?_lt hHigh
  split at h
  · simp only [Option.bind_eq_some_iff, Prod.exists] at h
    obtain ⟨low, last, hLow, h⟩ := h
    have hLast := length_secondHalf?_lt hLow
    by_cases hRange : 0xDC00 ≤ low ∧ low < 0xE000
    · simp only [hRange, and_self, if_true, Option.some.injEq, Prod.mk.injEq] at h
      rw [← h.2]
      omega
    · simp only [hRange, if_false, reduceCtorEq] at h
  · by_cases hLow : 0xDC00 ≤ high ∧ high < 0xE000
    · simp only [hLow, and_self, if_true, reduceCtorEq] at h
    · simp only [hLow, if_false, Option.some.injEq, Prod.mk.injEq] at h
      rw [← h.2]
      exact hAfter

theorem length_escape?_lt {cs rest : List Char} {c : Char} (h : escape? cs = some (c, rest)) :
    rest.length < cs.length := by
  unfold escape? at h
  split at h
  · cases h
  · split at h
    · have := length_unicodeEscape?_lt h
      simp only [List.length_cons]
      omega
    · simp only [Option.map_eq_some_iff, Prod.mk.injEq] at h
      obtain ⟨_, _, _, rfl⟩ := h
      simp

/-- The text of a string literal, after its opening quote, and what follows the closing one;
`seen` holds what came before, the latest first. Control characters have to be escaped. -/
def stringFrom? (seen : List Char) (cs : List Char) : Option (List Char × List Char) :=
  match cs with
  | [] => none
  | c :: rest =>
    if c = '"' then some (seen.reverse, rest)
    else if c = '\\' then
      match h : escape? rest with
      | none => none
      | some (d, rest') =>
        have := length_escape?_lt h
        stringFrom? (d :: seen) rest'
    else if c.toNat < 0x20 then none
    else stringFrom? (c :: seen) rest
termination_by cs.length
decreasing_by all_goals simp_wf <;> omega

/-- The text of a string literal, after its opening quote, and what follows the closing one. -/
def string? (cs : List Char) : Option (List Char × List Char) := stringFrom? [] cs

theorem length_stringFrom?_lt {seen cs s rest : List Char}
    (h : stringFrom? seen cs = some (s, rest)) : rest.length < cs.length := by
  fun_induction stringFrom? seen cs generalizing s rest with
  | case1 => cases h
  | case2 seen r => cases h; simp
  | case3 => cases h
  | case4 seen r _ c r' hEsc hLt ih =>
    have := ih h
    simp only [List.length_cons]
    omega
  | case5 => cases h
  | case6 seen c r _ _ _ ih =>
    have := ih h
    simp only [List.length_cons]
    omega

/-- A literal takes at least its closing quote. -/
theorem length_string?_lt {cs s rest : List Char} (h : string? cs = some (s, rest)) :
    rest.length < cs.length := length_stringFrom?_lt h

/-- The elements of an array from an element on, up to and with the closing bracket. -/
def elements? (cs : List Char) : Option (List (List Char) × List Char) :=
  match hs : skip cs with
  | '"' :: rest =>
    match hStr : string? rest with
    | none => none
    | some (s, rest') =>
      match hComma : skip rest' with
      | ']' :: rest'' => some ([s], rest'')
      | ',' :: rest'' =>
        have : rest''.length < cs.length := by
          have h1 := length_skip_le cs
          have h2 := length_string?_lt hStr
          have h3 := length_skip_le rest'
          rw [hs] at h1
          rw [hComma] at h3
          simp only [List.length_cons] at h1 h3
          omega
        (elements? rest'').map fun (ss, r) => (s :: ss, r)
      | _ => none
  | _ => none
termination_by cs.length

/-- An array of strings, and what follows it. -/
def array? (cs : List Char) : Option (List (List Char) × List Char) :=
  match skip cs with
  | '[' :: rest =>
    match skip rest with
    | ']' :: rest => some ([], rest)
    | _ => elements? rest
  | _ => none

/-- Reads a JSON text that is an array of strings and nothing else. -/
def parse? (text : String) : Option (List String) :=
  match array? text.toList with
  | some (ss, rest) => if (skip rest).isEmpty then some (ss.map String.ofList) else none
  | none => none

end CompilerHost.Json
