/-! # White space

The characters with Unicode's `White_Space` property, and trimming by them. Option lists, log
texts, file names and mirror files all agree on this one set.
-/

namespace CompilerHost.Text

/-- The characters with the property `White_Space`. -/
def isBlank (c : Char) : Bool :=
  let n := c.toNat
  (0x09 ≤ n && n ≤ 0x0D) || n == 0x20 || n == 0x85 || n == 0xA0 || n == 0x1680
    || (0x2000 ≤ n && n ≤ 0x200A) || n == 0x2028 || n == 0x2029 || n == 0x202F
    || n == 0x205F || n == 0x3000

/-- Every character that core counts as white space is blank. -/
theorem isBlank_of_isWhitespace {c : Char} (h : c.isWhitespace) : isBlank c := by
  simp only [Char.isWhitespace, Bool.or_eq_true, decide_eq_true_eq] at h
  rcases h with ((rfl | rfl) | rfl) | rfl <;> decide

/-- Leaves out the blanks at the start. -/
def trimStart (cs : List Char) : List Char := cs.dropWhile isBlank

/-- Leaves out the blanks at the end. -/
def trimEnd (cs : List Char) : List Char := (cs.reverse.dropWhile isBlank).reverse

/-- Leaves out the blanks at both ends. -/
def trim (cs : List Char) : List Char := trimEnd (trimStart cs)

/-- Dropping from the front stops for good at the first character that is kept. -/
theorem trimStart_eq_self {cs : List Char} (h : ∀ c, cs.head? = some c → isBlank c = false) :
    trimStart cs = cs := by
  cases cs with
  | nil => rfl
  | cons c cs => simp [trimStart, h c rfl]

theorem isBlank_head_trimStart {cs : List Char} {c : Char} (h : (trimStart cs).head? = some c) :
    isBlank c = false := by
  have := List.head?_dropWhile_not isBlank cs
  rw [trimStart] at h
  simpa [h] using this

theorem trimStart_trimStart (cs : List Char) : trimStart (trimStart cs) = trimStart cs :=
  trimStart_eq_self fun _ => isBlank_head_trimStart

theorem trimEnd_eq (cs : List Char) : trimEnd cs = (trimStart cs.reverse).reverse := rfl

theorem trimEnd_trimEnd (cs : List Char) : trimEnd (trimEnd cs) = trimEnd cs := by
  simp [trimEnd_eq, trimStart_trimStart]

/-- Trimming the end leaves a prefix. -/
theorem trimEnd_prefix (cs : List Char) : trimEnd cs <+: cs := by
  rw [← List.reverse_suffix, trimEnd_eq, List.reverse_reverse]
  exact List.dropWhile_suffix _

theorem trim_trim (cs : List Char) : trim (trim cs) = trim cs := by
  have hStart : trimStart (trim cs) = trim cs := by
    refine trimStart_eq_self fun c h => ?_
    obtain ⟨t, ht⟩ := trimEnd_prefix (trimStart cs)
    have hHead : (trimStart cs).head? = some c := by
      rw [← ht]
      rw [trim] at h
      simp [List.head?_append, h]
    exact isBlank_head_trimStart hHead
  rw [trim, hStart, trim, trimEnd_trimEnd]

/-- A text less the blanks at both its ends. -/
def trimmed (s : String) : String := String.ofList (trim s.toList)

theorem trimmed_trimmed (s : String) : trimmed (trimmed s) = trimmed s := by
  simp [trimmed, trim_trim]

/-- A text less the blanks at its end. -/
def trimmedEnd (s : String) : String := String.ofList (trimEnd s.toList)

/-- A text with no character that can be seen, the empty one included. -/
def isBlankText (s : String) : Bool := s.toList.all isBlank

end CompilerHost.Text
