import CompilerHost.Proofs.Escaping

/-! # Where escaped texts are malformed

A text that spells no bytes is malformed first in one place: a group starts there that is none, and
all groups before it are well-formed. Reading group by group finds that place in every text. But the
length of a text is looked at before its groups are, and a text of a broken length is blamed at the
incomplete group at its end, behind all others.

* `Escape.FirstMalformed.unique`: there is one such place at most;
* `Escape.decodeFrom_eq_error_iff`: reading group by group stops there;
* `Escape.decode_eq_error_iff`: what is blamed, by the length of the text;
* `Sink.blamesFirst_iff`: the texts of which the first malformed group is blamed.
-/

namespace CompilerHost

namespace Escape

/-! ## Malformed groups -/

/-- A text starts with a well-formed group. -/
def StartsWithGroup (text : List UInt8) : Prop := ∃ b, Spells (text.take 3) [b]

/-- A malformed group starts at a position of a text. -/
structure MalformedAt (text : List UInt8) (position : Nat) : Prop where
  inside : position < text.length
  aligned : 3 ∣ position
  malformed : ¬StartsWithGroup (text.drop position)

/-- The malformed group at a position is the first: all before it are well-formed. -/
structure FirstMalformed (text : List UInt8) (position : Nat) : Prop
    extends MalformedAt text position where
  before : ∃ bytes, Spells (text.take position) bytes

theorem startsWithGroup_cons_iff {a high low : UInt8} {rest : List UInt8} :
    StartsWithGroup (a :: high :: low :: rest) ↔ ∃ b, ungroup? a high low = some b := by
  constructor
  · rintro ⟨b, hspells⟩
    cases hspells with
    | cons hhigh hlow _ => exact ⟨b, ungroup?_eq_some_iff.2 ⟨rfl, hhigh, hlow⟩⟩
  · rintro ⟨b, hgroup⟩
    rcases ungroup?_eq_some_iff.1 hgroup with ⟨rfl, hhigh, hlow⟩
    exact ⟨b, .cons hhigh hlow .nil⟩

theorem StartsWithGroup.length {text : List UInt8} (h : StartsWithGroup text) :
    3 ≤ text.length := by
  rcases h with ⟨b, hspells⟩
  have hlength := hspells.length
  rw [List.length_take, List.length_singleton] at hlength
  omega

theorem StartsWithGroup.exists_eq_cons {text : List UInt8} (h : StartsWithGroup text) :
    ∃ high low rest, text = mark :: high :: low :: rest := by
  rcases h with ⟨b, hspells⟩
  have hwhole := List.take_append_drop 3 text
  generalize text.take 3 = front at hspells hwhole
  cases hspells with
  | cons hhigh hlow hrest =>
      cases hrest
      exact ⟨_, _, text.drop 3, hwhole.symm⟩

/-- What stands behind a group does not matter to it. -/
theorem StartsWithGroup.append {text : List UInt8} (h : StartsWithGroup text)
    (rest : List UInt8) : StartsWithGroup (text ++ rest) := by
  have hlength := h.length
  rcases h with ⟨b, hspells⟩
  refine ⟨b, ?_⟩
  rw [List.take_append_of_le_length hlength]
  exact hspells

/-- In a text that spells something, a group starts at each multiple of three. -/
theorem Spells.startsWithGroup {text bytes : List UInt8} (h : Spells text bytes) {n : Nat}
    (hn : n < bytes.length) : StartsWithGroup (text.drop (3 * n)) := by
  induction h generalizing n with
  | nil => cases hn
  | cons hhigh hlow _ ih =>
      cases n with
      | zero => exact ⟨_, .cons hhigh hlow .nil⟩
      | succ n =>
          rw [Nat.mul_succ]
          exact ih (Nat.lt_of_succ_lt_succ hn)

/-! ## The first malformed group -/

section First

variable {text : List UInt8} {position : Nat}

/-- What reaches beyond a malformed group spells nothing. -/
theorem MalformedAt.not_spells_take (h : MalformedAt text position) {stop : Nat}
    (hstop : position < stop) (bytes : List UInt8) : ¬Spells (text.take stop) bytes := by
  intro hspells
  rcases h.aligned with ⟨n, rfl⟩
  have hlength := hspells.length
  have hinside := h.inside
  rw [List.length_take] at hlength
  -- the group would be one of those that are spelled, and what stands behind them does not matter
  have hgroup := (hspells.startsWithGroup (n := n) (by omega)).append (text.drop stop)
  have hdrop : text.drop (3 * n) = (text.take stop).drop (3 * n) ++ text.drop stop := by
    rw [← List.drop_append_of_le_length (by rw [List.length_take]; omega),
      List.take_append_drop]
  rw [← hdrop] at hgroup
  exact h.malformed hgroup

theorem MalformedAt.not_spells (h : MalformedAt text position) (bytes : List UInt8) :
    ¬Spells text bytes := by
  have hnone := h.not_spells_take h.inside bytes
  rwa [List.take_length] at hnone

/-- A text is malformed first in one place at most. -/
theorem FirstMalformed.unique (h : FirstMalformed text position) {other : Nat}
    (hother : FirstMalformed text other) : position = other := by
  rcases h.before with ⟨bytes, hbefore⟩
  rcases hother.before with ⟨otherBytes, hotherBefore⟩
  -- all is well-formed before each of them, so neither is before the other
  rcases Nat.lt_trichotomy position other with hlt | heq | hgt
  · exact absurd hotherBefore (h.not_spells_take hlt otherBytes)
  · exact heq
  · exact absurd hbefore (hother.not_spells_take hgt bytes)

/-- A well-formed group in front moves the first malformed one. -/
theorem FirstMalformed.cons {a high low b : UInt8} (h : FirstMalformed text position)
    (hgroup : ungroup? a high low = some b) :
    FirstMalformed (a :: high :: low :: text) (position + 3) := by
  rcases ungroup?_eq_some_iff.1 hgroup with ⟨rfl, hhigh, hlow⟩
  rcases h.before with ⟨bytes, hbytes⟩
  exact {
    inside := Nat.add_lt_add_right h.inside 3
    aligned := Nat.dvd_add h.aligned (Nat.dvd_refl 3)
    before := ⟨b :: bytes, .cons hhigh hlow hbytes⟩
    malformed := h.malformed }

/-- A text that starts with no group is malformed from the start, unless it is empty. -/
theorem firstMalformed_zero (hne : text ≠ []) (h : ¬StartsWithGroup text) :
    FirstMalformed text 0 where
  inside := List.length_pos_iff.2 hne
  aligned := Nat.dvd_zero 3
  before := ⟨[], .nil⟩
  malformed := h

/-! ## Blame -/

/-- Reading group by group stops at the first malformed group. The induction is on the groups that
are left, so the position of the reader is that of the first of them. -/
theorem firstMalformed_of_decodeFrom {start blamed : Nat} {found : List UInt8}
    (h : decodeFrom start found text = .error blamed) :
    ∃ n, blamed = start + n ∧ FirstMalformed text n := by
  fun_induction decodeFrom start found text with
  | case1 => cases h
  | case2 start found a high low rest b hgroup ih =>
      rcases ih h with ⟨n, hblamed, hfirst⟩
      exact ⟨n + 3, by omega, hfirst.cons hgroup⟩
  | case3 start found a high low rest hnone =>
      refine ⟨0, (Except.error.inj h).symm, firstMalformed_zero (List.cons_ne_nil _ _) ?_⟩
      intro hstarts
      rcases startsWithGroup_cons_iff.1 hstarts with ⟨b, hgroup⟩
      rw [hnone] at hgroup
      cases hgroup
  | case4 text start found hne hfew =>
      refine ⟨0, (Except.error.inj h).symm, firstMalformed_zero hne ?_⟩
      -- there are less than three bytes left, or one of the other cases would have been
      intro hstarts
      rcases hstarts.exists_eq_cons with ⟨high, low, rest, heq⟩
      exact hfew mark high low rest heq

theorem decodeFrom_eq_error_iff :
    decodeFrom 0 [] text = .error position ↔ FirstMalformed text position := by
  constructor
  · intro h
    rcases firstMalformed_of_decodeFrom h with ⟨n, hblamed, hfirst⟩
    rw [hblamed, Nat.zero_add]
    exact hfirst
  · intro hfirst
    cases hread : decodeFrom 0 [] text with
    | ok bytes =>
        rcases spells_of_decodeFrom hread with ⟨rest, _, hspells⟩
        exact absurd hspells (hfirst.not_spells rest)
    | error blamed =>
        rcases firstMalformed_of_decodeFrom hread with ⟨n, hblamed, hfound⟩
        rw [hblamed, Nat.zero_add, hfound.unique hfirst]

/-- A text that spells no bytes is malformed somewhere first. -/
theorem exists_firstMalformed (h : ∀ bytes, ¬Spells text bytes) :
    ∃ position, FirstMalformed text position := by
  cases hread : decodeFrom 0 [] text with
  | ok bytes =>
      rcases spells_of_decodeFrom hread with ⟨rest, _, hspells⟩
      exact absurd hspells (h rest)
  | error blamed => exact ⟨blamed, decodeFrom_eq_error_iff.1 hread⟩

/-- A malformed group is the first, or it has the first before it. -/
theorem MalformedAt.exists_first (h : MalformedAt text position) :
    ∃ first ≤ position, FirstMalformed text first := by
  rcases exists_firstMalformed h.not_spells with ⟨first, hfirst⟩
  refine ⟨first, ?_, hfirst⟩
  rcases hfirst.before with ⟨bytes, hbefore⟩
  refine Nat.le_of_not_lt ?_
  intro hbehind
  exact h.not_spells_take hbehind bytes hbefore

/-! ## Broken lengths -/

/-- The groups of a text that have all of their bytes. -/
def complete (text : List UInt8) : List UInt8 := text.take (text.length - text.length % 3)

/-- At the end of a text of a broken length, a malformed group starts. -/
theorem malformedAt_end (hbroken : text.length % 3 ≠ 0) :
    MalformedAt text (text.length - text.length % 3) where
  inside := by omega
  aligned := by omega
  malformed := by
    intro hstarts
    have hlength := hstarts.length
    rw [List.length_drop] at hlength
    omega

/-- What is blamed is the first malformed group, if the length of the text is not broken; and the
incomplete group at the end, if it is. -/
theorem decode_eq_error_iff :
    decode text = .error position ↔
      (text.length % 3 = 0 ∧ FirstMalformed text position) ∨
        (text.length % 3 ≠ 0 ∧ position = text.length - text.length % 3) := by
  unfold decode
  split
  · rename_i hwhole
    rw [decodeFrom_eq_error_iff]
    simp [hwhole]
  · rename_i hbroken
    simp only [Except.error.injEq, hbroken, false_and, false_or, ne_eq, not_false_eq_true,
      true_and]
    exact eq_comm

theorem malformedAt_of_decode (h : decode text = .error position) :
    MalformedAt text position := by
  rcases decode_eq_error_iff.1 h with ⟨_, hfirst⟩ | ⟨hbroken, rfl⟩
  · exact hfirst.toMalformedAt
  · exact malformedAt_end hbroken

/-- The first malformed group is blamed in texts of an unbroken length, and in those that are
well-formed but for their end. -/
theorem decode_blamesFirst_iff :
    (∀ position, decode text = .error position → FirstMalformed text position) ↔
      text.length % 3 = 0 ∨ ∃ bytes, Spells (complete text) bytes := by
  constructor
  · intro hblames
    by_cases hwhole : text.length % 3 = 0
    · exact .inl hwhole
    · -- the end is blamed, and can be the first malformed group only behind well-formed ones
      have hend := hblames _ (decode_eq_error_iff.2 (.inr ⟨hwhole, rfl⟩))
      exact .inr hend.before
  · intro hgood position hread
    rcases decode_eq_error_iff.1 hread with ⟨_, hfirst⟩ | ⟨hbroken, rfl⟩
    · exact hfirst
    · exact ⟨malformedAt_end hbroken, hgood.resolve_left hbroken⟩

end First

end Escape

namespace Sink

/-- If a text is rejected, it is for its first malformed group. -/
def BlamesFirst (text : String) : Prop :=
  ∀ position, unescape text = .error (.malformedEscape position) →
    Escape.FirstMalformed text.toUTF8.toList position

theorem unescape_eq_error_iff {text : String} {position : Nat} :
    unescape text = .error (.malformedEscape position) ↔
      Escape.decode text.toUTF8.toList = .error position := by
  unfold unescape
  cases Escape.decode text.toUTF8.toList with
  | ok found => simp
  | error blamed => simp

/-- Of all texts, those are blamed for their first malformed group, if for any, whose length is a
multiple of three or whose complete groups are all well-formed. Where a text is blamed, a malformed
group starts in any case, and the first one there or before. -/
theorem blamesFirst_iff (text : String) :
    (BlamesFirst text ↔ text.toUTF8.toList.length % 3 = 0 ∨
      ∃ bytes, Escape.Spells (Escape.complete text.toUTF8.toList) bytes) ∧
    ∀ position, unescape text = .error (.malformedEscape position) →
      Escape.MalformedAt text.toUTF8.toList position ∧
        ∃ first ≤ position, Escape.FirstMalformed text.toUTF8.toList first := by
  constructor
  · unfold BlamesFirst
    simp only [unescape_eq_error_iff]
    exact Escape.decode_blamesFirst_iff
  · intro position hread
    have hmalformed := Escape.malformedAt_of_decode (unescape_eq_error_iff.1 hread)
    exact ⟨hmalformed, hmalformed.exists_first⟩

/-- A text with a well-formed group and a malformed one is blamed for the second. -/
theorem blamesFirst_second :
    unescape "%00%zz" = .error (.malformedEscape 3) ∧
      Escape.FirstMalformed "%00%zz".toUTF8.toList 3 := by
  have hread : unescape "%00%zz" = .error (.malformedEscape 3) := by with_unfolding_all rfl
  have hlength : "%00%zz".toUTF8.toList.length % 3 = 0 := by with_unfolding_all rfl
  exact ⟨hread, (blamesFirst_iff "%00%zz").1.2 (.inl hlength) 3 hread⟩

/-- A text with a malformed group and an incomplete one is blamed for the second. -/
theorem not_blamesFirst_incomplete :
    unescape "%zz%7" = .error (.malformedEscape 3) ∧
      Escape.FirstMalformed "%zz%7".toUTF8.toList 0 ∧ ¬BlamesFirst "%zz%7" := by
  have hread : unescape "%zz%7" = .error (.malformedEscape 3) := by with_unfolding_all rfl
  have hgroups : Escape.decodeFrom 0 [] "%zz%7".toUTF8.toList = .error 0 := by
    with_unfolding_all rfl
  have hfirst := Escape.decodeFrom_eq_error_iff.1 hgroups
  refine ⟨hread, hfirst, ?_⟩
  intro hblames
  cases (hblames 3 hread).unique hfirst

end Sink

end CompilerHost
