import CompilerHost.Config.Basic

/-! # Validation

A configuration is checked part by part, and the first part that cannot work decides. What a
validation comes to is said once, by its verdict.

* `Config.verdict`: the courses of a validation, each with its words;
* `Config.bare_and_not_good_iff`: the check of a name is stricter than that of the sinks for names of
  blanks only.
-/

namespace CompilerHost.Config

/-- Whether a name passes the check of a configuration. -/
structure IsGoodName (name : String) : Prop where
  seen : Text.isBlankText name = false
  bare : isBareName name = true

theorem not_isGoodName_iff {name : String} :
    ¬IsGoodName name ↔ Text.isBlankText name = true ∨ isBareName name = false := by
  constructor
  · intro hbad
    cases hseen : Text.isBlankText name with
    | true => exact .inl rfl
    | false =>
        cases hbare : isBareName name with
        | false => exact .inr rfl
        | true => exact absurd ⟨hseen, hbare⟩ hbad
  · rintro (hblank | hstray) hgood
    · rw [hgood.seen] at hblank
      cases hblank
    · rw [hgood.bare] at hstray
      cases hstray

/-- The courses of a validation, in the order of the checks. -/
inductive Verdict (c : Config) : Prop
  | unnamedModule (hmodule : c.module = "")
      (hended : c.validate = .error (.invalidValue "guest.module" emptyReason))
  | blankName (hmodule : c.module ≠ "") (hblank : Text.isBlankText c.filename = true)
      (hended : c.validate = .error (.invalidValue "output.filename" emptyReason))
  | strayName (hmodule : c.module ≠ "") (hseen : Text.isBlankText c.filename = false)
      (hstray : isBareName c.filename = false)
      (hended : c.validate = .error
        (.invalidValue "output.filename" s!"'{c.filename}' must be a bare file name"))
  | crossedFuel (hmodule : c.module ≠ "") (hname : IsGoodName c.filename)
      (hcrossed : c.fuel.upperBound < c.fuel.lowerBound)
      (hended : c.validate = .error (.invalidValue "guest.fuel"
        s!"minimum {c.fuel.lowerBound} exceeds maximum {c.fuel.upperBound}"))
  | valid (hmodule : c.module ≠ "") (hname : IsGoodName c.filename)
      (hfuel : c.fuel.lowerBound ≤ c.fuel.upperBound) (hended : c.validate = .ok ())

theorem checkFilename_of_good {c : Config} (h : IsGoodName c.filename) :
    c.checkFilename = .ok () := by
  rw [checkFilename, h.seen, h.bare]
  rfl

theorem verdict (c : Config) : c.Verdict := by
  by_cases hmodule : c.module = ""
  · refine .unnamedModule hmodule ?_
    rw [validate, checkModule, if_pos hmodule]
    rfl
  have hfirst : c.checkModule = .ok () := if_neg hmodule
  cases hblank : Text.isBlankText c.filename with
  | true =>
      refine .blankName hmodule hblank ?_
      rw [validate, hfirst, checkFilename, hblank]
      rfl
  | false =>
      cases hbare : isBareName c.filename with
      | false =>
          refine .strayName hmodule hblank hbare ?_
          rw [validate, hfirst, checkFilename, hblank, hbare]
          rfl
      | true =>
          have hname : IsGoodName c.filename := ⟨hblank, hbare⟩
          have hsecond := checkFilename_of_good hname
          by_cases hfuel : c.fuel.lowerBound ≤ c.fuel.upperBound
          · have hthird : c.checkFuel = .ok () := if_pos hfuel
            refine .valid hmodule hname hfuel ?_
            rw [validate, hfirst, hsecond, hthird]
            rfl
          · refine .crossedFuel hmodule hname (UInt64.not_le.1 hfuel) ?_
            rw [validate, hfirst, hsecond, checkFuel, if_neg hfuel]
            rfl

theorem isGoodName_of_validate {c : Config} (h : c.validate = .ok ()) :
    IsGoodName c.filename := by
  cases c.verdict with
  | unnamedModule _ hended => cases h.symm.trans hended
  | blankName _ _ hended => cases h.symm.trans hended
  | strayName _ _ _ hended => cases h.symm.trans hended
  | crossedFuel _ _ _ hended => cases h.symm.trans hended
  | valid _ hname _ _ => exact hname

/-- A configuration is refused for the name of its artifacts exactly if that is not good, and the
guest is named. -/
theorem invalid_filename_iff {c : Config} :
    (∃ reason, c.validate = .error (.invalidValue "output.filename" reason)) ↔
      c.module ≠ "" ∧ ¬IsGoodName c.filename := by
  cases c.verdict with
  | unnamedModule hmodule hended => simp [hended, hmodule]
  | blankName hmodule hblank hended =>
      exact iff_of_true ⟨_, hended⟩ ⟨hmodule, not_isGoodName_iff.2 (.inl hblank)⟩
  | strayName hmodule _ hstray hended =>
      exact iff_of_true ⟨_, hended⟩ ⟨hmodule, not_isGoodName_iff.2 (.inr hstray)⟩
  | crossedFuel _ hname _ hended => simp [hended, hname]
  | valid _ hname _ hended => simp [hended, hname]

/-- A bare name that does not pass is one of blanks. -/
theorem bare_and_not_good_iff {name : String} :
    isBareName name = true ∧ ¬IsGoodName name ↔ Text.isBlankText name = true ∧ name ≠ "" := by
  rw [not_isGoodName_iff]
  constructor
  · rintro ⟨hbare, hblank | hstray⟩
    · refine ⟨hblank, ?_⟩
      rintro rfl
      cases hbare
    · rw [hbare] at hstray
      cases hstray
  · rintro ⟨hblank, hne⟩
    refine ⟨?_, .inl hblank⟩
    have hall : ∀ c ∈ name.toList, Text.isBlank c = true := List.all_eq_true.1 hblank
    simp only [isBareName, Bool.and_eq_true, decide_eq_true_eq, List.all_eq_true]
    refine ⟨⟨⟨hne, ?_⟩, ?_⟩, ?_⟩
    · rintro rfl
      exact absurd hblank (by decide)
    · rintro rfl
      exact absurd hblank (by decide)
    · -- none of the characters that lead elsewhere is blank
      intro c hc
      have hc := hall c hc
      refine ⟨⟨?_, ?_⟩, ?_⟩
      · rintro rfl
        cases hc
      · rintro rfl
        cases hc
      · rintro rfl
        cases hc

end CompilerHost.Config
