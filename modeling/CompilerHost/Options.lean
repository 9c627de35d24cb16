import CompilerHost.Text.Blank
import CompilerHost.Text.Json

/-! # Compiler options

The flags of one compile: trimmed, never empty, in the order given. The guest takes them as the
text of a JSON array.
-/

namespace CompilerHost

open Text

/-- The name under which a command line is shown. -/
def compilerName : String := "tcc"

/-- Flags in order, each a text that is its own trim and not empty. -/
structure Options where
  entries : List String
  trimmed_entries : ∀ e ∈ entries, trimmed e = e ∧ e ≠ "" := by simp

namespace Options

/-- No flags. -/
def none : Options where
  entries := []

/-- Trims each entry and leaves out those of which nothing remains. -/
def ofEntries (entries : List String) : Options where
  entries := (entries.map trimmed).filter (· ≠ "")
  trimmed_entries := by
    intro e he
    simp only [ne_eq, decide_not, List.mem_filter, List.mem_map, Bool.not_eq_eq_eq_not,
      Bool.not_true, decide_eq_false_iff_not] at he
    obtain ⟨⟨x, _, rfl⟩, hNe⟩ := he
    exact ⟨trimmed_trimmed x, hNe⟩

instance : Inhabited Options := ⟨none⟩

/-- Two lists of flags are equal if their entries are. -/
@[ext]
theorem ext {a b : Options} (h : a.entries = b.entries) : a = b := by
  cases a
  cases b
  cases h
  rfl

instance : DecidableEq Options := fun a b =>
  if h : a.entries = b.entries then isTrue (ext h) else isFalse fun e => h (e ▸ rfl)

/-- Whether there is no flag. -/
def isEmpty (o : Options) : Bool := o.entries.isEmpty

/-- The JSON array that the guest reads. -/
def json (o : Options) : String := Json.print o.entries

/-- The flags behind the compiler's name, as on a command line. -/
def commandLine (o : Options) : String := " ".intercalate (compilerName :: o.entries)

/-- Reads a JSON array of strings as flags. -/
def ofJson? (text : String) : Option Options := (Json.parse? text).map ofEntries

end Options

end CompilerHost
