/-! # Tokens of YAML

What a stream is made of, once scalars are read and the indentation is turned into explicit starts
and ends.
-/

namespace CompilerHost.Yaml

/-- How a scalar was written. -/
inductive ScalarStyle where
  | plain
  | singleQuoted
  | doubleQuoted
  | literal
  | folded
deriving DecidableEq, Repr

inductive Token where
  /-- The version that a document asks for. -/
  | version (major minor : Nat)
  /-- An abbreviation for the start of tags. -/
  | tagHandle (handle start : String)
  | documentStart
  | documentEnd
  | blockSequence
  | blockMapping
  /-- The end of a block collection, which the indentation gave. -/
  | blockEnd
  | flowSequence
  | flowSequenceEnd
  | flowMapping
  | flowMappingEnd
  /-- A dash before an item. -/
  | blockEntry
  /-- A comma between items. -/
  | flowEntry
  /-- What follows is a key. -/
  | key
  /-- What follows is the value of a key. -/
  | value
  | alias (name : String)
  | anchor (name : String)
  | tag (handle suffix : String)
  | scalar (style : ScalarStyle) (text : String)
deriving DecidableEq, Repr

end CompilerHost.Yaml
