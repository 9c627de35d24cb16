import CompilerHost.Yaml.Property

/-! # From characters to tokens

Two things are not local in a stream. A node turns out to be a key only at the colon behind it, so
the places where a key may have started are remembered, one for each flow collection that is open;
a key stands on one line and is short. And block collections have no brackets: they start where the
indentation grows, and end where it shrinks.
-/

namespace CompilerHost.Yaml

/-- A node that will be a key if a colon follows. -/
structure PossibleKey where
  /-- How many tokens stand before it. -/
  tokensBefore : Nat
  /-- Whether it can be nothing else. -/
  required : Bool
  start : Position

/-- How many bytes behind the start of a key its colon may stand. -/
def maxKeyBytes : Nat := 1024

/-- Whether a key may still get its colon here. -/
def PossibleKey.isOpen (k : PossibleKey) (p : Position) : Bool :=
  p.line ≤ k.start.line && p.offset ≤ k.start.offset + maxKeyBytes

/-- What is known of a stream up to a place in it. -/
structure TokenStream where
  position : Position
  rest : List Char
  tokens : Array Token
  /-- The columns of the open block collections, the innermost first. -/
  indents : List Nat
  /-- The possible key of the innermost collection. -/
  possibleKey : Option PossibleKey
  /-- The possible keys of the collections around the open flow collections. -/
  outerKeys : List (Option PossibleKey)
  /-- Whether a key may start here. -/
  keyAllowed : Bool

namespace TokenStream

/-- The start of a stream. -/
def ofText (text : List Char) : TokenStream where
  position := ⟨0, 0, 0⟩
  rest := text
  tokens := #[]
  indents := []
  possibleKey := none
  outerKeys := []
  keyAllowed := true

/-- Whether a flow collection is open. -/
def inFlow (s : TokenStream) : Bool := !s.outerKeys.isEmpty

/-- Adds a token. -/
def push (s : TokenStream) (t : Token) : TokenStream := { s with tokens := s.tokens.push t }

/-- Goes behind so many characters of the line. -/
def skip (s : TokenStream) (n : Nat) : TokenStream :=
  { s with position := s.position.forward n, rest := s.rest.drop n }

/-- Goes on where something was read. -/
def behind {α : Type} (s : TokenStream) (r : Scanned α) : TokenStream :=
  { s with position := r.position, rest := r.rest }

/-- Says whether a key may start from here on. -/
def allowKey (s : TokenStream) (allowed : Bool) : TokenStream := { s with keyAllowed := allowed }

/-! ## Indentation -/

/-- Closes the block collections that stand deeper than a column; all of them, if there is none. -/
def unindent (s : TokenStream) (column : Option Nat) : TokenStream :=
  if s.inFlow then s
  else
    let closed := s.indents.takeWhile fun indent => column.all (· < indent)
    { s with
      tokens := s.tokens ++ Array.replicate closed.length .blockEnd
      indents := s.indents.drop closed.length }

/-- Opens a block collection at a column, unless one stands there already. Its token goes behind so
many others. -/
def indent (s : TokenStream) (column : Nat) (opening : Token) (tokensBefore : Nat) : TokenStream :=
  if s.inFlow || !s.indents.head?.all (· < column) then s
  else
    { s with
      tokens := s.tokens.insertIdxIfInBounds tokensBefore opening
      indents := column :: s.indents }

/-! ## Keys -/

/-- Gives up a possible key, unless it can be nothing else. -/
def forgetKey (s : TokenStream) : Option TokenStream :=
  if s.possibleKey.any (·.required) then none else some { s with possibleKey := none }

/-- Remembers that a key may start here. -/
def rememberKey (s : TokenStream) : Option TokenStream :=
  if s.keyAllowed then do
    let s ← s.forgetKey
    let required := !s.inFlow && s.indents.head? = some s.position.column
    pure { s with possibleKey := some ⟨s.tokens.size, required, s.position⟩ }
  else some s

/-- A possible key as far as it is still one; none is given if it had to become one. -/
def stillPossible (p : Position) : Option PossibleKey → Option (Option PossibleKey)
  | none => some none
  | some k => if k.isOpen p then some (some k) else if k.required then none else some none

/-- Gives up the possible keys that are over. -/
def forgetOldKeys (s : TokenStream) : Option TokenStream := do
  let key ← stillPossible s.position s.possibleKey
  let outer ← s.outerKeys.mapM (stillPossible s.position)
  pure { s with possibleKey := key, outerKeys := outer }

/-! ## Between tokens -/

/-- Goes on to the next token, over gaps, comments and line ends. In a block, a line may start with
a key, and a tab is no gap where a key may start. -/
def blanksFrom (inFlow keyAllowed comment : Bool) (p : Position) : List Char → Scanned Bool
  | [] => ⟨keyAllowed, p, []⟩
  | c :: rest =>
    if isBreak c then blanksFrom inFlow (keyAllowed || !inFlow) false (p.next c) rest
    else if comment || c = ' ' || (c = '\t' && (inFlow || !keyAllowed))
        || (c = byteOrderMark && p.column = 0) then
      blanksFrom inFlow keyAllowed comment (p.next c) rest
    else if c = '#' then blanksFrom inFlow keyAllowed true (p.next c) rest
    else ⟨keyAllowed, p, c :: rest⟩

/-- Goes on to the next token. -/
def skipBlanks (s : TokenStream) : TokenStream :=
  let blanks := blanksFrom s.inFlow s.keyAllowed false s.position s.rest
  (s.behind blanks).allowKey blanks.value

/-! ## Tokens -/

/-- The end of all block collections, and of what may have been a key. -/
def leaveBlocks (s : TokenStream) : Option TokenStream :=
  (s.unindent none).forgetKey.map (·.allowKey false)

/-- A marker of documents. -/
def marker (s : TokenStream) (t : Token) : Option TokenStream :=
  s.leaveBlocks.map fun s => (s.skip 3).push t

/-- A directive. -/
def directiveLine (s : TokenStream) : Option TokenStream := do
  let s ← s.leaveBlocks
  let read ← directive (s.position.forward 1) (s.rest.drop 1)
  pure ((s.behind read).push read.value)

/-- The start of a flow collection. -/
def openFlow (s : TokenStream) (t : Token) : Option TokenStream :=
  s.rememberKey.map fun s =>
    let s := { s with outerKeys := s.possibleKey :: s.outerKeys, possibleKey := none }
    ((s.allowKey true).skip 1).push t

/-- The end of a flow collection. -/
def closeFlow (s : TokenStream) (t : Token) : Option TokenStream :=
  s.forgetKey.map fun s =>
    let s :=
      match s.outerKeys with
      | [] => s
      | key :: outer => { s with possibleKey := key, outerKeys := outer }
    ((s.allowKey false).skip 1).push t

/-- A comma. -/
def flowEntry (s : TokenStream) : Option TokenStream :=
  s.forgetKey.map fun s => ((s.allowKey true).skip 1).push .flowEntry

/-- A dash before an item. -/
def blockEntry (s : TokenStream) : Option TokenStream :=
  if !s.inFlow && !s.keyAllowed then none
  else
    (s.indent s.position.column .blockSequence s.tokens.size).forgetKey.map fun s =>
      ((s.allowKey true).skip 1).push .blockEntry

/-- A question mark before a key. -/
def explicitKey (s : TokenStream) : Option TokenStream :=
  if !s.inFlow && !s.keyAllowed then none
  else
    (s.indent s.position.column .blockMapping s.tokens.size).forgetKey.map fun s =>
      ((s.allowKey !s.inFlow).skip 1).push .key

/-- A colon: the possible key before it, if there is one, becomes a key. -/
def colon (s : TokenStream) : Option TokenStream :=
  match s.possibleKey with
  | some k =>
    -- the key's token, and the mapping's if it opens one, go in front of what was read as the key
    let tokens := s.tokens.insertIdxIfInBounds k.tokensBefore .key
    let s := { s with tokens, possibleKey := none }
    let s := s.indent k.start.column .blockMapping k.tokensBefore
    some (((s.allowKey false).skip 1).push .value)
  | none =>
    -- a value whose key is empty, or was given behind a question mark
    if !s.inFlow && !s.keyAllowed then none
    else
      let s := s.indent s.position.column .blockMapping s.tokens.size
      some (((s.allowKey !s.inFlow).skip 1).push .value)

/-- A token that may open a key and is read, behind its indicator, by `read`. -/
def opening {α : Type} (s : TokenStream) (token : α → Token)
    (read : Position → List Char → Option (Scanned α)) : Option TokenStream := do
  let s ← s.rememberKey
  let found ← read (s.position.forward 1) (s.rest.drop 1)
  pure (((s.allowKey false).behind found).push (token found.value))

/-- A quoted scalar. -/
def quotedScalar (s : TokenStream) (single : Bool) : Option TokenStream :=
  s.opening (fun text =>
      .scalar (if single then .singleQuoted else .doubleQuoted) (String.ofList text))
    (quoted single)

/-- A plain scalar. -/
def plainScalar (s : TokenStream) : Option TokenStream := do
  let s ← s.rememberKey
  let context : PlainContext := ⟨s.inFlow, (s.indents.head?.map (· + 1)).getD 0⟩
  let found ← plainFrom context [] none s.position s.rest
  let s := (s.allowKey found.value.broken).behind found
  pure (s.push (.scalar .plain (String.ofList found.value.text)))

/-- A block scalar. -/
def blockScalar (s : TokenStream) (folds : Bool) : Option TokenStream := do
  let s ← s.forgetKey
  let found ← block folds s.indents.head? (s.position.forward 1) (s.rest.drop 1)
  let style : ScalarStyle := if folds then .folded else .literal
  pure (((s.allowKey true).behind found).push (.scalar style (String.ofList found.value)))

/-- Whether a plain scalar may start with a character that stands in front of `next?`. -/
def startsPlain (inFlow : Bool) (c : Char) (next? : Option Char) : Bool :=
  (!isIndicator c && !isGap c) || (c = '-' && !next?.any isGap)
    || (!inFlow && (c = '?' || c = ':') && !endsWord next?)

/-- The token that starts with `c`, in front of `rest`. -/
def token (s : TokenStream) (c : Char) (rest : List Char) : Option TokenStream :=
  let isLineStart := s.position.column = 0
  let isAlone := endsWord rest.head?
  -- directives and markers count only at the very start of a line
  if isLineStart && c = '%' then s.directiveLine
  else if isLineStart && startsMarker '-' (c :: rest) then s.marker .documentStart
  else if isLineStart && startsMarker '.' (c :: rest) then s.marker .documentEnd
  else if c = '[' then s.openFlow .flowSequence
  else if c = '{' then s.openFlow .flowMapping
  else if c = ']' then s.closeFlow .flowSequenceEnd
  else if c = '}' then s.closeFlow .flowMappingEnd
  else if c = ',' then s.flowEntry
  else if c = '-' && isAlone then s.blockEntry
  else if c = '?' && (s.inFlow || isAlone) then s.explicitKey
  else if c = ':' && (s.inFlow || isAlone) then s.colon
  else if c = '*' then s.opening .alias anchorName
  else if c = '&' then s.opening .anchor anchorName
  else if c = '!' then s.opening (fun t => .tag t.handle t.suffix) (tag s.inFlow)
  else if c = '|' && !s.inFlow then s.blockScalar false
  else if c = '>' && !s.inFlow then s.blockScalar true
  else if c = '\'' then s.quotedScalar true
  else if c = '"' then s.quotedScalar false
  else if startsPlain s.inFlow c rest.head? then s.plainScalar
  else none

/-- Reads on to the end of the stream, so many tokens at most. -/
def run : Nat → TokenStream → Option (Array Token)
  | 0, _ => none
  | n + 1, s => do
    let s ← s.skipBlanks.forgetOldKeys
    match s.rest with
    | [] => do
      -- whatever is still open in blocks ends with the stream
      let s ← (s.unindent none).forgetKey
      pure s.tokens
    | c :: rest => do
      let s ← (s.unindent (some s.position.column)).token c rest
      run n s

end TokenStream

/-- The tokens of a stream, unless it is malformed. -/
def tokens? (text : String) : Option (List Token) :=
  let chars := text.toList
  if chars.all isAllowed then
    (TokenStream.run (chars.length + 1) (.ofText (unifyBreaks chars))).map Array.toList
  else none

end CompilerHost.Yaml
