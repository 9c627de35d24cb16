import CompilerHost.Text.Hex
import CompilerHost.Yaml.Character
import CompilerHost.Yaml.Token

/-! # Scalars

How plain, quoted and block scalars are read, character by character. What was read of a text is
kept with the latest character first, until the scalar ends.
-/

namespace CompilerHost.Yaml

open Text

/-! ## Gaps

A gap stands between words. Inside a line it belongs to the text. With a line end in it, it is
folded: one line end becomes a space, and of several the first is dropped.
-/

/-- A gap between words. -/
structure Gap where
  /-- The blanks, the latest first, as long as no line has ended. -/
  blanks : List Char
  /-- Whether a line has ended. -/
  broken : Bool
  /-- The first end of a line, unless it is escaped. -/
  firstBreak : Option Char
  /-- The ends of empty lines behind it, the latest first. -/
  others : List Char

namespace Gap

/-- A gap in which nothing stands. -/
def empty : Gap := ⟨[], false, none, []⟩

/-- The gap behind an end of a line that is escaped. -/
def escaped : Gap := ⟨[], true, none, []⟩

/-- A gap and one more character of it; blanks at the start of a line are dropped. -/
def add (g : Gap) (c : Char) : Gap :=
  if isBreak c then
    if g.broken then { g with others := c :: g.others } else ⟨[], true, some c, []⟩
  else if g.broken then g
  else { g with blanks := c :: g.blanks }

/-- What a gap contributes to the text, the latest character first. -/
def folded (g : Gap) : List Char :=
  if g.broken then
    match g.firstBreak with
    | some '\n' => if g.others = [] then [' '] else g.others
    | some c => g.others ++ [c]
    | none => g.others
  else g.blanks

end Gap

/-! ## Plain scalars -/

/-- Where plain scalars are read. -/
structure PlainContext where
  inFlow : Bool
  /-- The column that a line of the scalar has to reach. -/
  indent : Nat

/-- A plain scalar, and whether a line ended behind it. -/
structure PlainScalar where
  text : List Char
  broken : Bool

/-- Whether a character, that stands in front of `next?`, ends a plain scalar. -/
def endsPlain (inFlow : Bool) (c : Char) (next? : Option Char) : Bool :=
  (c = ':' && endsWord next?) || (inFlow && isFlowIndicator c)

/-- Whether a colon, that stands in front of `next?`, is refused in a flow collection. -/
def isStrayColon (inFlow : Bool) (c : Char) (next? : Option Char) : Bool :=
  inFlow && c = ':' && next?.any fun n => n = '?' || isFlowIndicator n

/-- Whether no more of a plain scalar comes behind a gap. -/
def endsPlainLine (ctx : PlainContext) (p : Position) (c : Char) (rest : List Char) : Bool :=
  (!ctx.inFlow && p.column < ctx.indent) || (p.column = 0 && startsAnyMarker (c :: rest)) || c = '#'

/-- Reads a plain scalar on, behind a text and a gap. -/
def plainFrom (ctx : PlainContext) (text : List Char) (gap : Option Gap) (p : Position) :
    List Char → Option (Scanned PlainScalar)
  | [] => some ⟨⟨text.reverse, gap.any (·.broken)⟩, p, []⟩
  | c :: rest =>
    if isGap c || isBreak c then
      let g := gap.getD .empty
      if g.broken && p.column < ctx.indent && c = '\t' then none
      else plainFrom ctx text (some (g.add c)) (p.next c) rest
    else if gap.isSome && endsPlainLine ctx p c rest then
      some ⟨⟨text.reverse, gap.any (·.broken)⟩, p, c :: rest⟩
    else if isStrayColon ctx.inFlow c rest.head? then none
    else if endsPlain ctx.inFlow c rest.head? then
      some ⟨⟨text.reverse, gap.any (·.broken)⟩, p, c :: rest⟩
    else plainFrom ctx (c :: ((gap.map Gap.folded).getD [] ++ text)) none (p.next c) rest

/-! ## Quoted scalars -/

/-- What a quoted scalar is in the middle of. -/
inductive QuotedPhase where
  | word
  | gap (g : Gap)
  /-- Behind the first of two single quotes. -/
  | quote
  /-- Behind a backslash. -/
  | escape
  /-- In an escape that gives a code, so many digits before its end. -/
  | code (left value : Nat)

/-- A quoted scalar so far. -/
structure Quoted where
  phase : QuotedPhase
  text : List Char

/-- What the letter of an escape stands for. -/
def escapedChar? (c : Char) : Option Char :=
  match c with
  | '0' => some '\x00'
  | 'a' => some '\x07'
  | 'b' => some '\x08'
  | 't' | '\t' => some '\t'
  | 'n' => some '\n'
  | 'v' => some '\x0B'
  | 'f' => some '\x0C'
  | 'r' => some '\r'
  | 'e' => some '\x1B'
  | ' ' => some ' '
  | '"' => some '"'
  | '/' => some '/'
  | '\\' => some '\\'
  | 'N' => some '\u0085'
  | '_' => some '\u00A0'
  | 'L' => some '\u2028'
  | 'P' => some '\u2029'
  | _ => none

/-- How many digits follow the letter of an escape that gives a code. -/
def codeLength? (c : Char) : Option Nat :=
  match c with
  | 'x' => some 2
  | 'u' => some 4
  | 'U' => some 8
  | _ => none

/-- The character with a code. -/
def charOfCode? (n : Nat) : Option Char := if n.isValidChar then some (Char.ofNat n) else none

namespace Quoted

/-- What comes of a quoted scalar with one more character: more of it, or its text. -/
inductive Progress where
  | more (q : Quoted)
  | done (text : List Char)

/-- One more character of a word; `next?` stands behind it. -/
def word (single : Bool) (text : List Char) (c : Char) (next? : Option Char) : Progress :=
  if isGap c || isBreak c then .more ⟨.gap (Gap.empty.add c), text⟩
  else if single && c = '\'' then
    if next? = some '\'' then .more ⟨.quote, text⟩ else .done text.reverse
  else if !single && c = '"' then .done text.reverse
  else if !single && c = '\\' then .more ⟨.escape, text⟩
  else .more ⟨.word, c :: text⟩

/-- The character behind a backslash. -/
def escape (text : List Char) (c : Char) : Option Progress :=
  if isBreak c then some (.more ⟨.gap .escaped, text⟩)
  else
    match codeLength? c with
    | some n => some (.more ⟨.code n 0, text⟩)
    | none => (escapedChar? c).map fun e => .more ⟨.word, e :: text⟩

/-- One more digit of a code. -/
def code (left value : Nat) (text : List Char) (c : Char) : Option Progress := do
  let digit ← hexValue? c
  let value := value * 16 + digit
  if left ≤ 1 then
    let found ← charOfCode? value
    pure (.more ⟨.word, found :: text⟩)
  else pure (.more ⟨.code (left - 1) value, text⟩)

/-- One more character, at a place and in front of `rest`. -/
def step (single : Bool) (q : Quoted) (p : Position) (c : Char) (rest : List Char) :
    Option Progress :=
  match q.phase with
  | .word => some (word single q.text c rest.head?)
  | .quote => some (.more ⟨.word, c :: q.text⟩)
  | .escape => escape q.text c
  | .code left value => code left value q.text c
  | .gap g =>
    if isGap c || isBreak c then some (.more ⟨.gap (g.add c), q.text⟩)
    else if p.column = 0 && startsAnyMarker (c :: rest) then none
    else some (word single (g.folded ++ q.text) c rest.head?)

end Quoted

/-- Reads a quoted scalar on, up to and with the closing quote. -/
def quotedFrom (single : Bool) (q : Quoted) (p : Position) :
    List Char → Option (Scanned (List Char))
  | [] => none
  | c :: rest =>
    match q.step single p c rest with
    | none => none
    | some (.done text) => some ⟨text, p.next c, rest⟩
    | some (.more q) => quotedFrom single q (p.next c) rest

/-- Reads what follows an opening quote. -/
def quoted (single : Bool) (p : Position) (text : List Char) : Option (Scanned (List Char)) :=
  quotedFrom single ⟨.word, []⟩ p text

/-! ## Block scalars -/

/-- Which line ends at the end of a block scalar are kept. -/
inductive Chomping where
  | strip
  | clip
  | keep
deriving DecidableEq

/-- The first line of a block scalar. -/
structure BlockHeader where
  chomping : Chomping
  /-- How much deeper than around it the text is said to stand. -/
  increment : Option Nat

/-- Reads an indicator of how line ends are kept. -/
def chomping? : List Char → Option (Chomping × List Char)
  | '+' :: rest => some (.keep, rest)
  | '-' :: rest => some (.strip, rest)
  | _ => none

/-- Reads an indicator of depth, which is a digit. -/
def increment? : List Char → Option (Nat × List Char)
  | c :: rest => if c.isDigit then some (c.toNat - '0'.toNat, rest) else none
  | [] => none

/-- Reads both indicators, in either order; each may be missing. -/
def indicators (text : List Char) : BlockHeader × List Char :=
  match chomping? text with
  | some (chomping, rest) =>
    match increment? rest with
    | some (n, rest) => (⟨chomping, some n⟩, rest)
    | none => (⟨chomping, none⟩, rest)
  | none =>
    match increment? text with
    | some (n, rest) =>
      match chomping? rest with
      | some (chomping, rest) => (⟨chomping, some n⟩, rest)
      | none => (⟨.clip, some n⟩, rest)
    | none => (⟨.clip, none⟩, text)

/-- Reads to the end of a line on which nothing more than a comment may stand. -/
def lineEnd (p : Position) (text : List Char) : Option (Scanned Unit) :=
  let gap := span isGap p text
  let comment :=
    if gap.rest.head? = some '#' then span (!isBreak ·) gap.position gap.rest
    else ⟨[], gap.position, gap.rest⟩
  match comment.rest with
  | [] => some ⟨(), comment.position, []⟩
  | c :: rest => if isBreak c then some ⟨(), comment.position.next c, rest⟩ else none

/-- Reads the line of the indicators. -/
def blockHeader (p : Position) (text : List Char) : Option (Scanned BlockHeader) := do
  let (header, rest) := indicators text
  if header.increment = some 0 then none
  else
    let line ← lineEnd (p.forward (text.length - rest.length)) rest
    pure ⟨header, line.position, line.rest⟩

/-- A block scalar so far. -/
structure Block where
  /-- The column where the text starts, once that is known. -/
  indent : Option Nat
  /-- The most columns seen before that. -/
  widest : Nat
  text : List Char
  /-- The end of the line before. -/
  lastBreak : List Char
  /-- The ends of empty lines after that, the latest first. -/
  emptyLines : List Char
  /-- Whether the line before starts with a gap. -/
  wasIndented : Bool
  /-- Whether a line of text is being read. -/
  inLine : Bool

namespace Block

/-- The text when a line starts with `c`. When lines are folded, the end of the line before becomes
a space, or nothing behind an empty line, unless either of the two lines is indented further. -/
def startLine (folds : Bool) (b : Block) (c : Char) : Block :=
  let joined :=
    if folds && b.lastBreak = ['\n'] && !b.wasIndented && !isGap c then
      if b.emptyLines = [] then ' ' :: b.text else b.text
    else b.lastBreak ++ b.text
  { b with
    text := c :: (b.emptyLines ++ joined)
    lastBreak := []
    emptyLines := []
    wasIndented := isGap c
    inLine := true }

/-- The text when the scalar is over. -/
def finish (chomping : Chomping) (b : Block) : List Char :=
  match chomping with
  | .strip => b.text.reverse
  | .clip => (b.lastBreak ++ b.text).reverse
  | .keep => (b.emptyLines ++ (b.lastBreak ++ b.text)).reverse

/-- The column where the text starts, `least` if nothing goes further. -/
def settledIndent (least : Nat) (b : Block) : Nat := b.indent.getD (max b.widest least)

/-- Whether the indentation of a line is still going on at a column. -/
def isIndenting (b : Block) (column : Nat) : Bool := b.indent.all (column < ·)

end Block

/-- Reads a block scalar on. Its text stands at `least` or deeper. -/
def blockFrom (folds : Bool) (chomping : Chomping) (least : Nat) (b : Block) (p : Position) :
    List Char → Option (Scanned (List Char))
  | [] => some ⟨b.finish chomping, p, []⟩
  | c :: rest =>
    if b.inLine then
      let b :=
        if isBreak c then { b with lastBreak := [c], inLine := false }
        else { b with text := c :: b.text }
      blockFrom folds chomping least b (p.next c) rest
    else if b.isIndenting p.column && c = ' ' then
      let b := { b with widest := max b.widest (p.column + 1) }
      blockFrom folds chomping least b (p.next c) rest
    else if b.isIndenting p.column && c = '\t' then none
    else if isBreak c then
      blockFrom folds chomping least { b with emptyLines := c :: b.emptyLines } (p.next c) rest
    else
      -- the first line of text settles where all of them start
      let indent := b.settledIndent least
      if p.column = indent then
        let b := { b with indent := some indent }
        blockFrom folds chomping least (b.startLine folds c) (p.next c) rest
      else some ⟨b.finish chomping, p, c :: rest⟩

/-- Reads what follows the indicator of a block scalar, in a collection that stands at `outer`. -/
def block (folds : Bool) (outer : Option Nat) (p : Position) (text : List Char) :
    Option (Scanned (List Char)) := do
  let header ← blockHeader p text
  let start : Block :=
    { indent := header.value.increment.map (outer.getD 0 + ·)
      widest := 0
      text := []
      lastBreak := []
      emptyLines := []
      wasIndented := false
      inLine := false }
  blockFrom folds header.value.chomping (max 1 ((outer.map (· + 1)).getD 0)) start header.position
    header.rest

end CompilerHost.Yaml
