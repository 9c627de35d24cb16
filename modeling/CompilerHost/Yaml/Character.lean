/-! # Characters of YAML

Which characters a stream may hold and what they are for. Line ends are unified before anything else
looks at a stream, so that each of them is one character.
-/

namespace CompilerHost.Yaml

/-- The mark that may open a line and says nothing. -/
def byteOrderMark : Char := '\uFEFF'

/-- Characters that may stand in a stream. -/
def isAllowed (c : Char) : Bool :=
  let n := c.toNat
  n = 0x09 || n = 0x0A || n = 0x0D || (0x20 ≤ n && n ≤ 0x7E) || n = 0x85
    || (0xA0 ≤ n && n ≤ 0xD7FF) || (0xE000 ≤ n && n ≤ 0xFFFD) || 0x10000 ≤ n

/-- Ends of lines, once they are unified. -/
def isBreak (c : Char) : Bool := c = '\n' || c = '\u2028' || c = '\u2029'

/-- Puts a line feed for each end of a line that is written otherwise; the separators of lines and
of paragraphs stay. What is done already comes with the latest first. -/
def unifyBreaksAfter (done : List Char) : List Char → List Char
  | [] => done.reverse
  | '\r' :: '\n' :: rest => unifyBreaksAfter ('\n' :: done) rest
  | '\r' :: rest => unifyBreaksAfter ('\n' :: done) rest
  | '\u0085' :: rest => unifyBreaksAfter ('\n' :: done) rest
  | c :: rest => unifyBreaksAfter (c :: done) rest

/-- A stream with one character for each end of a line. -/
def unifyBreaks (cs : List Char) : List Char := unifyBreaksAfter [] cs

/-- Spaces and tabs. -/
def isGap (c : Char) : Bool := c = ' ' || c = '\t'

/-- Whether a word ends here: in front of a gap, of a break, or of the end of the stream. -/
def endsWord : Option Char → Bool
  | none => true
  | some c => isGap c || isBreak c

/-- Characters of anchors and of handles. -/
def isNameChar (c : Char) : Bool := c.isAlphanum || c = '_' || c = '-'

/-- Characters of tags. -/
def isTagChar (c : Char) : Bool := isNameChar c || ";/?:@&=+$.%!~*'()".toList.contains c

/-- Characters that may stand only in tags that are given in full. -/
def isVerbatimTagChar (c : Char) : Bool := isTagChar c || c = ',' || c = '[' || c = ']'

/-- Characters that structure a flow collection. -/
def isFlowIndicator (c : Char) : Bool := c = ',' || c = '[' || c = ']' || c = '{' || c = '}'

/-- Characters that no plain scalar starts with, unless something more is said. -/
def isIndicator (c : Char) : Bool :=
  isFlowIndicator c || "-?:#&*!|>'\"%@\x60".toList.contains c

/-- Whether `text` starts with a marker of documents: three of `mark`, and nothing behind. -/
def startsMarker (mark : Char) : List Char → Bool
  | a :: b :: c :: rest => a = mark && b = mark && c = mark && endsWord rest.head?
  | _ => false

/-- Whether a marker of documents stands here, given that it is the start of a line. -/
def startsAnyMarker (text : List Char) : Bool := startsMarker '-' text || startsMarker '.' text

/-- A place in a stream. -/
structure Position where
  /-- The bytes before it. Only distances inside of a line count, so that it does not matter how the
  ends of lines were written. -/
  offset : Nat
  line : Nat
  /-- The characters before it in its line. -/
  column : Nat
deriving Repr

namespace Position

/-- The place behind a character. -/
def next (p : Position) (c : Char) : Position :=
  let offset := p.offset + c.utf8Size
  if isBreak c then ⟨offset, p.line + 1, 0⟩ else ⟨offset, p.line, p.column + 1⟩

/-- The place behind so many more characters of a line, each of them in ASCII. -/
def forward (p : Position) (n : Nat) : Position := ⟨p.offset + n, p.line, p.column + n⟩

end Position

/-- Something read, and where the reading stopped. -/
structure Scanned (α : Type) where
  value : α
  position : Position
  rest : List Char

/-- Reads on in a line as long as characters are of a kind. -/
def span (kind : Char → Bool) (p : Position) (text : List Char) : Scanned (List Char) :=
  let found := text.takeWhile kind
  ⟨found, found.foldl Position.next p, text.dropWhile kind⟩

end CompilerHost.Yaml
