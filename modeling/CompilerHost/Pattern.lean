import CompilerHost.Text.Blank
import CompilerHost.Text.Hex
import CompilerHost.Text.Letter

/-! # Patterns

Which texts are regular expressions that a filter can match values with. A filter matches UTF-8 with
an automaton and has no tables of Unicode's properties at hand. So what needs such a table (a class
of letters, a fold of case, the limit of a word) is refused unless the pattern asks for ASCII alone;
and with ASCII alone, what would match a part of a longer character is refused.

Commas, equals signs and closing braces never get into a pattern, for they end the field that it
belongs to. That leaves no complete repetition by a number, and no name in braces.

A pattern may be nested so deep and no deeper. What counts as a level is a group, a repetition, a
bracketed class, an operator between classes, and a row of more than one part.
-/

namespace CompilerHost.Pattern

open Text

/-! ## Modes -/

/-- The modes that bear on which texts are patterns. -/
structure Modes where
  unicode : Bool
  caseless : Bool
  /-- Blanks and comments are skipped. -/
  spaced : Bool

/-- The modes in which a pattern starts. -/
def Modes.initial : Modes := ⟨true, false, false⟩

/-- The letters that switch modes on, or off behind a minus. -/
def modeSigns : List Char := "imsUuRx-".toList

/-- The signs up to a colon or a closing parenthesis, each of them once, with what ends them and
what stands behind it. -/
def signs? (found : List Char) : List Char → Option (List Char × Char × List Char)
  | [] => none
  | c :: rest =>
    if c = ':' || c = ')' then
      if found.head? = some '-' then none else some (found.reverse, c, rest)
    else if modeSigns.contains c && !found.contains c then signs? (c :: found) rest
    else none

/-- The modes after signs. -/
def Modes.switched (m : Modes) (signs : List Char) : Modes :=
  let on := signs.takeWhile (· ≠ '-')
  let mode (sign : Char) (before : Bool) : Bool :=
    if on.contains sign then true else if signs.contains sign then false else before
  ⟨mode 'u' m.unicode, mode 'i' m.caseless, mode 'x' m.spaced⟩

/-- Goes over blanks and over comments, which reach from a number sign to the end of the line. -/
def skipBlanks (inComment : Bool) : List Char → List Char
  | [] => []
  | c :: rest =>
    if inComment then skipBlanks (c ≠ '\n') rest
    else if isBlank c then skipBlanks false rest
    else if c = '#' then skipBlanks true rest
    else c :: rest

/-- Goes on to what counts. -/
def Modes.skip (m : Modes) (text : List Char) : List Char :=
  if m.spaced then skipBlanks false text else text

/-! ## Atoms -/

/-- What can be repeated as a whole, groups and bracketed classes apart. -/
inductive Atom where
  /-- A character; it may be given as the number of a byte. -/
  | literal (c : Char) (asByte : Bool)
  /-- Digits, blanks or word characters, or all but those. -/
  | named (negated : Bool)
  /-- A place at the start or the end. -/
  | edge
  /-- A place at the limit of a word, or inside of one. -/
  | wordLimit
  | anything

namespace Atom

/-- Whether an atom can be matched. -/
def isMatchable (m : Modes) : Atom → Bool
  | literal c asByte => if m.unicode then !m.caseless else !asByte || c.toNat < 0x80
  | named negated => !m.unicode && !negated
  | edge => true
  | wordLimit => !m.unicode
  | anything => m.unicode

/-- Whether an atom can be a member of a bracketed class. -/
def isMember (m : Modes) : Atom → Bool
  | literal c _ => m.unicode || c.toNat < 0x80
  | named negated => !m.unicode && !negated
  | _ => false

end Atom

/-- The characters that a backslash may stand before so that they stand for themselves. -/
def isPunctuation (c : Char) : Bool :=
  c.toNat < 0x80 && !c.isAlphanum && c ≠ '<' && c ≠ '>'

/-- The control characters that a backslash and a letter stand for. -/
def controls : List (Char × Char) :=
  [('a', '\x07'), ('f', '\x0C'), ('n', '\n'), ('r', '\r'), ('t', '\t'), ('v', '\x0B')]

/-- Reads so many digits of a number in base sixteen. -/
def hexDigits? (m : Modes) (value : Nat) : Nat → List Char → Option (Nat × List Char)
  | 0, text => some (value, text)
  | n + 1, text =>
    match m.skip text with
    | [] => none
    | c :: rest => (hexValue? c).bind fun digit => hexDigits? m (value * 16 + digit) n rest

/-- Reads a character given by its number. -/
def numbered? (m : Modes) (digits : Nat) (text : List Char) : Option (Atom × List Char) := do
  let (n, rest) ← hexDigits? m 0 digits text
  if n.isValidChar then pure (.literal (Char.ofNat n) (digits = 2), rest) else none

/-- Reads what follows a backslash. -/
def escape? (m : Modes) : List Char → Option (Atom × List Char)
  | [] => none
  | c :: rest =>
    if isPunctuation c then some (.literal c false, rest)
    else if let some control := controls.lookup c then some (.literal control false, rest)
    else if "dsw".toList.contains c then some (.named false, rest)
    else if "DSW".toList.contains c then some (.named true, rest)
    else if "Az".toList.contains c then some (.edge, rest)
    else if "bB<>".toList.contains c then some (.wordLimit, rest)
    else if c = 'x' then numbered? m 2 rest
    else if c = 'u' then numbered? m 4 rest
    else if c = 'U' then numbered? m 8 rest
    else none

/-- Reads an atom that starts with `c`. -/
def atom? (m : Modes) (c : Char) (rest : List Char) : Option (Atom × List Char) :=
  if c = '\\' then escape? m rest
  else if c = '.' then some (.anything, rest)
  else if c = '^' || c = '$' then some (.edge, rest)
  else some (.literal c false, rest)

/-! ## Nesting -/

/-- The most levels of a pattern. -/
def maxDepth : Nat := 250

/-- The depth of a row of parts. One part by itself makes no row. -/
def rowDepth : List Nat → Nat
  | [] => 0
  | [part] => part
  | parts => parts.foldl max 0 + 1

/-! ## Bracketed classes -/

/-- Whether a class can have members. None has its cases folded without a table. -/
def Modes.allowMembers (m : Modes) : Bool := !(m.unicode && m.caseless)

/-- Reads a member of a class. -/
def member? (m : Modes) (c : Char) (rest : List Char) : Option (Atom × List Char) := do
  let (found, rest) ← if c = '\\' then escape? m rest else pure (.literal c false, rest)
  if found.isMember m && m.allowMembers then pure (found, rest) else none

/-- The character that decides whether a minus in front of it makes a range. The text of a comment
is taken for what follows the comment. -/
def Modes.peek? (m : Modes) (text : List Char) : Option Char :=
  if m.spaced then
    match text.dropWhile isBlank with
    | '#' :: rest => (rest.dropWhile isBlank).head?
    | rest => rest.head?
  else text.head?

/-- Whether a minus behind a member makes a range. It does not in front of another, with which it is
an operator, nor at the end of a class, where it is a member itself. -/
def opensRange (m : Modes) : List Char → Bool
  | '-' :: rest => m.peek? rest ≠ some ']' && m.peek? rest ≠ some '-'
  | _ => false

/-- Reads a member, or a range from one character to another that does not come before it. -/
def memberOrRange? (m : Modes) (c : Char) (rest : List Char) : Option (List Char) := do
  let (first, rest) ← member? m c rest
  let rest := m.skip rest
  if opensRange m rest then
    match m.skip rest.tail with
    | [] => none
    | c :: rest =>
      let (last, rest) ← member? m c rest
      match first, last with
      | .literal a _, .literal b _ => if a ≤ b then pure rest else none
      | _, _ => none
  else pure rest

/-- The classes of ASCII characters that have a name. -/
def classNames : List String :=
  ["alnum", "alpha", "ascii", "blank", "cntrl", "digit", "graph", "lower", "print", "punct",
    "space", "upper", "word", "xdigit"]

/-- What stands behind a named class, if there is one behind an opening bracket, and whether it is
negated. -/
def namedClass? : List Char → Option (Bool × List Char)
  | ':' :: rest =>
    let (negated, rest) :=
      match rest with
      | '^' :: rest => (true, rest)
      | _ => (false, rest)
    match rest.dropWhile (· ≠ ':') with
    | ':' :: ']' :: after =>
      if classNames.contains (String.ofList (rest.takeWhile (· ≠ ':'))) then some (negated, after)
      else none
    | _ => none
  | _ => none

/-- A class that is open: the depth of what is on the left of the last operator, and those of the
members since. -/
structure OpenClass where
  left : Option Nat
  members : List Nat

namespace OpenClass

/-- Right behind the opening bracket. -/
def fresh : OpenClass := ⟨none, []⟩

/-- The class with another member. -/
def add (c : OpenClass) (depth : Nat) : OpenClass := { c with members := depth :: c.members }

/-- The depth of what is in the brackets. -/
def depth (c : OpenClass) : Nat :=
  match c.left with
  | none => rowDepth c.members
  | some left => max left (rowDepth c.members) + 1

/-- Behind an operator. -/
def operate (c : OpenClass) : OpenClass := ⟨some c.depth, []⟩

end OpenClass

/-- How far the reading of a class is. -/
inductive ClassPhase where
  /-- Behind the opening bracket, where a caret negates the class. -/
  | caret
  /-- Where minus signs are members, and a closing bracket is one if none came before it. -/
  | first (afterMinus : Bool)
  | members

/-- Reads a class to its end, with the classes that are open around it, in so many steps at most.
Gives the depth of the outermost. -/
def classEnd? (m : Modes) :
    Nat → ClassPhase → OpenClass → List OpenClass → List Char → Option (Nat × List Char)
  | 0, _, _, _, _ => none
  | n + 1, phase, inner, outer, text =>
    match phase, m.skip text with
    | _, [] => none
    | .caret, c :: rest =>
      if c = '^' then
        if m.unicode then classEnd? m n (.first false) inner outer rest else none
      else classEnd? m n (.first false) inner outer (c :: rest)
    | .first afterMinus, c :: rest =>
      if c = '-' then
        if m.allowMembers then classEnd? m n (.first true) (inner.add 0) outer rest else none
      else if c = ']' && !afterMinus then
        if m.allowMembers then classEnd? m n .members (inner.add 0) outer rest else none
      else classEnd? m n .members inner outer (c :: rest)
    | .members, c :: rest =>
      if c = '[' then
        match namedClass? rest with
        | some (negated, rest) =>
          if m.allowMembers && (m.unicode || !negated) then
            classEnd? m n .members (inner.add 0) outer rest
          else none
        | none => classEnd? m n .caret .fresh (inner :: outer) rest
      else if c = ']' then
        match outer with
        | [] => some (inner.depth + 1, rest)
        | around :: outer => classEnd? m n .members (around.add (inner.depth + 1)) outer rest
      else if (c = '&' || c = '-' || c = '~') && rest.head? = some c then
        classEnd? m n .members inner.operate outer rest.tail
      else
        (memberOrRange? m c rest).bind fun rest => classEnd? m n .members (inner.add 0) outer rest

/-- Reads a class behind its opening bracket. -/
def class? (m : Modes) (text : List Char) : Option (Nat × List Char) :=
  classEnd? m (3 * text.length + 3) .caret .fresh [] text

/-! ## Groups -/

/-- Something that is read. -/
structure Part where
  depth : Nat
  /-- Whether it does nothing but switch modes, so that it cannot be repeated. -/
  switches : Bool

/-- A group as far as it is read: the alternatives that are complete, and the parts of the last one,
the latest first. -/
structure OpenGroup where
  /-- The modes to return to at its end. -/
  modes : Modes
  alternatives : List Nat
  parts : List Part

namespace OpenGroup

/-- Right behind the opening parenthesis. -/
def fresh (modes : Modes) : OpenGroup := ⟨modes, [], []⟩

/-- The depth of the last alternative. -/
def lastDepth (g : OpenGroup) : Nat := rowDepth (g.parts.map Part.depth)

/-- The depth of what is in the group. -/
def depth (g : OpenGroup) : Nat := rowDepth (g.lastDepth :: g.alternatives)

end OpenGroup

/-- A pattern as far as it is read. -/
structure Reading where
  modes : Modes
  inner : OpenGroup
  /-- The groups that are open around it, the innermost first. -/
  outer : List OpenGroup
  /-- The names of groups. -/
  names : List (List Char)

namespace Reading

/-- Before anything is read. -/
def start : Reading := ⟨.initial, .fresh .initial, [], []⟩

/-- The reading with another part. -/
def add (r : Reading) (part : Part) : Reading :=
  { r with inner := { r.inner with parts := part :: r.inner.parts } }

/-- Behind something that can be repeated. -/
def addPart (r : Reading) (depth : Nat) : Reading := r.add ⟨depth, false⟩

/-- Behind a bar. -/
def nextAlternative (r : Reading) : Reading :=
  { r with inner :=
      { r.inner with alternatives := r.inner.lastDepth :: r.inner.alternatives, parts := [] } }

/-- Behind a sign that repeats the last part. -/
def repeatLast? (r : Reading) : Option Reading :=
  match r.inner.parts with
  | [] => none
  | part :: parts =>
    if part.switches then none
    else some { r with inner := { r.inner with parts := ⟨part.depth + 1, false⟩ :: parts } }

/-- Inside of a group with modes of its own. -/
def inGroup (r : Reading) (modes : Modes) : Reading :=
  { r with modes, inner := .fresh r.modes, outer := r.inner :: r.outer }

/-- Behind the closing parenthesis of a group. -/
def closeGroup? (r : Reading) : Option Reading :=
  match r.outer with
  | [] => none
  | around :: outer =>
    some (addPart { r with modes := r.inner.modes, inner := around, outer } (r.inner.depth + 1))

/-- Whether a text is the name of a group. -/
def isGroupName : List Char → Bool
  | [] => false
  | c :: rest =>
    (c = '_' || isLetter c)
      && rest.all fun c => isAlphanumeric c || "_.[]".toList.contains c

/-- Reads a name up to its closing bracket, and opens the group that has it. -/
def namedGroup? (r : Reading) (text : List Char) : Option (Reading × List Char) :=
  let name := text.takeWhile (· ≠ '>')
  match text.dropWhile (· ≠ '>') with
  | [] => none
  | _ :: rest =>
    if isGroupName name && !r.names.contains name then
      some ({ r.inGroup r.modes with names := name :: r.names }, rest)
    else none

/-- Reads signs: they are for a group behind a colon, and else for the rest of the group around
them. -/
def switches? (r : Reading) (text : List Char) : Option (Reading × List Char) := do
  let (signs, ending, rest) ← signs? [] text
  let modes := r.modes.switched signs
  if ending = ':' then pure (r.inGroup modes, rest)
  else if signs.isEmpty then none
  else pure (add { r with modes } ⟨0, true⟩, rest)

/-- Reads what follows an opening parenthesis. There is no looking ahead or behind. -/
def openGroup? (r : Reading) (text : List Char) : Option (Reading × List Char) :=
  match r.modes.skip text with
  | '?' :: 'P' :: '<' :: rest => r.namedGroup? rest
  | '?' :: '<' :: rest => r.namedGroup? rest
  | '?' :: rest => r.switches? rest
  | text => some (r.inGroup r.modes, text)

/-- Reads on at `c`, which is no blank. -/
def step? (r : Reading) (c : Char) (rest : List Char) : Option (Reading × List Char) :=
  if c = '(' then r.openGroup? rest
  else if c = ')' then r.closeGroup?.map fun r => (r, rest)
  else if c = '|' then some (r.nextAlternative, rest)
  else if c = '[' then (class? r.modes rest).map fun (depth, rest) => (r.addPart depth, rest)
  else if c = '?' || c = '*' || c = '+' then
    r.repeatLast?.map fun r => (r, if rest.head? = some '?' then rest.tail else rest)
  else if c = '{' then none
  else do
    let (found, rest) ← atom? r.modes c rest
    if found.isMatchable r.modes then pure (r.addPart 0, rest) else none

/-- Whether a pattern can be read to its end in so many steps, and is not too deep. -/
def finishes : Nat → Reading → List Char → Bool
  | 0, _, _ => false
  | n + 1, r, text =>
    match r.modes.skip text with
    | [] => r.outer.isEmpty && r.inner.depth ≤ maxDepth
    | c :: rest =>
      match r.step? c rest with
      | some (r, rest) => finishes n r rest
      | none => false

end Reading

/-- Whether a text is a pattern. -/
def isPattern (text : List Char) : Bool := Reading.start.finishes (text.length + 1) text

end CompilerHost.Pattern
