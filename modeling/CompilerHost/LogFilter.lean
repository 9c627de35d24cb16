import CompilerHost.Event
import CompilerHost.Pattern

/-! # Log filters

Which events the operator sees. A filter is a list of directives, each of which sets a level for the
targets that start with a name, or for all. Of the directives that fit an event the most specific
one decides, and without one the event is dropped.
-/

namespace CompilerHost

/-- Why directives cannot be read. -/
inductive LogFilter.Misread where
  | malformed
  /-- A cut falls into the middle of a character. -/
  | splitCharacter
deriving DecidableEq, Repr

open LogFilter (Misread)

/-- A field that an event has to have. -/
structure FieldMatch where
  name : String
  /-- Whether its value has to match as well. -/
  hasValue : Bool
deriving DecidableEq, Repr

namespace FieldMatch

/-- Whether a text is a number with digits after a point and an exponent, each of which may be
missing. -/
def isDecimal (text : List Char) : Bool :=
  let whole := text.takeWhile Char.isDigit
  let rest := text.dropWhile Char.isDigit
  let (fraction, rest) :=
    match rest with
    | '.' :: rest => (rest.takeWhile Char.isDigit, rest.dropWhile Char.isDigit)
    | rest => ([], rest)
  !(whole ++ fraction).isEmpty && isExponent rest
where
  /-- Whether nothing is left but an exponent. -/
  isExponent : List Char → Bool
    | [] => true
    | c :: rest =>
      let digits :=
        match rest with
        | '+' :: digits | '-' :: digits => digits
        | digits => digits
      (c = 'e' || c = 'E') && digits ≠ [] && digits.all Char.isDigit

/-- The words for numbers that have no digits. -/
def numberWords : List String := ["inf", "infinity", "nan"]

/-- Whether values can match a text. A number with a plus is no pattern, but stands for itself. -/
def isMatcher (text : List Char) : Bool :=
  match text with
  | '+' :: rest =>
    isDecimal rest || numberWords.contains (String.ofList (rest.map Char.toLower))
  | _ => Pattern.isPattern text

/-- Reads a name, or a name, an equals sign and what its value has to match; what follows another
equals sign does not matter. -/
def parse (text : List Char) : Except Misread FieldMatch :=
  let name := String.ofList (text.takeWhile (· ≠ '='))
  match text.dropWhile (· ≠ '=') with
  | [] => .ok ⟨name, false⟩
  | _ :: rest =>
    if isMatcher (rest.takeWhile (· ≠ '=')) then .ok ⟨name, true⟩ else .error .malformed

end FieldMatch

/-- A level for some events. -/
structure LogDirective where
  /-- What the targets start with; all fit if it is missing. -/
  target : Option String
  /-- The rank of the least important level that is let through. -/
  rank : Nat
  /-- The field that an event has to have. -/
  field : Option FieldMatch
  /-- Whether only events inside of spans are meant. -/
  inSpan : Bool
deriving DecidableEq, Repr

namespace LogDirective

/-- The rank that lets nothing through. -/
def offRank : Nat := 0

/-- The rank that lets everything through. -/
def fullRank : Nat := Level.trace.rank

/-- Levels by name. -/
def named : List (String × Nat) :=
  ("off", offRank) ::
    [Level.error, .warn, .info, .debug, .trace].map fun l =>
      (String.ofList (l.name.toList.map Char.toLower), l.rank)

/-- The value of digits. -/
def decimal (digits : List Char) : Nat :=
  digits.foldl (fun n c => n * 10 + (c.toNat - '0'.toNat)) 0

/-- A level as a number. -/
def rankOfNumber? (text : List Char) : Option Nat :=
  let digits :=
    match text with
    | '+' :: rest => rest
    | _ => text
  if digits ≠ [] && digits.all Char.isDigit && decimal digits ≤ fullRank then some (decimal digits)
  else none

/-- A level as a number or by its name, in letters of either case. -/
def rank? (text : List Char) : Option Nat :=
  match rankOfNumber? text with
  | some n => some n
  | none => named.lookup (String.ofList (text.map Char.toLower))

/-! ### Reading

Blanks around a directive do not count where its parts are looked for, but they stay in the text
that the parts are taken from. So blanks at the start move every part to the left: a level that an
equals sign announces is then spoiled by the sign itself, and a part may start inside of a longer
blank.
-/

/-- The bytes of a text. -/
def byteCount (text : List Char) : Nat := (String.ofList text).utf8ByteSize

/-- What stands behind so many bytes. -/
def behind : Nat → List Char → Except Misread (List Char)
  | 0, text => .ok text
  | _ + 1, [] => .error .splitCharacter
  | n + 1, c :: rest =>
    if c.utf8Size ≤ n + 1 then behind (n + 1 - c.utf8Size) rest else .error .splitCharacter

/-- The part of a text with so many bytes, behind so many. -/
def part (text : List Char) (before bytes : Nat) : Except Misread (List Char) := do
  let rest ← behind before text
  let after ← behind bytes rest
  pure (rest.take (rest.length - after.length))

/-- The level that starts behind so many bytes; nothing stands for all levels. -/
def rankBehind (text : List Char) (before : Nat) : Except Misread Nat := do
  let word ← behind before text
  if word = [] then pure fullRank
  else
    match rank? word with
    | some rank => pure rank
    | none => throw .malformed

/-- The level behind a target and a span; `left` is what is left behind so many bytes. -/
def rankAtEnd (text : List Char) (before : Nat) : List Char → Except Misread Nat
  | [] => .ok fullRank
  | '=' :: _ => rankBehind text (before + 1)
  | _ => .error .malformed

/-- The part in brackets, whose opening one is the last of the bytes `before`: a span, a field in
braces, or both. -/
def bracketed (text : List Char) (target : Option String) (before : Nat) (left : List Char) :
    Except Misread LogDirective := do
  let isEnd (c : Char) : Bool := c = ']' || c = '{'
  let bytes := byteCount (left.takeWhile (!isEnd ·))
  match left.dropWhile (!isEnd ·) with
  | ']' :: left =>
    let _ ← part text before bytes
    let rank ← rankAtEnd text (before + bytes + 1) left
    pure ⟨target, rank, none, true⟩
  | '{' :: left =>
    let span ← part text before bytes
    let before := before + bytes + 1
    let bytes := byteCount (left.takeWhile (· ≠ '}'))
    match left.dropWhile (· ≠ '}') with
    | [] => throw .malformed
    | _ :: left =>
      let content ← part text before bytes
      if content = [] then throw .malformed
      else
        let field ← FieldMatch.parse content
        match left with
        | ']' :: left =>
          let rank ← rankAtEnd text (before + bytes + 2) left
          -- a field's value can only be known inside of a span
          pure ⟨target, rank, some field, span ≠ [] || field.hasValue⟩
        | _ => throw .malformed
  | _ => throw .malformed

/-- Whether a target may start with a character. -/
def startsTarget (c : Char) : Bool := Text.isAlphanumeric c || c = '-' || c = ':' || c = '_'

/-- A directive that does not start with a bracket: a level, a target, or a target and its level.
The blanks around it are not in `left`. -/
def unbracketed (text left : List Char) : Except Misread LogDirective := do
  let isEnd (c : Char) : Bool := c = '=' || c = '['
  let bytes := byteCount (left.takeWhile (!isEnd ·))
  match left.dropWhile (!isEnd ·) with
  | [] =>
    match rank? text with
    | some rank => pure ⟨none, rank, none, false⟩
    | none => pure ⟨some (String.ofList text), fullRank, none, false⟩
  | c :: left =>
    let target := some (String.ofList (← part text 0 bytes))
    if c = '[' then bracketed text target (bytes + 1) left
    else do
      let rank ← rankBehind text (bytes + 1)
      pure ⟨target, rank, none, false⟩

/-- Reads a directive. -/
def parse (text : List Char) : Except Misread LogDirective :=
  match Text.trim text with
  | [] => .error .malformed
  | c :: left =>
    if c = '[' then bracketed text none 1 left
    else if startsTarget c then unbracketed text (c :: left)
    else .error .malformed

/-- The fields that every event has. -/
def eventFields : List String := ["message"]

/-- Whether a directive is about an event. There are no spans. -/
def fits (d : LogDirective) (e : Event) : Bool :=
  !d.inSpan && d.field.all (fun f => eventFields.contains f.name)
    && d.target.all fun t => t.isPrefixOf e.target

/-- How specific a directive is: by target, and then by field. -/
def weight (d : LogDirective) : Nat :=
  let field := if d.field.isSome then 1 else 0
  match d.target with
  | none => field
  | some t => 2 * (t.length + 1) + field

end LogDirective

/-- Directives in the order in which they were given. -/
structure LogFilter where
  directives : List LogDirective
deriving DecidableEq, Repr

namespace LogFilter

/-- Errors alone, which is what a filter without directives lets through. -/
def errorsOnly : LogFilter := ⟨[⟨none, Level.error.rank, none, false⟩]⟩

/-- The filter for a level and all that matter more. -/
def upTo (l : Level) : LogFilter := ⟨[⟨none, l.rank, none, false⟩]⟩

/-- The parts of a list with commas in it. -/
def parts (text : List Char) : List (List Char) := text.splitOn ','

/-- Reads directives with commas between them. The first that cannot be read decides why. -/
def parse (text : String) : Except Misread LogFilter := do
  let directives ← ((parts text.toList).filter (· ≠ [])).mapM LogDirective.parse
  if directives.isEmpty then pure errorsOnly else pure ⟨directives⟩

/-- The filter to be used if the first cannot be read. A cut in the middle of a character ends the
program. -/
def orElse (first : Except Misread LogFilter) (second : Unit → Except Misread LogFilter) :
    Except Misread LogFilter :=
  match first with
  | .error .malformed => second ()
  | decided => decided

/-- The first of the filters at hand that can be read: the environment's, the configured one, and
one for what is of general interest. -/
def choose (environment : Option String) (configured : String) : Except Misread LogFilter :=
  orElse ((environment.map parse).getD (.error .malformed)) fun () =>
    orElse (parse configured) fun () => .ok (upTo .info)

/-- The directive that decides on an event: the latest of the most specific ones. -/
def deciding? (f : LogFilter) (e : Event) : Option LogDirective :=
  (f.directives.filter (·.fits e)).foldl
    (fun best? d =>
      match best? with
      | none => some d
      | some best => if best.weight ≤ d.weight then some d else some best)
    none

/-- Whether an event is let through. -/
def allows (f : LogFilter) (e : Event) : Bool :=
  match f.deciding? e with
  | none => false
  | some d => e.level.rank ≤ d.rank

end LogFilter

end CompilerHost
