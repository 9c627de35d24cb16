import CompilerHost.Text.Utf8
import CompilerHost.Yaml.Scalar

/-! # Anchors, tags and directives

What may be said of a node besides its content, and what may be said of a document before it
starts.
-/

namespace CompilerHost.Yaml

open Text

/-! ## Anchors -/

/-- Whether an anchor may end in front of a character. -/
def endsAnchor (next? : Option Char) : Bool :=
  endsWord next? || next?.any fun c => c = ']' || c = '}' || "?:,%@\x60".toList.contains c

/-- Reads the name of an anchor or an alias. -/
def anchorName (p : Position) (text : List Char) : Option (Scanned String) :=
  let name := span isNameChar p text
  if name.value ≠ [] && endsAnchor name.rest.head? then
    some ⟨String.ofList name.value, name.position, name.rest⟩
  else none

/-! ## Tags -/

/-- A tag as it is written: a handle, which may be empty, and what stands behind it. -/
structure RawTag where
  handle : String
  suffix : String

/-- Reads a byte of an escaped character. -/
def octet? : List Char → Option (Nat × List Char)
  | '%' :: a :: b :: rest => do
    let high ← hexValue? a
    let low ← hexValue? b
    pure (high * 16 + low, rest)
  | _ => none

/-- How many bytes an escaped character has, by the first of them. -/
def octetCount? (first : Nat) : Option Nat :=
  if first < 0x80 then some 1
  else if first < 0xC0 then none
  else if first < 0xE0 then some 2
  else if first < 0xF0 then some 3
  else if first < 0xF8 then some 4
  else none

/-- Reads so many bytes that do not open a character. -/
def moreOctets? : Nat → List Char → Option (List Nat × List Char)
  | 0, text => some ([], text)
  | n + 1, text => do
    let (b, rest) ← octet? text
    if b / 0x40 = 2 then
      let (others, rest) ← moreOctets? n rest
      pure (b :: others, rest)
    else none

/-- Reads an escaped character. -/
def escapedOctets? (text : List Char) : Option (List Char × List Char) := do
  let (first, rest) ← octet? text
  let count ← octetCount? first
  let (others, rest) ← moreOctets? (count - 1) rest
  let bytes := (first :: others).map UInt8.ofNat
  pure ((Utf8.lossyText (Utf8.pieces bytes)).toList, rest)

/-- Reads as long as characters may be part of a tag, so many at most, behind what is there. -/
def tagTextFrom (isPart : Char → Bool) (found : List Char) :
    Nat → List Char → Option (List Char × List Char)
  | 0, text => some (found.reverse, text)
  | _ + 1, [] => some (found.reverse, [])
  | n + 1, c :: rest =>
    if c = '%' then do
      let (chars, rest) ← escapedOctets? (c :: rest)
      tagTextFrom isPart (chars.reverse ++ found) n rest
    else if isPart c then tagTextFrom isPart (c :: found) n rest
    else some (found.reverse, c :: rest)

/-- Reads as long as characters may be part of a tag. -/
def tagText (isPart : Char → Bool) (text : List Char) : Option (List Char × List Char) :=
  tagTextFrom isPart [] text.length text

/-- What counts of a part of a tag: a zero character, which can only be escaped, ends it. -/
def tagPart (found : List Char) : String := String.ofList (found.takeWhile (· ≠ '\x00'))

/-- Reads what must not be empty. -/
def someTagText (isPart : Char → Bool) (text : List Char) : Option (List Char × List Char) := do
  let (found, rest) ← tagText isPart text
  if found.isEmpty then none else pure (found, rest)

/-- Reads a tag in full, behind its opening bracket. -/
def verbatimTag (text : List Char) : Option (RawTag × List Char) := do
  let (found, rest) ← someTagText isVerbatimTagChar text
  match rest with
  | '>' :: rest => pure (⟨"", tagPart found⟩, rest)
  | _ => none

/-- Reads a tag behind its exclamation mark: a handle and a suffix, or a suffix of the primary
handle. The mark by itself is a tag of its own. -/
def shortTag (text : List Char) : Option (RawTag × List Char) := do
  let name := text.takeWhile isNameChar
  match text.dropWhile isNameChar with
  | '!' :: rest =>
    let (found, rest) ← someTagText isTagChar rest
    pure (⟨String.ofList ('!' :: name ++ ['!']), tagPart found⟩, rest)
  | rest =>
    let (found, rest) ← tagText isTagChar rest
    match tagPart (name ++ found) with
    | "" => pure (⟨"", "!"⟩, rest)
    | suffix => pure (⟨"!", suffix⟩, rest)

/-- Reads a tag behind its exclamation mark. -/
def tag (inFlow : Bool) (p : Position) (text : List Char) : Option (Scanned RawTag) := do
  let (found, rest) ←
    match text with
    | '<' :: rest => verbatimTag rest
    | _ => shortTag text
  if endsWord rest.head? || (inFlow && rest.head? = some ',') then
    pure ⟨found, p.forward (text.length - rest.length), rest⟩
  else none

/-! ## Directives -/

/-- The most digits of a number in a version. -/
def maxVersionDigits : Nat := 9

/-- Reads a number of a version. -/
def versionNumber (text : List Char) : Option (Nat × List Char) :=
  let digits := text.takeWhile Char.isDigit
  if digits = [] || maxVersionDigits < digits.length then none
  else
    let number := digits.foldl (fun n c => n * 10 + (c.toNat - '0'.toNat)) 0
    some (number, text.dropWhile Char.isDigit)

/-- Reads a version. -/
def version (text : List Char) : Option (Token × List Char) := do
  let (major, rest) ← versionNumber (text.dropWhile isGap)
  match rest with
  | '.' :: rest =>
    let (minor, rest) ← versionNumber rest
    pure (.version major minor, rest)
  | _ => none

/-- Reads a handle with its exclamation marks. -/
def handle : List Char → Option (String × List Char)
  | '!' :: text =>
    let name := text.takeWhile isNameChar
    match text.dropWhile isNameChar with
    | '!' :: rest => some (String.ofList ('!' :: name ++ ['!']), rest)
    | rest => if name = [] then some ("!", rest) else none
  | _ => none

/-- Reads a handle and the start of the tags that it stands for. -/
def tagHandle (text : List Char) : Option (Token × List Char) := do
  let (name, rest) ← handle (text.dropWhile isGap)
  if !rest.head?.any isGap then none
  else
    let (start, rest) ← someTagText isVerbatimTagChar (rest.dropWhile isGap)
    if endsWord rest.head? then pure (.tagHandle name (tagPart start), rest) else none

/-- Reads a directive behind its percent sign, with the rest of its line. -/
def directive (p : Position) (text : List Char) : Option (Scanned Token) := do
  let name := text.takeWhile isNameChar
  let rest := text.dropWhile isNameChar
  if !endsWord rest.head? then none
  else
    let (token, rest) ←
      match String.ofList name with
      | "YAML" => version rest
      | "TAG" => tagHandle rest
      | _ => none
    let line ← lineEnd (p.forward (text.length - rest.length)) rest
    pure ⟨token, line.position, line.rest⟩

end CompilerHost.Yaml
