import CompilerHost.Yaml.Document

/-! # Reading values

What a node of a document means to a reader who knows what to expect: a text, a number, a flag, a
list or a record. Nothing is guessed: a node that is not what is expected is refused.
-/

namespace CompilerHost.Yaml

/-! ## Words -/

/-- The words for nothing. -/
def nullWords : List String := ["null", "Null", "NULL", "~"]

/-- What the words for truth values mean. -/
def flagOfWord? (word : String) : Option Bool :=
  if ["true", "True", "TRUE"].contains word then some true
  else if ["false", "False", "FALSE"].contains word then some false
  else none

/-- The value of a digit in a base up to sixteen. -/
def digitIn? (base : Nat) (c : Char) : Option Nat :=
  (Text.hexValue? c).filter (· < base)

/-- Reads digits on. -/
def digitsFrom? (base value : Nat) : List Char → Option Nat
  | [] => some value
  | c :: rest =>
    match digitIn? base c with
    | some d => digitsFrom? base (value * base + d) rest
    | none => none

/-- Reads digits, one or more. -/
def digits? (base : Nat) (text : List Char) : Option Nat :=
  if text = [] then none else digitsFrom? base 0 text

/-- Whether a text starts with a sign. -/
def isSigned (text : List Char) : Bool := text.head?.any fun c => c = '+' || c = '-'

/-- Digits behind a zero are no number, lest they be taken for octal. -/
def hasLeadingZero : List Char → Bool
  | '0' :: c :: rest => (c :: rest).all Char.isDigit
  | _ => false

/-- Reads the digits of a number, in base ten unless a letter behind a zero says otherwise. -/
def magnitude? (text : List Char) : Option Nat :=
  if isSigned text || hasLeadingZero text then none
  else
    match text with
    | '0' :: 'x' :: rest => digits? 16 rest
    | '0' :: 'o' :: rest => digits? 8 rest
    | '0' :: 'b' :: rest => digits? 2 rest
    | _ => digits? 10 text

/-- Reads a number without fraction, with an optional plus. -/
def numberOfWord? (word : String) : Option UInt64 :=
  let n? :=
    match word.toList with
    | '+' :: rest => magnitude? rest
    | text => magnitude? text
  match n? with
  | some n => if n < UInt64.size then some (UInt64.ofNat n) else none
  | none => none

/-! ## Tags -/

def nullTag : String := "tag:yaml.org,2002:null"

def numberTag : String := "tag:yaml.org,2002:int"

def flagTag : String := "tag:yaml.org,2002:bool"

/-! ## Nodes -/

namespace Document

/-- The node that a node stands for. -/
def target? (d : Document) : Node → Option Node
  | .alias number => d.anchors.node? number
  | node => some node

/-- A scalar as a text, however it is written. -/
def text? (d : Document) (node : Node) : Option String :=
  match d.target? node with
  | some (.scalar _ _ text) => some text
  | _ => none

/-- The text of a scalar that means something else than a text. It is plain, or a literal block with
the tag for what it means. -/
def word? (d : Document) (wanted : String) (node : Node) : Option String :=
  match d.target? node with
  | some (.scalar tag style text) =>
    if style = .plain || (style = .literal && tag = some wanted) then some text else none
  | _ => none

/-- A scalar as a number. -/
def number? (d : Document) (node : Node) : Option UInt64 :=
  (d.word? numberTag node).bind numberOfWord?

/-- A scalar as a truth value. -/
def flag? (d : Document) (node : Node) : Option Bool := (d.word? flagTag node).bind flagOfWord?

/-- What a plain scalar says about being nothing, with a tag: refused, if it has the tag of nothing
but is no word for it. -/
def isNothing? (tag : Option String) (text : String) : Option Bool :=
  match tag with
  | none => some (text = "" || nullWords.contains text)
  | some tag =>
    if tag = nullTag then (if nullWords.contains text then some true else none) else some false

/-- Something that may be left out by a plain word for nothing. -/
def optional? {α : Type} (d : Document) (read : Node → Option α) (node : Node) :
    Option (Option α) :=
  match d.target? node with
  | some (.scalar tag .plain text) =>
    match isNothing? tag text with
    | none => none
    | some true => some none
    | some false => (read node).map some
  | _ => (read node).map some

/-- The items of a sequence; there are none where nothing is written. -/
def items? (d : Document) (node : Node) : Option (List Node) :=
  match d.target? node with
  | some (.sequence items) => some items
  | some (.scalar _ .plain "") => some []
  | _ => none

/-- A sequence of texts. -/
def texts? (d : Document) (node : Node) : Option (List String) :=
  (d.items? node).bind fun items => items.mapM d.text?

/-- The entries of a mapping; there are none where nothing is written. -/
def entries? (d : Document) (node : Node) : Option (List (Node × Node)) :=
  match d.target? node with
  | some (.mapping entries) => some entries
  | some (.scalar _ .plain "") => some []
  | _ => none

end Document

/-- A record: the nodes of the fields that the reader knows. -/
structure Record where
  document : Document
  fields : List (String × Node)

namespace Document

/-- The entry with its key as a text. -/
def namedEntry? (d : Document) (entry : Node × Node) : Option (String × Node) :=
  (d.text? entry.1).map fun name => (name, entry.2)

/-- A mapping as a record. Its keys are texts; fields that nobody knows do not matter, and no other
may be given twice. -/
def record? (d : Document) (known : List String) (node : Node) : Option Record := do
  let entries ← d.entries? node
  let named ← entries.mapM d.namedEntry?
  let fields := named.filter fun entry => known.contains entry.1
  if (fields.map (·.1)).Nodup then pure ⟨d, fields⟩ else none

end Document

namespace Record

variable {α : Type}

/-- A field that has to be there. -/
def required? (r : Record) (name : String) (read : Document → Node → Option α) : Option α :=
  (r.fields.lookup name).bind (read r.document)

/-- A field with a value for when it is not there. -/
def withDefault? (r : Record) (name : String) (absent : α) (read : Document → Node → Option α) :
    Option α :=
  match r.fields.lookup name with
  | some node => read r.document node
  | none => some absent

/-- A field that may be missing or say nothing. -/
def optional? (r : Record) (name : String) (read : Document → Node → Option α) :
    Option (Option α) :=
  r.withDefault? name none fun d => d.optional? (read d)

end Record

end CompilerHost.Yaml
