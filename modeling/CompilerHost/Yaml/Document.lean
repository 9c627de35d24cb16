import CompilerHost.Yaml.TokenStream

/-! # Documents

A stream that holds one document is a tree of nodes. An alias stands for a node that an anchor was
given to. Anchors are numbered: a name gets the count of the names known by then, also a name that
is known already, and an alias means the latest node of its number.
-/

namespace CompilerHost.Yaml

inductive Node where
  | scalar (tag : Option String) (style : ScalarStyle) (text : String)
  | sequence (items : List Node)
  | mapping (entries : List (Node × Node))
  /-- The node that has a number. -/
  | alias (anchor : Nat)
deriving Inhabited

/-- A node where nothing is written. -/
def Node.blank : Node := .scalar none .plain ""

/-- The nodes that anchors were given to, in the order in which they start. -/
structure Anchors where
  /-- The latest number of each name. -/
  numbers : List (String × Nat)
  /-- The numbers that were given, each with its node as soon as that is complete. -/
  places : Array (Nat × Node)

namespace Anchors

def none : Anchors := ⟨[], #[]⟩

/-- Gives a name a number, and takes a place for the node. -/
def declare (a : Anchors) (name : String) : Anchors :=
  let number := a.numbers.length
  { numbers := (name, number) :: a.numbers.filter (·.1 ≠ name)
    places := a.places.push (number, .blank) }

/-- Puts a node in a place. -/
def fill (a : Anchors) (place : Nat) (node : Node) : Anchors :=
  { a with places := a.places.modify place fun entry => (entry.1, node) }

/-- The latest node of a number. -/
def node? (a : Anchors) (number : Nat) : Option Node :=
  (a.places.toList.reverse.find? (·.1 = number)).map (·.2)

end Anchors

/-- A document: its tree, and what the aliases in it stand for. -/
structure Document where
  root : Node
  anchors : Anchors

/-! ## From tokens to nodes -/

/-- What is known while a document is read. -/
structure Composing where
  tokens : List Token
  anchors : Anchors
  /-- What the handles of tags stand for. -/
  handles : List (String × String)

/-- A step in reading a document. -/
abbrev Compose := StateT Composing Option

namespace Compose

/-- The next token; none at the end of the stream. -/
def peek : Compose (Option Token) := fun s => some (s.tokens.head?, s)

/-- Goes over a token. -/
def skip : Compose Unit := fun s => some ((), { s with tokens := s.tokens.tail })

/-- Goes over a token that has to be there. -/
def expect (t : Token) : Compose Unit := do
  if (← peek) = some t then skip else failure

/-- A node, unless one of some tokens comes next. -/
def nodeUnless (ends : List Token) (node : Compose Node) : Compose Node := do
  match ← peek with
  | some t => if ends.contains t then pure .blank else node
  | none => node

/-- What an anchor and a tag say of a node, in either order. -/
structure Properties where
  anchor : Option String
  tag : Option (String × String)

/-- Reads an anchor, if one stands here. -/
def anchor? : Compose (Option String) := do
  match ← peek with
  | some (.anchor name) => do
    skip
    pure (some name)
  | _ => pure none

/-- Reads a tag, if one stands here. -/
def tag? : Compose (Option (String × String)) := do
  match ← peek with
  | some (.tag handle suffix) => do
    skip
    pure (some (handle, suffix))
  | _ => pure none

/-- Reads what is said of a node. -/
def properties : Compose Properties := do
  match ← anchor? with
  | some name => pure ⟨some name, ← tag?⟩
  | none =>
    match ← tag? with
    | some tag => pure ⟨← anchor?, some tag⟩
    | none => pure ⟨none, none⟩

/-- A tag in full. -/
def fullTag : Option (String × String) → Compose (Option String)
  | none => pure none
  | some (handle, suffix) => do
    if handle = "" then pure (some suffix)
    else
      match (← get).handles.lookup handle with
      | some start => pure (some (start ++ suffix))
      | none => failure

/-- Reads a node and gives it to its anchor. -/
def anchored (name : Option String) (node : Compose Node) : Compose Node := do
  match name with
  | none => node
  | some name => do
    let place := (← get).anchors.places.size
    -- the name is known inside of its own node
    modify fun s => { s with anchors := s.anchors.declare name }
    let found ← node
    modify fun s => { s with anchors := s.anchors.fill place found }
    pure found

/-- The node that an alias stands for has to be known. -/
def aliased (name : String) : Compose Node := do
  match (← get).anchors.numbers.lookup name with
  | some number => pure (.alias number)
  | none => failure

/-- What ends an item of a sequence that stands no deeper than the mapping around it. -/
def itemEnds : List Token := [.blockEntry, .key, .value, .blockEnd]

/-- What ends a key or a value in a block. -/
def blockEnds : List Token := [.key, .value, .blockEnd]

/-- What ends a value in a flow mapping. -/
def flowEnds : List Token := [.flowEntry, .flowMappingEnd]

/-- What ends a value in a flow sequence. -/
def pairEnds : List Token := [.flowEntry, .flowSequenceEnd]

mutual

/-- Reads a node. Only in a block may it be a block collection. -/
def node (inBlock besideKey : Bool) : Nat → Compose Node
  | 0 => failure
  | n + 1 => do
    match ← peek with
    | some (.alias name) => do
      skip
      aliased name
    | _ => do
      let said ← properties
      let tag ← fullTag said.tag
      match ← peek with
      | some (.scalar style text) => do
        skip
        anchored said.anchor (pure (.scalar tag style text))
      | some .flowSequence => do
        skip
        anchored said.anchor (.sequence <$> flowItems true n)
      | some .flowMapping => do
        skip
        anchored said.anchor (.mapping <$> flowEntries true n)
      | some .blockEntry =>
        if besideKey then anchored said.anchor (.sequence <$> itemsBesideKey n)
        else blankNode said tag
      | some .blockSequence =>
        if inBlock then do
          skip
          anchored said.anchor (.sequence <$> blockItems n)
        else blankNode said tag
      | some .blockMapping =>
        if inBlock then do
          skip
          anchored said.anchor (.mapping <$> blockEntries n)
        else blankNode said tag
      | _ => blankNode said tag

/-- A node of which something is said, but nothing is written. -/
def blankNode (said : Properties) (tag : Option String) : Compose Node :=
  if said.anchor.isSome || tag.isSome then anchored said.anchor (pure (.scalar tag .plain ""))
  else failure

/-- Reads the items of a block sequence. -/
def blockItems : Nat → Compose (List Node)
  | 0 => failure
  | n + 1 => do
    match ← peek with
    | some .blockEntry => do
      skip
      let item ← nodeUnless [.blockEntry, .blockEnd] (node true false n)
      let items ← blockItems n
      pure (item :: items)
    | some .blockEnd => do
      skip
      pure []
    | _ => failure

/-- Reads the items of a sequence that stands no deeper than the mapping around it. -/
def itemsBesideKey : Nat → Compose (List Node)
  | 0 => failure
  | n + 1 => do
    match ← peek with
    | some .blockEntry => do
      skip
      let item ← nodeUnless itemEnds (node true false n)
      let items ← itemsBesideKey n
      pure (item :: items)
    | _ => pure []

/-- Reads the entries of a block mapping. -/
def blockEntries : Nat → Compose (List (Node × Node))
  | 0 => failure
  | n + 1 => do
    match ← peek with
    | some .key => do
      skip
      let key ← nodeUnless blockEnds (node true true n)
      let value ← blockValue n
      let entries ← blockEntries n
      pure ((key, value) :: entries)
    | some .blockEnd => do
      skip
      pure []
    | _ => failure

/-- Reads the value behind a key in a block, which may be missing. -/
def blockValue : Nat → Compose Node
  | 0 => failure
  | n + 1 => do
    match ← peek with
    | some .value => do
      skip
      nodeUnless blockEnds (node true true n)
    | _ => pure .blank

/-- Reads the items of a flow sequence, the first of them or the others. A key in it opens a
mapping of one entry. -/
def flowItems (first : Bool) : Nat → Compose (List Node)
  | 0 => failure
  | n + 1 => do
    if (← peek) = some .flowSequenceEnd then do
      skip
      pure []
    else do
      if !first then expect .flowEntry
      match ← peek with
      | some .flowSequenceEnd => do
        skip
        pure []
      | some .key => do
        skip
        let key ← pairKey n
        let value ← flowValue pairEnds n
        let items ← flowItems false n
        pure (.mapping [(key, value)] :: items)
      | _ => do
        let item ← node false false n
        let items ← flowItems false n
        pure (item :: items)

/-- Reads the key of a mapping of one entry. Where it is missing, the token in its place is
lost. -/
def pairKey : Nat → Compose Node
  | 0 => failure
  | n + 1 => do
    match ← peek with
    | some .value | some .flowEntry | some .flowSequenceEnd => do
      skip
      pure .blank
    | _ => node false false n

/-- Reads the value behind a key in a flow collection, which may be missing. -/
def flowValue (ends : List Token) : Nat → Compose Node
  | 0 => failure
  | n + 1 => do
    match ← peek with
    | some .value => do
      skip
      nodeUnless ends (node false false n)
    | _ => pure .blank

/-- Reads the entries of a flow mapping, the first of them or the others. A node without a colon is
a key without a value. -/
def flowEntries (first : Bool) : Nat → Compose (List (Node × Node))
  | 0 => failure
  | n + 1 => do
    if (← peek) = some .flowMappingEnd then do
      skip
      pure []
    else do
      if !first then expect .flowEntry
      match ← peek with
      | some .flowMappingEnd => do
        skip
        pure []
      | some .key => do
        skip
        let key ← nodeUnless (.value :: flowEnds) (node false false n)
        let value ← flowValue flowEnds n
        let entries ← flowEntries false n
        pure ((key, value) :: entries)
      | _ => do
        let key ← node false false n
        let entries ← flowEntries false n
        pure ((key, .blank) :: entries)

end

/-! ## Documents -/

/-- What handles stand for if nothing else is said. -/
def standardHandles : List (String × String) := [("!", "!"), ("!!", "tag:yaml.org,2002:")]

/-- Reads directives, so many at most: one version, which has to be known, and handles, each of
them once. -/
def directives (versioned : Bool) : Nat → Compose Unit
  | 0 => failure
  | n + 1 => do
    match ← peek with
    | some (.version major minor) =>
      if versioned || major ≠ 1 || (minor ≠ 1 && minor ≠ 2) then failure
      else do
        skip
        directives true n
    | some (.tagHandle handle start) => do
      if ((← get).handles.lookup handle).isSome then failure
      else do
        skip
        modify fun s => { s with handles := (handle, start) :: s.handles }
        directives versioned n
    | _ => modify fun s => { s with handles := s.handles ++ standardHandles }

/-- Goes over the markers of a document's end, so many at most. -/
def documentEnds : Nat → Compose Unit
  | 0 => failure
  | n + 1 => do
    if (← peek) = some .documentEnd then do
      skip
      documentEnds n

/-- Whether a token cannot belong to the content of a document. -/
def isOutside : Option Token → Bool
  | none | some (.version ..) | some (.tagHandle ..) | some .documentStart | some .documentEnd =>
    true
  | _ => false

/-- Reads a document: what comes before it, its content, and nothing behind it. The first content
needs no marker, and only behind a marker may there be none. -/
def document (n : Nat) : Compose Document := do
  let starts := (← peek)
  directives false n
  match starts with
  | none | some (.version ..) | some (.tagHandle ..) | some .documentStart =>
    expect .documentStart
    let root ← if isOutside (← peek) then pure .blank else node true false n
    documentEnds n
    finish root
  | _ => do
    let root ← node true false n
    documentEnds n
    finish root
where
  /-- The document, if the stream is over. -/
  finish (root : Node) : Compose Document := do
    match ← peek with
    | none => pure ⟨root, (← get).anchors⟩
    | some _ => failure

end Compose

namespace Document

/-- The document that tokens make up. No nesting is deeper than the tokens are many. -/
def ofTokens? (tokens : List Token) : Option Document :=
  (Compose.document (4 * tokens.length + 4) |>.run ⟨tokens, .none, []⟩).map (·.1)

/-- The document that a stream holds. -/
def parse? (text : String) : Option Document := do
  let tokens ← tokens? text
  ofTokens? tokens

end Document

end CompilerHost.Yaml
