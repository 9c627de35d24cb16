/-! # Paths

A path is a text with slashes in it. Joining is textual and nothing is normalised; only walking a
path, in a file system, gives a meaning to `.` and `..`.
-/

namespace CompilerHost.Path

/-- Whether a path starts at the root. -/
def isAbsolute (path : String) : Bool := path.toList.head? = some '/'

/-- A path seen from a base: an absolute path stays as it is, any other goes behind the base, with
a slash between them unless the base is empty or ends in one. -/
def join (base path : String) : String :=
  if isAbsolute path then path
  else if base.toList.getLast? = none ∨ base.toList.getLast? = some '/' then base ++ path
  else base ++ "/" ++ path

/-- The texts between slashes, empty ones included. -/
def segments : List Char → List (List Char)
  | [] => [[]]
  | c :: cs =>
    if c = '/' then [] :: segments cs
    else
      match segments cs with
      | [] => [[c]]
      | s :: rest => (c :: s) :: rest

/-- Texts with slashes between them. -/
def unsegments : List (List Char) → List Char
  | [] => []
  | [s] => s
  | s :: rest => s ++ '/' :: unsegments rest

/-- A segment that leads nowhere. -/
def isTrivial (segment : List Char) : Bool := segment = [] || segment = ['.']

/-- What a path starts with before its first segment that leads somewhere: the root, or a leading
dot. -/
def anchor : List Char → List Char × List Char
  | '/' :: rest => (['/'], rest)
  | ['.'] => (['.'], [])
  | '.' :: '/' :: rest => (['.'], '/' :: rest)
  | cs => ([], cs)

/-- Leaves out the segments at the end that lead nowhere. -/
def dropTrivialEnd (segments : List (List Char)) : List (List Char) :=
  (segments.reverse.dropWhile isTrivial).reverse

/-- The path without its last component; the root and the empty path have none to lose. -/
def parent? (path : String) : Option String :=
  let (start, body) := anchor path.toList
  match dropTrivialEnd (segments body) with
  | [] => if start = ['.'] then some "" else none
  | kept => some (String.ofList (start ++ unsegments (dropTrivialEnd kept.dropLast)))

/-- The path and the paths above it, the nearest first; so many at most. -/
def ancestors (path : String) : Nat → List String
  | 0 => []
  | n + 1 => path :: ((parent? path).map (ancestors · n)).getD []

end CompilerHost.Path
