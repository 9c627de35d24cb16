import CompilerHost.Action
import CompilerHost.FileSystem.Path
import CompilerHost.Text.Utf8

/-! # File systems

A file system as a value: what stands at each place, and the directory that relative paths start
from. Reading, writing and making directories follow the rules of the operating system, with its
errors. There are no links and no permissions, and the disk is never full.
-/

namespace CompilerHost

/-- What stands at a place. -/
inductive FileSystem.Node where
  | file (content : ByteArray)
  | directory
deriving DecidableEq

/-- Places are lists of names from the root down, and the root is always there. -/
structure FileSystem where
  nodes : List (List String × FileSystem.Node)
  workingDirectory : List String

namespace FileSystem

/-- The most bytes of a name. -/
def maxNameBytes : Nat := 255

/-- The most bytes of a path. -/
def maxPathBytes : Nat := 4095

/-- An empty file system but for the working directory and those above it. -/
def empty (workingDirectory : List String) : FileSystem where
  nodes := (List.range workingDirectory.length).map fun i =>
    (workingDirectory.take (i + 1), .directory)
  workingDirectory := workingDirectory

/-- What stands at a place. -/
def node? (fs : FileSystem) (place : List String) : Option Node :=
  if place = [] then some .directory else fs.nodes.lookup place

/-- The file system with a place filled anew. -/
def put (fs : FileSystem) (place : List String) (node : Node) : FileSystem :=
  { fs with nodes :=
      if fs.nodes.any (·.1 = place) then
        fs.nodes.map fun entry => if entry.1 = place then (place, node) else entry
      else fs.nodes ++ [(place, node)] }

/-- Where a path leads. -/
inductive Destination where
  | directory (place : List String)
  | file (place : List String) (content : ByteArray)
  /-- Nothing is there, in a directory that is. -/
  | vacant (place : List String)
deriving DecidableEq

/-- Follows names from a directory on. -/
def walk (fs : FileSystem) (place : List String) : List String → Except OsError Destination
  | [] => .ok (.directory place)
  | name :: rest =>
    if name = "." then walk fs place rest
    else if name = ".." then walk fs place.dropLast rest
    else if maxNameBytes < name.utf8ByteSize then .error .nameTooLong
    else
      match fs.node? (place ++ [name]) with
      | some .directory => walk fs (place ++ [name]) rest
      | some (.file content) =>
        if rest = [] then .ok (.file (place ++ [name]) content) else .error .notADirectory
      | none => if rest = [] then .ok (.vacant (place ++ [name])) else .error .notFound

/-- The names on a path. -/
def names (path : String) : List String :=
  ((Path.segments path.toList).filter (· ≠ [])).map String.ofList

/-- Whether a path ends in a slash. -/
def endsInSlash (path : String) : Bool := path.toList.getLast? = some '/'

/-- Follows names from where a path starts. -/
def follow (fs : FileSystem) (path : String) (names : List String) : Except OsError Destination :=
  if path.toList.any (· = '\x00') then .error .zeroInPath
  else if path = "" then .error .notFound
  else if maxPathBytes < path.utf8ByteSize then .error .nameTooLong
  else fs.walk (if Path.isAbsolute path then [] else fs.workingDirectory) names

/-- Follows a path. -/
def resolve (fs : FileSystem) (path : String) : Except OsError Destination :=
  fs.follow path (names path)

/-- Whether a path says of its last name that it is a directory's. -/
def namesDirectory (path : String) : Bool :=
  endsInSlash path && (names path).getLast?.any fun name => name ≠ "." && name ≠ ".."

/-- Follows a path to where something is to be written. A name with a slash behind it is a
directory's, whether there is one or not, and is not looked at. -/
def resolveToWrite (fs : FileSystem) (path : String) : Except OsError Destination :=
  if namesDirectory path then
    match fs.follow path (names path).dropLast with
    | .error e => .error e
    | .ok (.directory place) => .ok (.directory place)
    | .ok (.file ..) => .error .notADirectory
    | .ok (.vacant _) => .error .notFound
  else fs.resolve path

/-- Whether a path leads to a directory. -/
def isDirectory (fs : FileSystem) (path : String) : Bool :=
  match fs.resolve path with
  | .ok (.directory _) => true
  | _ => false

/-- The content of a file. -/
def read (fs : FileSystem) (path : String) : Except OsError ByteArray :=
  match fs.resolve path with
  | .error e => .error e
  | .ok (.directory _) => .error .isADirectory
  | .ok (.vacant _) => .error .notFound
  | .ok (.file _ content) => if endsInSlash path then .error .notADirectory else .ok content

/-- The content of a file that has to be text. -/
def readText (fs : FileSystem) (path : String) : Except OsError String :=
  match fs.read path with
  | .error e => .error e
  | .ok content =>
    match Utf8.decode content with
    | .ok text => .ok text
    | .error _ => .error .notUtf8

/-- Fills a file anew, and makes it where there is none. -/
def write (path : String) (content : ByteArray) : Action FileSystem OsError Unit := do
  let fs ← Action.get
  match fs.resolveToWrite path with
  | .error e => throw e
  | .ok (.directory _) => throw .isADirectory
  | .ok (.file place _) | .ok (.vacant place) => Action.set (fs.put place (.file content))

/-- Makes one directory. -/
def makeDirectory (path : String) : Action FileSystem OsError Unit := do
  let fs ← Action.get
  match fs.resolve path with
  | .error e => throw e
  | .ok (.directory _) => throw .alreadyExists
  | .ok (.file ..) => throw .alreadyExists
  | .ok (.vacant place) => Action.set (fs.put place .directory)

/-- Succeeds if the path, whatever was said of it, leads to a directory. -/
def acceptDirectory (path : String) (e : OsError) : Action FileSystem OsError Unit := do
  let fs ← Action.get
  if fs.isDirectory path then pure () else throw e

/-- Makes the first of some directories, each of which lies in the next, and as many of the others
as that takes. -/
def makeFirst : List String → Action FileSystem OsError Unit
  | [] => throw .notFound
  | path :: above =>
    if path = "" then pure ()
    else
      tryCatch (makeDirectory path) fun e =>
        if e = .notFound then do
          -- the parents may make this one too, as they do for a path that goes up again
          makeFirst above
          tryCatch (makeDirectory path) (acceptDirectory path)
        else acceptDirectory path e

/-- Makes a directory and those that it lies in, as far as they are missing. -/
def makeDirectories (path : String) : Action FileSystem OsError Unit :=
  makeFirst (Path.ancestors path (path.length + 1))

/-- Makes the directories that a path lies in. -/
def makeParents (path : String) : Action FileSystem OsError Unit :=
  match Path.parent? path with
  | some parent => if parent = "" then pure () else makeDirectories parent
  | none => pure ()

/-- The file system with a path filled, and the directories that it lies in, as far as that is
possible. -/
def install (fs : FileSystem) (path : String) (node : FileSystem.Node) : FileSystem :=
  let action : Action FileSystem OsError Unit :=
    match node with
    | .directory => makeDirectories path
    | .file content => do
      makeParents path
      write path content
  (action fs).state

end FileSystem

end CompilerHost
