import StagePlan.Command.Files
import StagePlan.Command.Path

/-!
# Trees of files

A tree of files in memory, on which commands run as they do on a disk: `StateM FileTree` is a monad with
files, whose operations are refused for the causes that a disk has. A place in a tree is the list of the
names that lead to it from the root, which is its own parent; relative paths start at the home of the tree.
-/

namespace StagePlan

/-- Files with their texts, and directories. -/
structure FileTree where
  /-- The place where relative paths start. -/
  home : List String := []
  /-- The places of the files, with their texts. -/
  contents : List (List String × String) := []
  /-- The places of the directories except for the root. -/
  directories : List (List String) := []

namespace FileTree

/-- The text of the file at a place. -/
def text? (t : FileTree) (place : List String) : Option String := t.contents.lookup place

/-- What is at a place. -/
def kind? (t : FileTree) (place : List String) : Option FileKind :=
  if (t.text? place).isSome then some .file
  else if place = [] ∨ place ∈ t.directories then some .directory
  else none

/-! ## Building -/

/-- The tree with a text at a place. -/
def put (t : FileTree) (place : List String) (text : String) : FileTree :=
  { t with contents := (place, text) :: t.contents.filter (·.1 ≠ place) }

/-- The tree with a directory at a place. -/
def addDirectory (t : FileTree) (place : List String) : FileTree :=
  if place ∈ t.directories then t else { t with directories := place :: t.directories }

/-- The tree with a directory at a place and at those above it. -/
def addDirectories (t : FileTree) (place : List String) : FileTree :=
  (List.range place.length).foldl (fun t depth => t.addDirectory (place.take (depth + 1))) t

/-- The place that a path leads to where it is taken name by name. -/
def placeOf (t : FileTree) (path : String) : List String :=
  if Path.isAbsolute path then Path.names path else t.home ++ Path.names path

/-- The tree with a home, and with files and directories at the given paths. -/
def ofPaths (home : List String) (files : List (String × String)) (directories : List String) :
    FileTree :=
  let bare : FileTree := { home }
  let t := directories.foldl (fun t path => t.addDirectories (t.placeOf path))
    (bare.addDirectories home)
  files.foldl (fun t (path, text) =>
    (t.addDirectories (t.placeOf path).dropLast).put (t.placeOf path) text) t

/-- The files below the home, with the paths that lead to them from there. -/
def homeFiles (t : FileTree) : List (String × String) :=
  t.contents.filterMap fun (place, text) =>
    if t.home.isPrefixOf place then
      some (Path.ofComponents false (place.drop t.home.length), text)
    else none

/-! ## Following paths -/

/-- The number of bytes that no name exceeds. -/
def maxName : Nat := 255

/-- The number of bytes that no path exceeds. -/
def maxPath : Nat := 4095

/-- The place that one more component leads to. Whatever the component is, it needs a directory before
it. -/
def step (t : FileTree) (place : List String) (component : String) :
    Except FileCause (List String) :=
  match t.kind? place with
  | none => .error .notFound
  | some .file => .error .notDirectory
  | some .directory =>
    if component = "" ∨ component = "." then .ok place
    else if component = ".." then .ok place.dropLast
    else if maxName < component.utf8ByteSize then .error .nameTooLong
    else .ok (place ++ [component])

/-- The place that components lead to, which may hold nothing. -/
def walk (t : FileTree) (absolute : Bool) (components : List String) :
    Except FileCause (List String) :=
  components.foldlM t.step (if absolute then [] else t.home)

/-- The components of a path that is neither empty nor too long. -/
def componentsOf (path : String) : Except FileCause (List String) :=
  if path = "" then .error .notFound
  else if maxPath < path.utf8ByteSize then .error .nameTooLong
  else .ok (Path.components path)

/-- The place that a path leads to, which may hold nothing. -/
def resolve (t : FileTree) (path : String) : Except FileCause (List String) := do
  t.walk (Path.isAbsolute path) (← componentsOf path)

/-- What a path leads to. -/
def kindOf (t : FileTree) (path : String) : Option FileKind :=
  match t.resolve path with
  | .ok place => t.kind? place
  | .error _ => none

/-! ## Operations -/

/-- The bytes of the file that a path leads to. -/
def read (t : FileTree) (path : String) : Except FileCause (List UInt8) := do
  let place ← t.resolve path
  match t.text? place, t.kind? place with
  | some text, _ => return text.toUTF8.toList
  | none, some _ => throw .isDirectory
  | none, none => throw .notFound

/-- The names in the directory that a path leads to. -/
def names (t : FileTree) (path : String) : List String :=
  match t.resolve path with
  | .error _ => []
  | .ok place =>
    let places := t.contents.map (·.1) ++ t.directories
    (places.filter fun p => p ≠ [] ∧ p.dropLast = place).filterMap List.getLast?

/-- The tree with a text at the place that a path leads to. -/
def write (t : FileTree) (path text : String) : Except FileCause FileTree := do
  let place ← t.resolve path
  if t.kind? place = some .directory then throw .isDirectory else return t.put place text

/-- The components without the blank ones at the end. -/
def dropBlanks (components : List String) : List String :=
  (components.reverse.dropWhile (· = "")).reverse

/-- Makes one directory. A path that ends in a point leads to a directory that is there already, if it leads
anywhere. -/
def makeOne (t : FileTree) (path : String) : Except FileCause FileTree := do
  let components := dropBlanks (← componentsOf path)
  let directory ← t.walk (Path.isAbsolute path) components.dropLast
  match components.getLast? with
  | none => throw .alreadyExists
  | some name =>
    let place ← t.step directory name
    if name = "." ∨ name = ".." ∨ (t.kind? place).isSome then throw .alreadyExists
    else return t.addDirectory place

/-- Makes a directory, where the paths of those it lies in follow, the nearest first. Those are made only
if it cannot be made without them. -/
def makeThrough (t : FileTree) (path : String) : List String → Except FileCause FileTree
  | [] => settle t (t.makeOne path)
  | parent :: parents =>
    match t.makeOne path with
    | .error .notFound => do
      let t ← t.makeThrough parent parents
      settle t (t.makeOne path)
    | result => settle t result
where
  /-- A directory that is there already is as good as made. -/
  settle (t : FileTree) : Except FileCause FileTree → Except FileCause FileTree
    | .error .alreadyExists =>
      if t.kindOf path = some .directory then .ok t else .error .alreadyExists
    | result => result

/-- The tree with a directory at the place that a path leads to. -/
def makeDirectory (t : FileTree) (path : String) : Except FileCause FileTree :=
  t.makeThrough path (Path.parents path)

/-- Changes the tree, or leaves it as it is if the change is refused. -/
def change (f : FileTree → Except FileCause FileTree) : StateM FileTree (Except FileCause Unit) := do
  match f (← get) with
  | .ok t =>
    set t
    return .ok ()
  | .error cause => return .error cause

/-- The files of a tree. -/
instance : MonadFiles (StateM FileTree) where
  kind? path := return (← get).kindOf path
  read path := return (← get).read path
  names path := return (← get).names path
  write path text := change (·.write path text)
  makeDirectory path := change (·.makeDirectory path)

end FileTree

end StagePlan
