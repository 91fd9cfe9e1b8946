import StagePlan.Text.Search

/-!
# Paths

A path is a text whose components stand between slashes. Paths are taken as they are written: nothing is
looked up, and no component is left out.
-/

namespace StagePlan.Path

/-- The components of a path. -/
def components (path : String) : List String := (Text.pieces '/' path.toList).map String.ofList

/-- The components that name something: no blank ones, and no points. -/
def names (path : String) : List String := (components path).filter fun c => c ≠ "" ∧ c ≠ "."

/-- Whether a path starts at the root. -/
def isAbsolute (path : String) : Bool := path.toList.head? = some '/'

/-- The path of what has a name inside a directory. -/
def join (directory name : String) : String :=
  if directory.isEmpty || directory.toList.getLast? = some '/' then directory ++ name
  else directory ++ "/" ++ name

/-- The path of some components. -/
def ofComponents (absolute : Bool) (cs : List String) : String :=
  (if absolute then "/" else "") ++ String.intercalate "/" cs

/-- The paths of the directories that a path leads through, the nearest first. -/
def parents (path : String) : List String :=
  let names := names path
  (List.range (names.length - 1)).map fun i =>
    ofComponents (isAbsolute path) (names.take (names.length - 1 - i))

/-- The last component. -/
def name (path : String) : String := (components path).getLastD ""

/-- A name split at its last point: what comes before it, and the extension. A name without a point, or
with a single one at its start, has no extension. -/
def splitExtension (name : String) : String × Option String :=
  let extension := name.toList.reverse.takeWhile (· ≠ '.')
  match name.toList.reverse.dropWhile (· ≠ '.') with
  | _ :: b :: before => (String.ofList (b :: before).reverse, some (String.ofList extension.reverse))
  | _ => (name, none)

/-- The name without its extension. -/
def stem (path : String) : String := (splitExtension (name path)).1

/-- The extension of the name. -/
def extension? (path : String) : Option String := (splitExtension (name path)).2

end StagePlan.Path
