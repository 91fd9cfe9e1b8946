import StagePlan.Command.Files
import StagePlan.Command.Pattern

/-!
# Finding paths

`MonadFiles.matching` finds the paths that fit a pattern. Components without any wildcard are followed as they
are written; the names in a directory are tried in ascending order, and whatever is found inside a
directory comes before what the next name leads to.
-/

namespace StagePlan

namespace MonadFiles

variable {m : Type → Type} [Monad m] [MonadFiles m]

/-- Whether a path leads to where a relative path starts, whatever is there. -/
def isHere (path : String) : Bool :=
  match Path.components path with
  | "." :: rest => rest.all fun c => c == "" || c == "."
  | _ => false

/-- The path of a name inside a directory; nothing is put before a name that is looked up here. -/
def enter (directory name : String) : String :=
  if isHere directory then name else Path.join directory name

/-- The paths inside a directory, in the order of their names. -/
def children (directory : String) : m (List String) := do
  return (← sortedNames directory).map (enter directory)

/-- What is found at the paths below a directory, each before what lies inside it, down to a depth. -/
def below (found : String → m (List String)) : Nat → String → m (List String)
  | 0, _ => return []
  | depth + 1, directory => do
    let results ← (← children directory).mapM fun child => do
      return (← found child) ++ (← below found depth child)
    return results.flatten

/-- The number of components that no path exceeds. -/
def maxDepth : Nat := 2048

/-- The names that lead to a directory itself and to the one it lies in. A pattern is for them only if it
begins with a point. -/
def specialNames (p : Pattern) : List String :=
  if p.head? = some (.char '.') then ["..", "."].filter p.accepts else []

/-- The paths inside a directory whose components fit the patterns. A component without any wildcard is
not looked for among the names. -/
def matchingFrom : List Pattern → String → m (List String)
  | [], path => return [path]
  | p :: ps, directory => do
    if let some name := p.literal? then
      let next := enter directory name
      let open? ←
        if name = "." ∨ name = ".." then isDirectory directory else exists? next
      if open? then matchingFrom ps next else return []
    else if p.isRecursive then
      below (fun child => do
        match ps with
        | [] => if ← isDirectory child then return [child] else return []
        | q :: qs => if q.accepts (Path.name child) then matchingFrom qs child else return [])
        maxDepth directory
    else if ← isDirectory directory then
      let special ← (specialNames p).mapM fun name => matchingFrom ps (Path.join directory name)
      let names := (← sortedNames directory).filter p.accepts
      let named ← names.mapM fun name => matchingFrom ps (enter directory name)
      return special.flatten ++ named.flatten
    else return []

/-- The paths that fit a pattern, in the order of their components. -/
def matching (pattern : String) : m (Except PatternFault (List String)) := do
  match Pattern.componentsOfText pattern with
  | .error fault => return .error fault
  | .ok patterns =>
    if Path.isAbsolute pattern then
      return .ok (← matchingFrom (Pattern.collapse (patterns.drop 1)) "/")
    else return .ok (← matchingFrom (Pattern.collapse patterns) ".")

end MonadFiles

end StagePlan
