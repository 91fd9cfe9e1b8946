import StagePlan.Error

/-!
# Files

What a command asks of the files around it: `MonadFiles` is the class of the monads that can answer, so that
the same command runs on a disk and on a tree in memory.
-/

namespace StagePlan

/-- What a path leads to. -/
inductive FileKind where
  /-- A file. -/
  | file
  /-- A directory. -/
  | directory
  deriving DecidableEq

/-- The monads with files. -/
class MonadFiles (m : Type → Type) where
  /-- What a path leads to, if it leads anywhere. -/
  kind? : String → m (Option FileKind)
  /-- The bytes of a file. -/
  read : String → m (Except FileCause (List UInt8))
  /-- The names in a directory, in any order. -/
  names : String → m (List String)
  /-- Writes a text to a file, in the stead of what it held. -/
  write : String → String → m (Except FileCause Unit)
  /-- Makes a directory and those it lies in, where they are missing. -/
  makeDirectory : String → m (Except FileCause Unit)

namespace MonadFiles

/-- What is built on a monad with files has the same files. -/
instance {m n : Type → Type} [MonadLift m n] [MonadFiles m] : MonadFiles n where
  kind? path := liftM (m := m) (kind? path)
  read path := liftM (m := m) (read path)
  names path := liftM (m := m) (names path)
  write path text := liftM (m := m) (write path text)
  makeDirectory path := liftM (m := m) (makeDirectory path)

variable {m : Type → Type} [Monad m] [MonadFiles m]

/-- Whether a path leads anywhere. -/
def exists? (path : String) : m Bool := return (← kind? path).isSome

/-- Whether a path leads to a file. -/
def isFile (path : String) : m Bool := return (← kind? path) = some .file

/-- Whether a path leads to a directory. -/
def isDirectory (path : String) : m Bool := return (← kind? path) = some .directory

/-- The names in a directory in ascending order; none in what is no directory. -/
def sortedNames (path : String) : m (List String) := do
  if ← isDirectory path then return (← names path).mergeSort (fun a b => !decide (b < a))
  else return []

end MonadFiles

end StagePlan
