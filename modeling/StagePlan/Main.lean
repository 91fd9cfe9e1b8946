import StagePlan.Command.CheckTraces
import StagePlan.Command.PlanTraces

/-!
# The program

The first argument names a command, and the others are its arguments: `plan` plans traces, `check` checks
them. This is the only module that touches the disk.
-/

namespace StagePlan.Disk

/-- What a path of the disk leads to. -/
def kind? (path : String) : IO (Option FileKind) := do
  let entry : IO.FS.DirEntry := { root := path, fileName := "" }
  if ← entry.root.isDir then return some .directory
  else if ← entry.root.pathExists then return some .file
  else return none

/-- Why the disk refuses an operation. -/
def cause : IO.Error → FileCause
  | .noFileOrDirectory .. => .notFound
  | .alreadyExists .. => .alreadyExists
  | e => .stated (toString e)

/-- An operation that the disk may refuse. -/
def attempt (action : IO α) : IO (Except FileCause α) := do
  try return .ok (← action) catch e => return .error (cause e)

/-- The bytes of a file. -/
def read (path : String) : IO (Except FileCause (List UInt8)) := do
  if (← kind? path) = some .directory then return .error .isDirectory
  attempt (return (← IO.FS.readBinFile path).toList)

/-- The names in a directory. -/
def names (path : String) : IO (List String) := do
  let entry : IO.FS.DirEntry := { root := path, fileName := "" }
  match ← attempt entry.root.readDir with
  | .ok entries => return entries.toList.map (·.fileName)
  | .error _ => return []

/-- Writes a text to a file. -/
def write (path text : String) : IO (Except FileCause Unit) := do
  if (← kind? path) = some .directory then return .error .isDirectory
  attempt (IO.FS.writeFile path text)

/-- Makes a directory and those it lies in. -/
def makeDirectory (path : String) : IO (Except FileCause Unit) := do
  if (← kind? path) = some .file then return .error .alreadyExists
  attempt (IO.FS.createDirAll path)

/-- The files of the disk. -/
instance : MonadFiles IO where
  kind? := kind?
  read := read
  names := names
  write := write
  makeDirectory := makeDirectory

end StagePlan.Disk

open StagePlan in
/-- Runs the command that the first argument names. -/
def main (args : List String) : IO UInt32 := do
  let outcome ←
    match args with
    | "plan" :: args => planTraces ⟨"plan", "Partition traced models across devices."⟩ args
    | "check" :: args =>
      checkTraces ⟨"check", "Parse and validate every *.json trace in a directory."⟩ args
    | _ => pure { complaints := ["error: the first argument must be plan or check"], code := 2 }
  for line in outcome.output do IO.println line
  for line in outcome.complaints do IO.eprintln line
  return UInt32.ofNat outcome.code
