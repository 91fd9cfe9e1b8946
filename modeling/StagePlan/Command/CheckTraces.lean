import StagePlan.Command.Files
import StagePlan.Command.Path
import StagePlan.Command.Session
import StagePlan.Text.Printable
import StagePlan.Trace.Text

/-!
# The command that checks traces

`checkTraces` reads every trace of a directory, in the order of their names, and says what it holds or what
is wrong with it.
-/

namespace StagePlan

namespace CheckOptions

/-- The options of the command: the directory, once it is given. -/
def switches : List (Switch (Option String)) :=
  { name := "path", letter := 'p', about := "The path to the directory containing trace files"
    isSet := Option.isSome
    effect := .value fun _ v => some (some v) } :: Switch.general

/-- The directory that a list of arguments gives. -/
def ofArguments (args : List String) : Except Stop String := do
  match ← Switch.scan switches none args with
  | some path => return path
  | none => throw (.usage (.missing "path"))

end CheckOptions

/-- An error as a record of its data. -/
def Error.record : Error → String
  | danglingReference value cause =>
    s!"DanglingReference \x7b value: {value}, reason: " ++ Text.quoted cause.reason ++ " \x7d"
  | malformedTrace fault => "TraceFormat(" ++ Text.quoted fault.reason ++ ")"
  | unreadableTrace cause => "TraceFormat(" ++ Text.quoted cause.reason ++ ")"
  | e => e.message

/-- The line on a trace without faults. -/
def Trace.summary (t : Trace) : String :=
  s!"  Successfully parsed: {t.inputs.length} inputs, {t.ops.length} ops, {t.outputs.length} outputs."

/-- Reads a trace and validates it. -/
def Trace.ofCheckedText (bytes : List UInt8) : Except Error Trace := do
  let t ← Trace.ofText bytes
  t.validate
  return t

section Checking

variable {m : Type → Type} [Monad m] [MonadFiles m]

/-- Checks a trace, and answers whether it has no faults. -/
def checkTrace (path : String) : Session m Bool := do
  Session.say ("Parsing file: " ++ path)
  let text ← MonadFiles.read path
  match (text.mapError Error.file).bind Trace.ofCheckedText with
  | .ok t =>
    Session.say t.summary
    return true
  | .error e =>
    Session.complain ["  Error parsing file: " ++ e.record]
    return false

/-- Checks the traces of a directory. -/
def checkDirectory (directory : String) : Session m Nat := do
  unless ← MonadFiles.isDirectory directory do throw .noDirectory
  let paths := (← MonadFiles.sortedNames directory).map (Path.join directory)
  let traces ← paths.filterM fun path => do
    if Path.extension? path = some "json" then MonadFiles.isFile path else return false
  let sound ← traces.mapM checkTrace
  return if sound.all id then 0 else 1

/-- Checks the traces of the directory that the arguments name. -/
def checkTraces (info : CommandInfo) (args : List String) : m Outcome :=
  match CheckOptions.ofArguments args with
  | .error stop => return stop.outcome info CheckOptions.switches
  | .ok directory => (checkDirectory directory).outcome

end Checking

end StagePlan
