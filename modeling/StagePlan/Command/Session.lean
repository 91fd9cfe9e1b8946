import StagePlan.Command.Arguments
import StagePlan.Command.Pattern
import StagePlan.Error

/-!
# Sessions

A command prints lines, complains in lines and ends with a code: `Outcome` is all of it. `Session` is the
monad that commands are written in, and a `Failure` ends one, reported in a line that names it and, where
something caused it, in lines on the causes.
-/

namespace StagePlan

/-- Why a command fails. -/
inductive Failure where
  /-- The settings cannot be loaded. -/
  | config (path : String) (error : Error)
  /-- The profiles cannot be loaded. -/
  | profile (path : String) (error : Error)
  /-- The settings are refused once the options have changed them. -/
  | settings (error : Error)
  /-- A directory of traces has a name that is no pattern. -/
  | pattern (fault : PatternFault)
  /-- There are no traces. -/
  | noTraces (path : String)
  /-- The directory for results cannot be made. -/
  | outputDirectory (cause : FileCause)
  /-- A trace has no plan. -/
  | trace (path : String) (error : Error)
  /-- A plan cannot be written. -/
  | result (cause : FileCause)
  /-- A drawing cannot be written. -/
  | drawing (cause : FileCause)
  /-- Some traces have no plan. -/
  | failedTraces (failed total : Nat)
  /-- A directory is wanted. -/
  | noDirectory
  /-- A number exceeds its word, which ends the program at once. -/
  | overflow

/-- The message of a failure. -/
def Failure.message : Failure → String
  | config path _ => "Failed to load config " ++ path
  | profile path _ => "Failed to load profile " ++ path
  | settings error => error.message
  | pattern fault => fault.message
  | noTraces path => "No traces found at " ++ path
  | outputDirectory _ => "Failed to create output directory"
  | trace path _ => "Failed to partition " ++ path
  | result _ => "Unable to write result"
  | drawing _ => "Unable to write graph"
  | failedTraces failed total => s!"{failed} of {total} traces failed"
  | noDirectory => "Path must be a directory."
  | overflow => "attempt to multiply with overflow"

/-- The messages of what caused a failure. -/
def Failure.causes : Failure → List String
  | config _ error | profile _ error | trace _ error => error.chain
  | outputDirectory cause | result cause | drawing cause => [cause.reason]
  | settings _ | pattern _ | noTraces _ | failedTraces .. | noDirectory | overflow => []

/-- What stands before the message of a failure that ends a command. -/
def Failure.heading : Failure → String
  | overflow => ""
  | _ => "Error: "

/-- The code that a command ends with if it fails. -/
def Failure.code : Failure → Nat
  | overflow => 101
  | _ => 1

/-! ## Reports -/

/-- The lines of a text. -/
def lines (text : String) : List String := (Text.pieces '\n' text.toList).map String.ofList

/-- The lines of a message behind a label; from the second line on, blanks stand in its stead. -/
def labelled (label message : String) : List String :=
  match lines message with
  | [] => [label]
  | first :: rest => (label ++ first) :: rest.map (Text.padLeft label.length "" ++ ·)

/-- The lines on causes, which are numbered if there are several. -/
def causeLines : List String → List String
  | [] => []
  | [cause] => "" :: "Caused by:" :: labelled "    " cause
  | causes =>
    "" :: "Caused by:" ::
      causes.zipIdx.flatMap fun (cause, i) => labelled (Text.padLeft 5 (toString i) ++ ": ") cause

/-- The lines that report a failure. -/
def Failure.report (heading : String) (f : Failure) : List String :=
  lines (heading ++ f.message) ++ causeLines f.causes

/-! ## Sessions -/

/-- What was printed so far. -/
structure Transcript where
  /-- The lines of output. -/
  output : List String := []
  /-- The lines of complaints. -/
  complaints : List String := []

/-- What a command prints, and the code that it ends with. -/
structure Outcome extends Transcript where
  /-- Zero if all went well. -/
  code : Nat

/-- A command that is running. -/
abbrev Session (m : Type → Type) := ExceptT Failure (StateT Transcript m)

namespace Session

variable {m : Type → Type} [Monad m]

/-- Prints a line. -/
def say (line : String) : Session m Unit :=
  modify fun t => { t with output := t.output ++ [line] }

/-- Complains in some lines. -/
def complain (lines : List String) : Session m Unit :=
  modify fun t => { t with complaints := t.complaints ++ lines }

/-- The value of an answer; the session fails if it is an error. -/
def attempt (failure : ε → Failure) (action : Session m (Except ε α)) : Session m α := do
  match ← action with
  | .ok a => return a
  | .error e => throw (failure e)

/-- Runs a command to its end. The value is its code unless it fails. -/
def outcome (session : Session m Nat) : m Outcome := do
  let (result, transcript) ← session.run.run {}
  match result with
  | .ok code => return { transcript with code }
  | .error failure =>
    return { transcript with
      complaints := transcript.complaints ++ failure.report failure.heading
      code := failure.code }

end Session

/-- What a command is called, and what it does. -/
structure CommandInfo where
  /-- The name by which it is called. -/
  name : String
  /-- What it does. -/
  about : String

/-- The version of the commands. -/
def version : String := "0.1.0"

/-- The outcome of a command that is not run. -/
def Stop.outcome (info : CommandInfo) (switches : List (Switch σ)) : Stop → Outcome
  | help =>
    { output := [info.about, "", "Usage: " ++ info.name ++ " [options]", ""] ++ Switch.help switches
      code := 0 }
  | version => { output := [info.name ++ " " ++ StagePlan.version], code := 0 }
  | usage cause => { complaints := ["error: " ++ cause.reason], code := 2 }

end StagePlan
