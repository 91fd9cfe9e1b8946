import StagePlan.Json.Token
import StagePlan.Numeric.Decimal
import StagePlan.Text.Lists

/-!
# Errors

Every way in which reading, building, splitting or scheduling can fail is a constructor of
`Error`, with the data of the cause. `Error.message` is the only place where the wording is found.
Where a solver from outside fails, it states its reason in words of its own.
-/

namespace StagePlan

/-- Why the shape of a trace input is not known. -/
inductive ShapeCause where
  /-- The trace declares no sizes. -/
  | noSizes
  /-- No parameter or buffer name is left for the input. -/
  | noScope
  /-- The number of elements does not fit a machine word. -/
  | overflow (sizes : List Nat)
  /-- A reason in words. -/
  | stated (reason : String)

/-- Why a value of a trace does not refer to one definition. -/
inductive ReferenceCause where
  /-- An operand of an op is defined later or never. -/
  | operandUndefined (op : Nat) (kind : String)
  /-- An op defines a value that is defined already. -/
  | redefined (op : Nat) (kind : String)
  /-- A result of the trace is never defined. -/
  | resultUndefined
  /-- A user of a value comes before any producer of it. -/
  | noProducer (user : String)
  /-- An op produces a value that has a producer already. -/
  | producedTwice (op : Nat) (kind : String)
  /-- A reason in words. -/
  | stated (reason : String)

/-- Why a graph is not split into parts. -/
inductive PartitionCause where
  /-- The request has adjacency rows and weights of different numbers. -/
  | rowCount (rows weights : Nat)
  /-- The request names a neighbour that does not exist. -/
  | unknownNeighbour (neighbour : Nat)
  /-- The request wants no parts at all. -/
  | noPartsRequested
  /-- The indices of the graph are not its positions. -/
  | notNormalized
  /-- The answer has part ids and nodes of different numbers. -/
  | partCount (parts nodes : Nat)
  /-- The answer has more parts than were requested. -/
  | tooManyParts (achieved requested : Nat)
  /-- The answer has no parts although there are nodes. -/
  | noPartsAchieved
  /-- The answer puts a node into a part that does not exist. -/
  | partOutOfRange (node part parts : Nat)
  /-- A reason in words. -/
  | stated (reason : String)

/-- Why an assignment of parts cannot be scheduled. -/
inductive ScheduleCause where
  /-- The indices of the graph are not its positions. -/
  | notNormalized
  /-- There are part ids and nodes of different numbers. -/
  | partCount (parts nodes : Nat)
  /-- A part id is not below the number of parts. -/
  | partOutOfRange (part parts : Nat)
  /-- An edge leads to a node that was removed. -/
  | removedNode (handle : Nat)
  /-- The parts wait for each other. -/
  | cycle (part : Nat)
  /-- An output slot of an op does not follow its primary node. -/
  | slotOutOfPlace (slot op : Nat)
  /-- A reason in words. -/
  | stated (reason : String)

/-- Why settings are refused. -/
inductive SettingsCause where
  /-- More model inputs are declared than the trace has inputs. -/
  | tooManyInputs (declared present : Nat)
  /-- A graph is to be split onto no devices. -/
  | noDevicesToSplit
  /-- The settings ask for no devices. -/
  | noDevices
  /-- The time scale is negative or no number. -/
  | timeScale (scale : Float)
  /-- The marker of constants is empty. -/
  | emptyMarker
  /-- The lists of a measurement differ in length. -/
  | misaligned (scopes forward stamps sizes : Nat)
  /-- A reason in words. -/
  | stated (reason : String)

/-- Why a table of layer costs is refused. -/
inductive TableCause where
  /-- The file cannot be read. -/
  | unreadable
  /-- A row is not UTF-8. -/
  | notText
  /-- A row has another number of fields than the header. -/
  | fieldCount (expected actual : Nat)
  /-- A wanted column is missing or given twice. -/
  | columns
  /-- A field is no number. -/
  | notNumber (column : Nat)
  /-- A field is no whole number below `2 ^ 64`. -/
  | notWhole (column : Nat)

/-- Why a file cannot be read or written. -/
inductive FileCause where
  /-- There is no such file or directory. -/
  | notFound
  /-- There is one already. -/
  | alreadyExists
  /-- It is no directory. -/
  | notDirectory
  /-- It is a directory. -/
  | isDirectory
  /-- It has a name that is too long. -/
  | nameTooLong
  /-- A reason in words. -/
  | stated (reason : String)

/-- What can go wrong between a trace and its plan. -/
inductive Error where
  /-- The shape of an input is not known. -/
  | shapeResolution (input : Nat) (cause : ShapeCause)
  /-- A value does not refer to one definition. -/
  | danglingReference (value : Nat) (cause : ReferenceCause)
  /-- The graph is not split into parts. -/
  | partitioning (cause : PartitionCause)
  /-- The parts cannot be scheduled. -/
  | inconsistentPartition (cause : ScheduleCause)
  /-- The settings are refused. -/
  | settings (cause : SettingsCause)
  /-- The text of a trace or of settings is refused. -/
  | malformedTrace (fault : Json.Fault)
  /-- A trace or settings are found, but their text cannot be read. -/
  | unreadableTrace (cause : FileCause)
  /-- The text of a table of layer costs is refused. -/
  | malformedProfile (cause : TableCause)
  /-- A file cannot be read or written. -/
  | file (cause : FileCause)
  /-- A list is asked for an entry that it does not have. -/
  | outOfRange

/-- The words for a shape that is not known. -/
def ShapeCause.reason : ShapeCause → String
  | noSizes => "no declared dimension sizes"
  | noScope => "no parameter or buffer scope for this input"
  | overflow sizes => "element count of " ++ Text.bracketed sizes ++ " overflows"
  | stated reason => reason

/-- The words for a value that does not refer to one definition. -/
def ReferenceCause.reason : ReferenceCause → String
  | operandUndefined op kind => s!"operand of op {op} ({kind}) is not defined yet"
  | redefined op kind => s!"redefined by op {op} ({kind})"
  | resultUndefined => "graph output is never defined"
  | noProducer user => s!"referenced by {user} before any producer"
  | producedTwice op kind => s!"defined twice, again by op {op} ({kind})"
  | stated reason => reason

/-- The words for a graph that is not split. -/
def PartitionCause.reason : PartitionCause → String
  | rowCount rows weights => s!"adjacency has {rows} rows for {weights} weights"
  | unknownNeighbour neighbour => s!"neighbour {neighbour} out of range"
  | noPartsRequested => "zero parts requested"
  | notNormalized => "graph indices are not normalized"
  | partCount parts nodes => s!"{parts} part ids for {nodes} nodes"
  | tooManyParts achieved requested =>
    s!"{achieved} parts achieved but only {requested} requested"
  | noPartsAchieved => "no parts for a non-empty graph"
  | partOutOfRange node part parts => s!"node {node} assigned to part {part} outside [0, {parts})"
  | stated reason => reason

/-- The words for an assignment that cannot be scheduled. -/
def ScheduleCause.reason : ScheduleCause → String
  | notNormalized => "graph indices changed between partitioning and post-processing"
  | partCount parts nodes => s!"{parts} part ids for {nodes} nodes"
  | partOutOfRange part parts => s!"part {part} outside [0, {parts})"
  | removedNode handle => s!"edge to removed node {handle}"
  | cycle part => s!"partition {part} lies on a cycle of the induced partition graph"
  | slotOutOfPlace slot op => s!"output slot {slot} of op {op} is out of place"
  | stated reason => reason

/-- The words for settings that are refused. -/
def SettingsCause.reason : SettingsCause → String
  | tooManyInputs declared present =>
    s!"{declared} model inputs declared but the trace has only {present} inputs"
  | noDevicesToSplit => "cannot partition onto zero devices"
  | noDevices => "partition.devices must be at least 1"
  | timeScale scale =>
    "partition.weights.time_scale must be a non-negative number, got " ++ Decimal.plainText scale
  | emptyMarker => "optimize.constant_marker must not be empty"
  | misaligned scopes forward stamps sizes =>
    s!"profiler measurements misaligned: {scopes} scopes, {forward} forward times, "
      ++ s!"{stamps} backward stamps, {sizes} sizes"
  | stated reason => reason

/-- The words for a text that is refused. -/
def Json.Fault.reason : Json.Fault → String
  | malformed => "the text is no JSON"
  | mismatch => "a value is missing, repeated or of another type than wanted"
  | truncated => "the text ends too early"

/-- The words for a table that is refused. -/
def TableCause.reason : TableCause → String
  | unreadable => "the file cannot be read"
  | notText => "a row is not UTF-8"
  | fieldCount expected actual => s!"a row has {actual} fields, but the header has {expected}"
  | columns => "a column is missing or given twice"
  | notNumber column => s!"field {column} is no number"
  | notWhole column => s!"field {column} is no whole number"

/-- The words for a file that cannot be read or written. -/
def FileCause.reason : FileCause → String
  | notFound => "No such file or directory (os error 2)"
  | alreadyExists => "File exists (os error 17)"
  | notDirectory => "Not a directory (os error 20)"
  | isDirectory => "Is a directory (os error 21)"
  | nameTooLong => "File name too long (os error 36)"
  | stated reason => reason

/-- The message of an error. -/
def Error.message : Error → String
  | shapeResolution input cause => s!"shape resolution failed for trace input {input}: " ++ cause.reason
  | danglingReference value cause => s!"dangling reference to trace value {value}: " ++ cause.reason
  | partitioning cause => "partitioning failed: " ++ cause.reason
  | inconsistentPartition cause => "inconsistent partition: " ++ cause.reason
  | settings cause => "invalid configuration: " ++ cause.reason
  | malformedTrace fault => "malformed trace: " ++ fault.reason
  | unreadableTrace cause => "malformed trace: " ++ cause.reason
  | malformedProfile cause => "malformed profile: " ++ cause.reason
  | file cause => cause.reason
  | outOfRange => "index out of range"

/-- The message of an error, followed by those of what caused it. -/
def Error.chain (e : Error) : List String :=
  match e with
  | malformedTrace fault => [e.message, fault.reason]
  | unreadableTrace cause => [e.message, cause.reason]
  | malformedProfile cause => [e.message, cause.reason]
  | _ => [e.message]

end StagePlan
