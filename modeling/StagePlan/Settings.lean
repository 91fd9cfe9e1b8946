import StagePlan.Profile.Text

/-!
# Settings

What a run needs besides a trace: how the graph is built, which nodes count as constants, and how it is
split. `Settings.ofText` reads settings from JSON, where every section and every field may be left out,
and `Settings.validate` refuses settings that make no sense. `BuildSettings.withProfiles` adds measured
costs.
-/

namespace StagePlan

open Json (Fault Reader Schema once required)

/-- What a trace does not record by itself. -/
structure BuildSettings where
  /-- How many of the first trace inputs are model inputs; the others are parameters and buffers. -/
  numInputs : Nat := 0
  /-- The scopes of the parameters and buffers, in trace order. -/
  parameterScopes : List String := []
  /-- The scopes of the layers whose cost was measured. -/
  profiledLayers : List String := []
  /-- The measured costs. -/
  overrides : ProfileSet := ∅

/-- The settings with further measured costs, whose scopes become profiled layers if they are not. -/
def BuildSettings.withProfiles (s : BuildSettings) (profiles : ProfileSet) : BuildSettings :=
  { s with
    profiledLayers := s.profiledLayers ++ profiles.scopes.filter (· ∉ s.profiledLayers)
    overrides := s.overrides.merge profiles }

/-- Which nodes the clean-up takes for constants. -/
structure CleanupSettings where
  /-- What their scopes have inside. -/
  constantMarker : String := "::Constant"

/-- How costs become the whole numbers that a solver balances. -/
structure WeightPolicy where
  /-- The factor on the mean time of a layer. -/
  timeScale : Float := 100

/-- How a graph is split. -/
structure SplitSettings where
  /-- The number of devices. -/
  devices : Nat := 1
  /-- Whether parts should be connected. -/
  contiguous : Bool := true
  /-- How costs become weights. -/
  weights : WeightPolicy := {}

/-- The settings of a run. -/
structure Settings where
  /-- How the graph is built. -/
  build : BuildSettings := {}
  /-- How it is cleaned. -/
  cleanup : CleanupSettings := {}
  /-- How it is split. -/
  split : SplitSettings := {}

/-- Refuses settings without devices, with a time scale that is negative or no number, or with an empty
marker, in this order. -/
def Settings.validate (s : Settings) : Except Error Unit :=
  let scale := s.split.weights.timeScale
  if s.split.devices = 0 then .error (.settings .noDevices)
  else if !scale.isFinite || scale < 0 then .error (.settings (.timeScale scale))
  else if s.cleanup.constantMarker.isEmpty then .error (.settings .emptyMarker)
  else .ok ()

/-! ## Reading -/

/-- The fields of build settings that were met so far. -/
structure BuildSettings.Fields where
  /-- The number of model inputs. -/
  numInputs : Option Nat := none
  /-- The scopes of parameters and buffers. -/
  parameterScopes : Option (List String) := none
  /-- The profiled layers. -/
  profiledLayers : Option (List String) := none
  /-- The measured costs. -/
  overrides : Option ProfileSet := none

/-- How build settings are read. -/
def BuildSettings.schema : Schema BuildSettings.Fields BuildSettings where
  fields := ["num_inputs", "parameter_scopes", "profiled_layers", "overrides"]
  empty := {}
  field met
    | "num_inputs" => once met.numInputs (Reader.natural.map ({ met with numInputs := some · }))
    | "parameter_scopes" =>
      once met.parameterScopes
        ((Reader.list Reader.string).map ({ met with parameterScopes := some · }))
    | "profiled_layers" =>
      once met.profiledLayers
        ((Reader.list Reader.string).map ({ met with profiledLayers := some · }))
    | "overrides" => once met.overrides (ProfileSet.reader.map ({ met with overrides := some · }))
    | _ => .ok (Reader.skip.map fun _ => met)
  finish met := .ok {
    numInputs := met.numInputs.getD 0
    parameterScopes := met.parameterScopes.getD []
    profiledLayers := met.profiledLayers.getD []
    overrides := met.overrides.getD ∅ }

/-- How clean-up settings are read. -/
def CleanupSettings.schema : Schema (Option String) CleanupSettings where
  fields := ["constant_marker"]
  empty := none
  field met
    | "constant_marker" => once met (Reader.string.map some)
    | _ => .ok (Reader.skip.map fun _ => met)
  finish met := .ok (met.elim {} fun marker => ⟨marker⟩)

/-- How a weight policy is read. -/
def WeightPolicy.schema : Schema (Option Float) WeightPolicy where
  fields := ["time_scale"]
  empty := none
  field met
    | "time_scale" => once met (Reader.double.map some)
    | _ => .ok (Reader.skip.map fun _ => met)
  finish met := .ok (met.elim {} fun scale => ⟨scale⟩)

/-- The fields of split settings that were met so far. -/
structure SplitSettings.Fields where
  /-- The number of devices. -/
  devices : Option Nat := none
  /-- Whether parts should be connected. -/
  contiguous : Option Bool := none
  /-- How costs become weights. -/
  weights : Option WeightPolicy := none

/-- How split settings are read. -/
def SplitSettings.schema : Schema SplitSettings.Fields SplitSettings where
  fields := ["devices", "contiguous", "weights"]
  empty := {}
  field met
    | "devices" => once met.devices (Reader.natural.map ({ met with devices := some · }))
    | "contiguous" => once met.contiguous (Reader.bool.map ({ met with contiguous := some · }))
    | "weights" =>
      once met.weights (WeightPolicy.schema.reader.map ({ met with weights := some · }))
    | _ => .ok (Reader.skip.map fun _ => met)
  finish met := .ok {
    devices := met.devices.getD 1
    contiguous := met.contiguous.getD true
    weights := met.weights.getD {} }

/-- The sections of settings that were met so far. -/
structure Settings.Fields where
  /-- How the graph is built. -/
  build : Option BuildSettings := none
  /-- How it is cleaned. -/
  cleanup : Option CleanupSettings := none
  /-- How it is split. -/
  split : Option SplitSettings := none

/-- How settings are read. -/
def Settings.schema : Schema Settings.Fields Settings where
  fields := ["build", "optimize", "partition"]
  empty := {}
  field met
    | "build" => once met.build (BuildSettings.schema.reader.map ({ met with build := some · }))
    | "optimize" =>
      once met.cleanup (CleanupSettings.schema.reader.map ({ met with cleanup := some · }))
    | "partition" => once met.split (SplitSettings.schema.reader.map ({ met with split := some · }))
    | _ => .ok (Reader.skip.map fun _ => met)
  finish met := .ok {
    build := met.build.getD {}
    cleanup := met.cleanup.getD {}
    split := met.split.getD {} }

/-- Reads settings without validating them. -/
def Settings.ofUncheckedText (bytes : List UInt8) : Except Error Settings :=
  (Json.document Settings.schema.reader bytes).mapError .malformedTrace

/-- Reads settings and validates them. -/
def Settings.ofText (bytes : List UInt8) : Except Error Settings := do
  let s ← Settings.ofUncheckedText bytes
  s.validate
  return s

/-! ## Writing -/

/-- Settings as JSON. -/
def Settings.toJson (s : Settings) : Json :=
  .object [
    ("build", .object [
      ("num_inputs", .nat s.build.numInputs),
      ("parameter_scopes", .strings s.build.parameterScopes),
      ("profiled_layers", .strings s.build.profiledLayers),
      ("overrides", s.build.overrides.toJson)]),
    ("optimize", .object [("constant_marker", .string s.cleanup.constantMarker)]),
    ("partition", .object [
      ("devices", .nat s.split.devices),
      ("contiguous", .bool s.split.contiguous),
      ("weights", .object [("time_scale", .float s.split.weights.timeScale)])])]

end StagePlan
