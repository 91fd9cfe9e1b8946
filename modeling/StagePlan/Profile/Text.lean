import StagePlan.Profile
import StagePlan.Json.Reader

/-!
# The text of profiles

A profile is a JSON record of its two times and, if wanted, its memory; a set of profiles is an object
with a member per scope.
-/

namespace StagePlan

open Json (Fault Reader Schema once required)

/-- The fields of a profile that were met so far. -/
structure LayerProfile.Fields where
  /-- The forward time. -/
  forward : Option Float := none
  /-- The backward time. -/
  backward : Option Float := none
  /-- The memory. -/
  memory : Option Nat := none

/-- How a profile is read. -/
def LayerProfile.schema : Schema LayerProfile.Fields LayerProfile where
  fields := ["forward_ms", "backward_ms", "memory_bytes"]
  empty := {}
  field met
    | "forward_ms" => once met.forward (Reader.double.map ({ met with forward := some · }))
    | "backward_ms" => once met.backward (Reader.double.map ({ met with backward := some · }))
    | "memory_bytes" => once met.memory (Reader.natural.map ({ met with memory := some · }))
    | _ => .ok (Reader.skip.map fun _ => met)
  finish met := do
    return {
      forward := ← required met.forward
      backward := ← required met.backward
      memory := met.memory.getD 0 }

/-- Reads a set of profiles; of several members for one scope the last counts. -/
def ProfileSet.reader : Reader ProfileSet :=
  Reader.object (fun s scope => .ok (LayerProfile.schema.reader.map (s.insert scope))) ∅

/-- A profile as JSON. -/
def LayerProfile.toJson (p : LayerProfile) : Json :=
  .object [
    ("forward_ms", .float p.forward),
    ("backward_ms", .float p.backward),
    ("memory_bytes", .nat p.memory)]

/-- A set of profiles as JSON. -/
def ProfileSet.toJson (s : ProfileSet) : Json :=
  .object (s.entries.map fun (scope, p) => (scope, p.toJson))

end StagePlan
