import StagePlan.Error
import StagePlan.Keyed

/-!
# Layer profiles

The measured cost of a layer is a `LayerProfile`; a `ProfileSet` holds one profile per layer scope.
Its entries are kept in ascending order of their scopes, so that a set is determined by what
`ProfileSet.get?` answers and is always listed in the same order. `ProfileSet.merge` lays one set over
another, and `ProfileSet.ofTimestamps` turns the raw measurements of a run into profiles.
-/

namespace StagePlan

/-- The measured cost of a layer, with times in milliseconds. -/
structure LayerProfile where
  /-- The time of the forward pass. -/
  forward : Float
  /-- The time of the backward pass. -/
  backward : Float
  /-- The static size of the layer's parameters and buffers, in bytes. -/
  memory : Nat := 0

/-- The mean of the forward and the backward time. -/
def LayerProfile.mean (p : LayerProfile) : Float := (p.forward + p.backward) / 2

/-- Profiles by layer scope, in ascending order of the scopes. -/
structure ProfileSet where
  /-- The scopes with their profiles. -/
  entries : List (String × LayerProfile) := []
  /-- The scopes ascend. -/
  ascending : entries.Pairwise (fun a b => a.1 < b.1) := by exact .nil

namespace ProfileSet

/-- The empty set. -/
def empty : ProfileSet := {}

instance : EmptyCollection ProfileSet := ⟨empty⟩

/-- The set with a profile for a scope, in the stead of an earlier one. -/
def insert (s : ProfileSet) (scope : String) (profile : LayerProfile) : ProfileSet :=
  ⟨Keyed.place (·.1) (scope, profile) s.entries, Keyed.place_ascending s.ascending⟩

/-- The profile of a scope. -/
def get? (s : ProfileSet) (scope : String) : Option LayerProfile := s.entries.lookup scope

/-- The set of the given entries; of several for one scope the last counts. -/
def ofList (entries : List (String × LayerProfile)) : ProfileSet :=
  entries.foldl (fun s e => s.insert e.1 e.2) ∅

/-- Lays `upper` over a set: where both have a profile, that of `upper` counts. -/
def merge (s upper : ProfileSet) : ProfileSet :=
  upper.entries.foldl (fun s e => s.insert e.1 e.2) s

/-- The scopes, ascending. -/
def scopes (s : ProfileSet) : List String := s.entries.map (·.1)

/-- The number of profiles. -/
def size (s : ProfileSet) : Nat := s.entries.length

/-- Whether there are no profiles. -/
def isEmpty (s : ProfileSet) : Bool := s.entries.isEmpty

/-- A time, or zero where it is negative or no number. -/
def positivePart (x : Float) : Float := if 0 < x then x else 0

/-- The time between each completion stamp and the next; nothing comes after the last one, which
gets zero. Backward passes complete in reverse order, so the stamps descend. -/
def gaps : List Float → List Float
  | [] => []
  | [_] => [0]
  | stamp :: next :: stamps => positivePart (stamp - next) :: gaps (next :: stamps)

/-- Profiles from the raw measurements of a run, given layer by layer: forward times, completion
stamps of the backward pass and sizes. -/
def ofTimestamps (scopes : List String) (forward stamps : List Float) (memory : List Nat) :
    Except Error ProfileSet :=
  let n := scopes.length
  if forward.length ≠ n ∨ stamps.length ≠ n ∨ memory.length ≠ n then
    .error (.settings (.misaligned n forward.length stamps.length memory.length))
  else
    let profiles := (forward.zip ((gaps stamps).zip memory)).map fun (f, b, m) => ⟨f, b, m⟩
    .ok (ofList (scopes.zip profiles))

end ProfileSet

end StagePlan
