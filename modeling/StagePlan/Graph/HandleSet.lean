import StagePlan.Keyed

/-!
# Sets of handles

The neighbours of a node and the outputs of a graph are finite sets of handles. A `HandleSet` lists its
members in strictly ascending order, so two sets with the same members are equal (`HandleSet.ext`), and
`toList` lists each member once. The operations are stated by membership: `mem_insert`, `mem_erase` and
`mem_union`.
-/

namespace StagePlan

/-- The name of a node, which is never given to another node. -/
abbrev Handle := Nat

/-- A finite set of handles, listed in ascending order. -/
structure HandleSet where
  /-- The members, in ascending order. -/
  toList : List Handle := []
  /-- The members ascend. -/
  ascending : toList.Pairwise (· < ·) := by exact .nil

namespace HandleSet

instance : EmptyCollection HandleSet := ⟨{}⟩

instance : Inhabited HandleSet := ⟨∅⟩

instance : Membership Handle HandleSet := ⟨fun s h => h ∈ s.toList⟩

instance (h : Handle) (s : HandleSet) : Decidable (h ∈ s) := inferInstanceAs (Decidable (h ∈ s.toList))

@[simp] theorem mem_toList {s : HandleSet} {h : Handle} : h ∈ s.toList ↔ h ∈ s := .rfl

@[simp] theorem not_mem_empty (h : Handle) : h ∉ (∅ : HandleSet) := List.not_mem_nil

/-- A set lists no handle twice. -/
theorem nodup_toList (s : HandleSet) : s.toList.Nodup := s.ascending.imp Nat.ne_of_lt

/-- Sets with the same members are equal, for they are listed in ascending order. -/
@[ext] theorem ext {s t : HandleSet} (h : ∀ a, a ∈ s ↔ a ∈ t) : s = t := by
  have members : s.toList.Perm t.toList :=
    (List.perm_ext_iff_of_nodup s.nodup_toList t.nodup_toList).2 h
  have same : s.toList = t.toList :=
    members.eq_of_pairwise (fun _ _ _ _ lt gt => absurd gt (Nat.lt_asymm lt)) s.ascending t.ascending
  cases s
  cases t
  cases same
  rfl

/-- The set with one more member. -/
def insert (s : HandleSet) (h : Handle) : HandleSet :=
  ⟨Keyed.place id h s.toList, Keyed.place_ascending s.ascending⟩

/-- The set without one of its members. -/
def erase (s : HandleSet) (h : Handle) : HandleSet := ⟨s.toList.filter (· ≠ h), s.ascending.filter _⟩

/-- The set of the given handles. -/
def ofList (hs : List Handle) : HandleSet := hs.foldl insert ∅

/-- The members of both sets. -/
def union (s t : HandleSet) : HandleSet := t.toList.foldl insert s

/-- The set without the members of a list. -/
def eraseAll (s : HandleSet) (hs : List Handle) : HandleSet := hs.foldl erase s

/-- Whether there are no members. -/
def isEmpty (s : HandleSet) : Bool := s.toList.isEmpty

/-- The number of members. -/
def size (s : HandleSet) : Nat := s.toList.length

@[simp] theorem mem_insert {s : HandleSet} {a h : Handle} : a ∈ s.insert h ↔ a = h ∨ a ∈ s := by
  refine ⟨Keyed.mem_of_mem_place, fun member => ?_⟩
  by_cases same : a = h
  · exact same ▸ Keyed.mem_place_self
  · exact Keyed.mem_place_of_ne (member.resolve_left same) same

@[simp] theorem mem_erase {s : HandleSet} {a h : Handle} : a ∈ s.erase h ↔ a ≠ h ∧ a ∈ s := by
  show a ∈ s.toList.filter (· ≠ h) ↔ _
  simp [and_comm]

/-- What was inserted one after another is a member, beside the members there were. -/
theorem mem_foldl_insert {hs : List Handle} {s : HandleSet} {a : Handle} :
    a ∈ hs.foldl insert s ↔ a ∈ s ∨ a ∈ hs := by
  induction hs generalizing s with
  | nil => simp
  | cons h hs ih => simp [ih, or_assoc, or_left_comm]

@[simp] theorem mem_ofList {hs : List Handle} {a : Handle} : a ∈ ofList hs ↔ a ∈ hs := by
  simp [ofList, mem_foldl_insert]

@[simp] theorem mem_union {s t : HandleSet} {a : Handle} : a ∈ s.union t ↔ a ∈ s ∨ a ∈ t :=
  mem_foldl_insert

@[simp] theorem mem_eraseAll {hs : List Handle} {s : HandleSet} {a : Handle} :
    a ∈ s.eraseAll hs ↔ a ∈ s ∧ a ∉ hs := by
  unfold eraseAll
  induction hs generalizing s with
  | nil => simp
  | cons h hs ih => simp [ih, and_left_comm, and_assoc]

/-- Only a set without members counts as empty. -/
theorem isEmpty_iff {s : HandleSet} : s.isEmpty ↔ ∀ a, a ∉ s := by
  simp [isEmpty, List.eq_nil_iff_forall_not_mem]

end HandleSet

end StagePlan
