import Mathlib.Algebra.Order.Ring.Nat
import Mathlib.Data.List.Perm.Basic
import StagePlan.Proofs.Sequential.Pieces

/-!
# Parts in use

The repair never empties a part and never opens one, be neighbours mutual or not (`mem_repair`). A
component only moves into a part where it has a neighbour, so the part was in use before
(`mem_of_mem_move`). The part that settles keeps the members of its anchor: components have no
common members, so none of them moves away with another one. All other parts keep what they had, for
only components of the part that settles move (`mem_settle`).
-/

namespace StagePlan.Sequential

section

variable {next : Nat → List Nat} {weight : Nat → Nat} {parts : Array Nat} {part n p t v : Nat}
  {c : List Nat} {cs : List (List Nat)}

/-! ## Moves -/

/-- A component has a neighbour in the part that it moves to. -/
theorem mem_of_target? (bounded : ∀ v, ∀ u ∈ next v, u < parts.size)
    (found : target? next parts part c = some t) : t ∈ parts := by
  have listed : ∃ stands, t ∈ outsideParts next parts part c stands := by
    unfold target? at found
    cases latest : (outsideParts next parts part c (· < ·)).max? with
    | some q =>
      rw [latest] at found
      cases found
      exact ⟨_, List.max?_mem latest⟩
    | none =>
      rw [latest] at found
      exact ⟨_, List.min?_mem found⟩
  obtain ⟨stands, listed⟩ := listed
  obtain ⟨-, v, -, u, -, -, here⟩ := (mem_outsideParts bounded).1 listed
  exact Array.mem_of_getElem? here

/-- A move opens no part. -/
theorem mem_of_mem_move (bounded : ∀ v, ∀ u ∈ next v, u < parts.size)
    (used : p ∈ move next parts part c) : p ∈ parts := by
  cases found : target? next parts part c with
  | none => rwa [move, found] at used
  | some t =>
    obtain ⟨v, here⟩ := Array.mem_iff_getElem?.1 used
    rw [getElem?_move found] at here
    split at here
    next member =>
      obtain ⟨q, -, rfl⟩ := Option.map_eq_some_iff.1 here
      exact mem_of_target? bounded found
    next other => exact Array.mem_of_getElem? here

/-- A node that is no member of a component does not move with it. -/
theorem getElem?_move_of_notMem (other : v ∉ c) : (move next parts part c)[v]? = parts[v]? := by
  cases found : target? next parts part c with
  | none => rw [move, found]
  | some t => rw [getElem?_move found, if_neg other]

/-- Several moves open no part either. -/
theorem mem_of_mem_foldl_move (bounded : ∀ v, ∀ u ∈ next v, u < n) (size : parts.size = n)
    (used : p ∈ cs.foldl (fun parts c => move next parts part c) parts) : p ∈ parts := by
  induction cs generalizing parts with
  | nil => exact used
  | cons c cs ih =>
    have before := ih ((size_move c).trans size) used
    exact mem_of_mem_move (size ▸ bounded) before

/-- A node that is in none of the components stays where it is. -/
theorem getElem?_foldl_move (other : ∀ c ∈ cs, v ∉ c) :
    (cs.foldl (fun parts c => move next parts part c) parts)[v]? = parts[v]? := by
  induction cs generalizing parts with
  | nil => rfl
  | cons c cs ih =>
    obtain ⟨first, rest⟩ := List.forall_mem_cons.1 other
    rw [List.foldl_cons, ih rest, getElem?_move_of_notMem first]

/-! ## Settling and repairing -/

/-- The anchor is the first component that weighs as much as any. -/
theorem anchor_eq (weight : Nat → Nat) (cs : List (List Nat)) : anchor weight cs =
    (cs.map fun c => (c.map weight).sum).idxOf ((cs.map fun c => (c.map weight).sum).foldl max 0) :=
  rfl

/-- What the heaviest component weighs, beside its position. -/
theorem max?_weights (weight : Nat → Nat) (some_ : cs ≠ []) :
    (cs.map fun c => (c.map weight).sum).max?
      = some ((cs.map fun c => (c.map weight).sum).foldl max 0) := by
  cases cs with
  | nil => exact absurd rfl some_
  | cons d ds =>
    rw [List.map_cons, List.foldl_cons, Nat.zero_max]
    rfl

/-- The position of the first heaviest component is that of a component. -/
theorem anchor_lt (weight : Nat → Nat) (some_ : cs ≠ []) : anchor weight cs < cs.length := by
  have listed := List.max?_mem (max?_weights weight some_)
  rw [anchor_eq]
  simpa using List.idxOf_lt_length_of_mem listed

/-- The anchor has no member in common with another component. -/
theorem Apart.anchor_alone {seen : List Nat} (apart : Apart parts part seen cs)
    (lt : anchor weight cs < cs.length) :
    ∀ d ∈ cs.eraseIdx (anchor weight cs), ∀ v ∈ cs[anchor weight cs], v ∉ d := by
  have perm := List.getElem_cons_eraseIdx_perm lt
  have apart' := (perm.pairwise_iff fun apart v hv inOther => apart v inOther hv).2 apart.apart
  exact (List.pairwise_cons.1 apart').1

/-- A part in use has a node that no component takes along when the part settles: one of another
part, or a member of the anchor. -/
theorem Apart.exists_stay {seen : List Nat} (apart : Apart parts part seen cs)
    (used : p ∈ parts) (some_ : p = part → cs ≠ []) :
    ∃ v, parts[v]? = some p ∧ ∀ c ∈ cs.eraseIdx (anchor weight cs), v ∉ c := by
  by_cases same : p = part
  · subst same
    have lt := anchor_lt weight (some_ rfl)
    obtain ⟨v, member⟩ := List.exists_mem_of_ne_nil _ (apart.filled _ (List.getElem_mem lt))
    refine ⟨v, apart.inside _ (List.getElem_mem lt) v member, fun c hc => ?_⟩
    exact apart.anchor_alone lt c hc v member
  · obtain ⟨v, here⟩ := Array.mem_iff_getElem?.1 used
    refine ⟨v, here, fun c hc member => same ?_⟩
    exact Option.some.inj (here.symm.trans (apart.inside c (List.mem_of_mem_eraseIdx hc) v member))

/-- When a part settles, the parts in use stay the same. -/
theorem mem_settle (bounded : ∀ v, ∀ u ∈ next v, u < parts.size) :
    p ∈ settle next weight parts part ↔ p ∈ parts := by
  have apart := components_apart next parts part
  unfold settle
  constructor
  · exact mem_of_mem_foldl_move bounded rfl
  · intro used
    by_cases none_ : components next parts part = []
    · simpa [none_] using used
    · obtain ⟨v, here, stays⟩ := apart.exists_stay used fun _ => none_
      exact Array.mem_of_getElem? ((getElem?_foldl_move stays).trans here)

/-- The repair neither empties a part nor opens one. -/
theorem mem_repair (bounded : ∀ v, ∀ u ∈ next v, u < parts.size) :
    p ∈ repair next weight parts ↔ p ∈ parts := by
  refine foldl_settle_induction (motive := fun repaired => p ∈ repaired ↔ p ∈ parts)
    (fun repaired part size same => ?_) _ parts rfl .rfl
  exact (mem_settle (size ▸ bounded)).trans same

end

end StagePlan.Sequential
