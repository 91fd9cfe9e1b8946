import StagePlan.Graph.Basic
import StagePlan.Text.Search

/-!
# Cleaning a graph

Two passes clean a freshly built graph. `Graph.removeConstants` splices out the nodes whose scope has a
marker, and `Graph.removeDeadEnds` those whose result nobody reads and nobody wants. Either pass can
give the other new work, so `Graph.cleanUp` runs both in rounds until a round removes nothing, and
renumbers what is left.
-/

namespace StagePlan

/-- What the clean-up removed. -/
structure CleanupReport where
  /-- The nodes spliced out by their marker. -/
  constants : Nat := 0
  /-- The nodes whose result nobody read. -/
  deadEnds : Nat := 0
  /-- The rounds, the last of which removed nothing. -/
  rounds : Nat := 0

/-- The number of removed nodes. -/
def CleanupReport.removed (r : CleanupReport) : Nat := r.constants + r.deadEnds

/-- A report as JSON. -/
def CleanupReport.toJson (r : CleanupReport) : Json :=
  .object [
    ("constants_removed", .nat r.constants),
    ("dead_ends_removed", .nat r.deadEnds),
    ("rounds", .nat r.rounds)]

namespace Graph

/-- Whether a node carries the marker. -/
def isConstant (marker : String) (n : Node) : Bool := Text.contains marker n.scope

/-- Whether nobody reads or wants the result of a node. -/
def isDeadEnd (g : Graph) (n : Node) : Bool := n.targets.isEmpty && !g.isOutput n.handle

/-- Splices out the nodes that carry the marker; answers how many there were. -/
def removeConstants (marker : String) (g : Graph) : Nat × Graph :=
  g.removeWhere fun _ n => isConstant marker n

/-- Removes the dead ends, and what becomes one by that; answers how many there were. -/
def removeDeadEnds (g : Graph) : Nat × Graph := g.removeWhere isDeadEnd

/-- A pass lists no more nodes than before. -/
theorem length_order_removeWhere_le (test : Graph → Node → Bool) (g : Graph) :
    (g.removeWhere test).2.order.length ≤ g.order.length := by
  fun_induction removeWhere test g with
  | case1 => exact Nat.le_refl _
  | case2 _ _ _ shorter _ ih => exact Nat.le_trans ih (Nat.le_of_lt shorter)

/-- A pass that counts a removed node leaves a shorter canonical order. -/
theorem length_order_removeWhere_lt {test : Graph → Node → Bool} {g : Graph}
    (h : (g.removeWhere test).1 ≠ 0) :
    (g.removeWhere test).2.order.length < g.order.length := by
  unfold removeWhere at h ⊢
  split
  next none_ => exact absurd (by rw [dif_pos none_]) h
  next some_ =>
    exact Nat.lt_of_le_of_lt (length_order_removeWhere_le _ _) (length_order_removeEach_lt some_)

/-- Runs both passes until a round removes nothing. -/
def cleanRounds (marker : String) (g : Graph) : CleanupReport × Graph :=
  let constants := g.removeConstants marker
  let deadEnds := constants.2.removeDeadEnds
  if some_ : constants.1 + deadEnds.1 = 0 then (⟨0, 0, 1⟩, deadEnds.2)
  else
    have : deadEnds.2.order.length < g.order.length := by
      have le₁ : constants.2.order.length ≤ g.order.length := length_order_removeWhere_le _ _
      have le₂ : deadEnds.2.order.length ≤ constants.2.order.length := length_order_removeWhere_le _ _
      rcases Nat.eq_zero_or_pos constants.1 with none_ | pos
      · exact Nat.lt_of_lt_of_le (length_order_removeWhere_lt (by show deadEnds.1 ≠ 0; omega)) le₁
      · exact Nat.lt_of_le_of_lt le₂ (length_order_removeWhere_lt (Nat.ne_of_gt pos))
    let further := cleanRounds marker deadEnds.2
    (⟨constants.1 + further.1.constants, deadEnds.1 + further.1.deadEnds, further.1.rounds + 1⟩,
      further.2)
termination_by g.order.length

/-- Cleans the graph of constants and dead ends and renumbers it. -/
def cleanUp (marker : String) (g : Graph) : CleanupReport × Graph :=
  let cleaned := g.cleanRounds marker
  (cleaned.1, cleaned.2.renumber)

end Graph

end StagePlan
