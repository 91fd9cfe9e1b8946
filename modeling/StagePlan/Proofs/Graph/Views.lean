import StagePlan.Graph.Listing
import StagePlan.Proofs.Graph.Reachable
import StagePlan.Proofs.Json.Tokens
import StagePlan.Proofs.Requests

/-!
# Views of the edges

The edges of a graph are shown three times by the positions of their ends: in the rows of the directed
adjacency, in those of the undirected one, and in the records of its nodes. `Graph.recorded?` reads a
list of positions back out of a record. Each of them is the list of the positions at which the
handles on a side of a node stand (`Stored.exists_mem_row`), which ascends
(`Stored.indices_ascending`). So the views agree, and nothing is lost (`Stored.viewsAgree`), where the
graph is consistent and its indices are the positions, as they are in the graph of a trace and after a
clean-up (`views_agree`).
-/

namespace StagePlan

/-! ## Reading records -/

namespace Json

/-- The member of an object under a key. -/
def member? (key : String) : Json → Option Json
  | .object members => members.lookup key
  | _ => none

/-- A whole number. -/
def nat? : Json → Option Nat
  | .number literal =>
    if literal.toList.all Decimal.isDigit then some (Decimal.ofDigits literal.toList) else none
  | _ => none

/-- A list of whole numbers. -/
def nats? : Json → Option (List Nat)
  | .array items => items.mapM nat?
  | _ => none

/-- A whole number is read back from its value. -/
theorem nat?_nat (n : Nat) : (nat n).nat? = some n := by
  have digits : (Decimal.digits n).all Decimal.isDigit = true :=
    List.all_eq_true.2 fun c member => isDigit_of_mem_digits member
  rw [nat, nat?, String.toList_ofList, if_pos digits, ofDigits_digits]

/-- So is a list of them. -/
theorem nats?_nats (ns : List Nat) : (nats ns).nats? = some ns := by
  have items : (ns.map nat).mapM nat? = some ns := by
    induction ns with
    | nil => rfl
    | cons n ns ih => rw [List.map_cons, List.mapM_cons, nat?_nat, ih]; rfl
  exact items

end Json

namespace Graph

/-- The list of whole numbers that the record at a position has under a key. -/
def recorded? (g : Graph) (key : String) (i : Nat) : Option (List Nat) :=
  match g.toJson with
  | .array records => records[i]?.bind fun record => (record.member? key).bind Json.nats?
  | _ => none

/-- The adjacency rows and the records show the same edges, all of them and each of them once. -/
structure ViewsAgree (g : Graph) : Prop where
  /-- Every position has a record with both lists, and there are no others. -/
  recorded : ∀ i, ((g.recorded? "inputs" i).isSome ↔ i < g.size) ∧
    ((g.recorded? "outputs" i).isSome ↔ i < g.size)
  /-- The directed rows are the outputs of the records. -/
  outputs : ∀ i, (g.adjacency true)[i]? = g.recorded? "outputs" i
  /-- They ascend. -/
  ascending : ∀ row ∈ g.adjacency true, row.Pairwise (· < ·)
  /-- They show exactly the edges. -/
  edges : ∀ i j : Nat, (∃ outs ∈ g.recorded? "outputs" i, j ∈ outs) ↔
    ∃ u v, g.order[i]? = some u ∧ g.order[j]? = some v ∧ g.Edge u v
  /-- An input of one record is one whose outputs it is among. -/
  inputs : ∀ i j : Nat, (∃ ins ∈ g.recorded? "inputs" i, j ∈ ins) ↔
    ∃ outs ∈ g.recorded? "outputs" j, i ∈ outs
  /-- The undirected rows put together the outputs and the inputs. -/
  union : ∀ i ins outs, g.recorded? "inputs" i = some ins → g.recorded? "outputs" i = some outs →
    ∃ row, (g.adjacency false)[i]? = some row ∧ row.Pairwise (· < ·) ∧
      ∀ j, j ∈ row ↔ j ∈ outs ∨ j ∈ ins
  /-- There is an undirected row for every node. -/
  rows : (g.adjacency false).length = g.size
  /-- The undirected rows name positions. -/
  inRange : ∀ row ∈ g.adjacency false, ∀ j ∈ row, j < g.size
  /-- They are mutual. -/
  symmetric : ∀ i j : Nat, (∃ row ∈ (g.adjacency false)[i]?, j ∈ row) ↔
    ∃ row ∈ (g.adjacency false)[j]?, i ∈ row
  /-- No position stands in its own row. -/
  irreflexive : ∀ i : Nat, ∀ row ∈ (g.adjacency false)[i]?, i ∉ row

section

variable {g : Graph} {i : Nat}

/-- A record at a position has the positions on a side of its node, if every record has those of that
side under the key. -/
theorem recorded?_of_member {key : String} {side : Node → HandleSet}
    (member : ∀ n, (g.record n).member? key = some (.nats (g.indices (side n)))) (i : Nat) :
    g.recorded? key i = (g.nodes.map fun n => g.indices (side n))[i]? := by
  show ((g.nodes.map g.record)[i]?.bind fun record => (record.member? key).bind Json.nats?) = _
  rw [List.getElem?_map, List.getElem?_map]
  cases g.nodes[i]? with
  | none => rfl
  | some n => rw [Option.map_some, Option.bind_some, member, Option.bind_some, Json.nats?_nats]; rfl

/-- A record has the positions of the sources as its inputs. -/
theorem recorded?_inputs (g : Graph) :
    ∀ i : Nat, g.recorded? "inputs" i = (g.nodes.map fun n => g.indices n.sources)[i]? :=
  recorded?_of_member fun _ => rfl

/-- It has those of the targets as its outputs. -/
theorem recorded?_outputs (g : Graph) :
    ∀ i : Nat, g.recorded? "outputs" i = (g.nodes.map fun n => g.indices n.targets)[i]? :=
  recorded?_of_member fun _ => rfl

/-- The positions of a set of handles ascend: different handles stand at different positions. -/
theorem Stored.indices_ascending (stored : g.Stored) (normalized : g.isNormalized = true)
    (hs : HandleSet) : (g.indices hs).Pairwise (· < ·) :=
  Sequential.mergeSort_ascending (List.pairwise_map.2 (stored.pairwise_index normalized hs))

/-- The views of a consistent graph without self-edges, whose indices are the positions, agree. -/
theorem Stored.viewsAgree (stored : g.Stored) (consistent : g.IsConsistent)
    (normalized : g.isNormalized = true) (loopless : ∀ u, ¬ g.Edge u u) : g.ViewsAgree := by
  have size {side : Node → HandleSet} {i : Nat} :
      ((g.nodes.map fun n => g.indices (side n))[i]?).isSome ↔ i < g.size := by
    rw [isSome_getElem?, List.length_map, stored.length_nodes]
  have ascending {side : Node → HandleSet} :
      ∀ row ∈ g.nodes.map fun n => g.indices (side n), row.Pairwise (· < ·) := by
    intro row member
    obtain ⟨n, -, rfl⟩ := List.mem_map.1 member
    exact stored.indices_ascending normalized (side n)
  have edges (i j : Nat) : (∃ outs ∈ g.recorded? "outputs" i, j ∈ outs) ↔
      ∃ u v, g.order[i]? = some u ∧ g.order[j]? = some v ∧ g.Edge u v := by
    rw [recorded?_outputs]
    exact stored.exists_mem_row normalized Node.targets
  have back (i j : Nat) : (∃ ins ∈ g.recorded? "inputs" i, j ∈ ins) ↔
      ∃ u v, g.order[i]? = some u ∧ g.order[j]? = some v ∧ g.Edge v u := by
    simp only [consistent _ _]
    rw [recorded?_inputs]
    exact stored.exists_mem_row normalized Node.sources
  have near (i j : Nat) := stored.exists_mem_adjacency (i := i) (j := j) consistent normalized
  refine ⟨fun i => ⟨?_, ?_⟩, fun i => (g.recorded?_outputs i).symm, ascending, edges,
    fun i j => ?_, fun i ins outs hins houts => ?_, ?_, fun row member j inRow => ?_,
    fun i j => ?_, fun i row found inRow => ?_⟩
  · rw [recorded?_inputs, size]
  · rw [recorded?_outputs, size]
  · rw [back, edges]
    exact ⟨fun ⟨u, v, at_, at_', edge⟩ => ⟨v, u, at_', at_, edge⟩,
      fun ⟨v, u, at_', at_, edge⟩ => ⟨u, v, at_, at_', edge⟩⟩
  · rw [recorded?_inputs, List.getElem?_map] at hins
    rw [recorded?_outputs, List.getElem?_map] at houts
    obtain ⟨n, at_, rfl⟩ := Option.map_eq_some_iff.1 hins
    rw [at_] at houts
    cases houts
    refine ⟨g.indices (n.targets.union n.sources), ?_, stored.indices_ascending normalized _, ?_⟩
    · rw [adjacency, List.getElem?_map, at_]
      rfl
    · intro j
      simp only [stored.mem_indices_iff normalized, HandleSet.mem_union, or_and_right, exists_or]
  · rw [adjacency, List.length_map, stored.length_nodes]
  · obtain ⟨i, found⟩ := List.mem_iff_getElem?.1 member
    obtain ⟨_, _, -, at_', -⟩ := (near i j).1 ⟨row, found, inRow⟩
    exact (List.getElem?_eq_some_iff.1 at_').1
  · rw [near, near]
    exact ⟨fun ⟨u, v, at_, at_', edge⟩ => ⟨v, u, at_', at_, edge.symm⟩,
      fun ⟨v, u, at_', at_, edge⟩ => ⟨u, v, at_, at_', edge.symm⟩⟩
  · obtain ⟨u, v, at_, at_', edge⟩ := (near i i).1 ⟨row, found, inRow⟩
    cases at_.symm.trans at_'
    exact loopless u (edge.elim id id)

/-- The views agree on every graph that operations make, if it is consistent without self-edges and its
indices are the positions. That is so for the graph of a trace and for what a clean-up leaves of it. -/
theorem views_agree :
    (∀ g : Graph, g.Reachable → g.isConsistent = true → g.isNormalized = true →
      (∀ u, ¬ g.Edge u u) → g.ViewsAgree) ∧
    ∀ t s g marker, ofTrace t s = .ok g → g.ViewsAgree ∧ (g.cleanUp marker).2.ViewsAgree := by
  have topological (g : Graph) (top : g.Topological) (normalized : g.isNormalized = true) :
      g.ViewsAgree :=
    top.viewsAgree top.consistent normalized top.loopless
  refine ⟨fun g reachable consistent normalized loopless => ?_, fun t s g marker built => ?_⟩
  · have stored := reachable.stored
    exact stored.viewsAgree (stored.isConsistent_iff.1 consistent) normalized loopless
  · have top := ofTrace_topological built
    exact ⟨topological g top (ofTrace_normalized built), topological _
      ((top.cleanUp_removes marker).spliced.topological top) (top.isNormalized_cleanUp marker)⟩

end

/-- A round of three nodes, one of which a fourth one reads from as well. -/
def round : Graph :=
  let four := (((empty.add "a" .rawOp [] .unmeasured).add "b" .rawOp [] .unmeasured).add "c" .rawOp
    [] .unmeasured).add "d" .rawOp [] .unmeasured
  (((four.connect 0 1).connect 1 2).connect 2 0).connect 2 3

/-- The views agree where the second node is taken out of the round and the others are numbered anew,
so that two of them read from each other. -/
theorem round_viewsAgree : (round.remove 1).2.renumber.Reachable ∧
    (round.remove 1).2.renumber.isConsistent = true ∧
    (round.remove 1).2.renumber.isNormalized = true ∧
    (∀ u, ¬ (round.remove 1).2.renumber.Edge u u) ∧ (round.remove 1).2.renumber.ViewsAgree := by
  have reachable : (round.remove 1).2.renumber.Reachable :=
    .renumber (.remove 1 (.connect 2 3 (.connect 2 0 (.connect 1 2 (.connect 0 1 (.add _ _ _ _
      (.add _ _ _ _ (.add _ _ _ _ (.add _ _ _ _ .empty)))))))))
  have consistent : (round.remove 1).2.renumber.isConsistent = true := by decide
  have normalized : (round.remove 1).2.renumber.isNormalized = true := by decide
  have loopless : ∀ u, ¬ (round.remove 1).2.renumber.Edge u u := by
    have none_ : ∀ u < 4, ∀ n ∈ (round.remove 1).2.renumber.node? u, u ∉ n.targets := by decide
    rintro u ⟨n, found, member⟩
    exact none_ u (Live.lt ⟨n, found⟩) n found member
  exact ⟨reachable, consistent, normalized, loopless,
    views_agree.1 _ reachable consistent normalized loopless⟩

end Graph

end StagePlan
