import StagePlan.Proofs.Graph.Cleanup
import StagePlan.Proofs.Graph.Redescribed
import StagePlan.Proofs.Layers

/-!
# Measured costs

A build puts measured costs onto a graph that has none (`ofTraceUnmeasured_untimed`), and changes
nothing else (`uncosted_override`). So which costs are measured decides what ops of profiled layers
cost, and nothing but that (`Untimed.measured`). To measure costs is to redescribe nodes, and the
clean-up does the same to a graph with other costs; what it leaves is a graph without measured costs
again, with measured ones put onto it (`cleanUp_override`). `Graph.ofTrace_overrides` concludes that
two builds that differ in their measured costs give graphs that differ in these, before the clean-up
and after it.
-/

open StagePlan.Results (Agree)

namespace StagePlan

/-- What describes a node but its cost. -/
def costless : Redescription := fun _ _ shapes _ => (shapes, .unmeasured)

/-- What describes a node once its cost is measured. -/
def measuring (overrides : ProfileSet) : Redescription := fun scope kind shapes weight =>
  (shapes, (if kind = .profiledLayer then overrides.get? scope else none).elim weight .timing)

namespace Node

variable {overrides : ProfileSet} {n : Node} {profile : LayerProfile}

/-- Measuring the cost of a node changes nothing but what describes it. -/
theorem override_eq_redescribe (overrides : ProfileSet) :
    Node.override overrides = Node.redescribe (measuring overrides) :=
  funext (override_eq overrides)

@[simp] theorem scope_override : (n.override overrides).scope = n.scope := by rw [override_eq]

@[simp] theorem kind_override : (n.override overrides).kind = n.kind := by rw [override_eq]

@[simp] theorem weight_override :
    (n.override overrides).weight = (n.measured? overrides).elim n.weight .timing := by
  rw [override_eq]

/-- Ops of profiled layers are measured, if there is a profile. -/
theorem measured?_eq_some :
    n.measured? overrides = some profile ↔
      n.kind = .profiledLayer ∧ overrides.get? n.scope = some profile := by
  unfold measured?
  split
  next layer => exact (and_iff_right layer).symm
  next other => exact iff_of_false nofun fun both => other both.1

end Node

namespace Graph

/-- The graph whose nodes are without costs. -/
def uncosted (g : Graph) : Graph := g.redescribe costless

/-- No node of a graph has a measured cost. -/
def Untimed (g : Graph) : Prop := ∀ h n profile, g.node? h = some n → n.weight ≠ .timing profile

/-- A graph is a plain one on which costs are measured: it differs in its costs at most, ops of
profiled layers with a profile cost what was measured, and all other nodes what they did. -/
structure Measured (overrides : ProfileSet) (plain g : Graph) : Prop where
  uncosted : g.uncosted = plain.uncosted
  timing : ∀ h n profile, g.node? h = some n → (n.weight = .timing profile ↔
    n.kind = .profiledLayer ∧ overrides.get? n.scope = some profile)
  other : ∀ h n, g.node? h = some n →
    ¬ (n.kind = .profiledLayer ∧ (overrides.get? n.scope).isSome) →
      ∃ m, plain.node? h = some m ∧ n.weight = m.weight

section

variable {g : Graph} {t : Trace} {s : BuildSettings}

/-! ## Costs put onto a graph -/

/-- Costs are all that is measured. -/
theorem uncosted_override (overrides : ProfileSet) (g : Graph) :
    (g.mapNodes (·.override overrides)).uncosted = g.uncosted := by
  have same (n : Node) : (n.override overrides).redescribe costless = n.redescribe costless := by
    rw [Node.override_eq]
    rfl
  simp [uncosted, redescribe, mapNodes, Option.map_map, Function.comp_def, same]

/-- Nothing is measured without profiles. -/
theorem override_empty (g : Graph) : g.mapNodes (·.override ∅) = g := by
  have same (n : Node) : n.override ∅ = n := by
    rw [Node.override_eq, Node.measured?]
    split <;> rfl
  simp [mapNodes, same]

/-- Costs that are put onto a graph without measured ones are those of its layers. -/
theorem Untimed.measured (untimed : g.Untimed) (overrides : ProfileSet) :
    Measured overrides g (g.mapNodes (·.override overrides)) where
  uncosted := uncosted_override overrides g
  timing h n profile found := by
    rw [node?_mapNodes] at found
    obtain ⟨m, live, rfl⟩ := Option.map_eq_some_iff.1 found
    have plain := untimed h m profile live
    rw [Node.weight_override, Node.kind_override, Node.scope_override, ← Node.measured?_eq_some]
    cases m.measured? overrides <;> simp [plain]
  other h n found none_ := by
    rw [node?_mapNodes] at found
    obtain ⟨m, live, rfl⟩ := Option.map_eq_some_iff.1 found
    rw [Node.kind_override, Node.scope_override] at none_
    have missing : m.measured? overrides = none := by
      refine Option.eq_none_iff_forall_ne_some.2 fun profile measured => none_ ?_
      obtain ⟨layer, profiled⟩ := Node.measured?_eq_some.1 measured
      exact ⟨layer, Option.isSome_of_eq_some profiled⟩
    refine ⟨m, live, ?_⟩
    rw [Node.weight_override, missing]
    rfl

/-! ## Clean-ups -/

/-- The clean-up leaves no measured cost where there was none. -/
theorem Untimed.cleanUp (untimed : g.Untimed) (top : g.Topological) (marker : String) :
    (g.cleanUp marker).2.Untimed := by
  intro h n profile found
  obtain ⟨m, found', same⟩ := (top.cleanUp_removes marker).spliced.kept h n found
  have weight : n.weight = m.weight := congrArg (·.2.2.2.2.1) same
  exact weight ▸ untimed h m profile found'

/-- Costs may be measured before the clean-up or after it. -/
theorem cleanUp_override (marker : String) (overrides : ProfileSet) (g : Graph) :
    (g.mapNodes (·.override overrides)).cleanUp marker
      = ((g.cleanUp marker).1, (g.cleanUp marker).2.mapNodes (·.override overrides)) := by
  rw [Node.override_eq_redescribe]
  exact cleanUp_redescribe marker (measuring overrides) g

/-! ## Graphs of traces -/

/-- A node that is built is described by an input or an op of the trace. -/
theorem ofTraceUnmeasured_cases (built : ofTraceUnmeasured t s = .ok g) {h : Handle} {n : Node}
    (found : g.node? h = some n) :
    (∃ input : TraceInput, input.description? s h = some n.description) ∨
      ∃ position op, n.description = TraceOp.description s position op .unmeasured := by
  obtain ⟨b, draws, marked⟩ := exists_draws built
  rw [(Builder.markResults_eq_ok marked).1.2] at found
  have described : b.graph.description? h = some n.description := congrArg (Option.map _) found
  have lt : h < t.nodeCount := Nat.lt_of_lt_of_eq (Live.lt ⟨n, found⟩) draws.count
  rcases t.place_cases lt with lt | ⟨position, op, place, slot, at_, further, rfl⟩
  · rw [draws.input h _ (List.getElem?_eq_getElem lt)] at described
    exact .inl ⟨_, described⟩
  · rw [draws.slot position op place at_ slot further] at described
    exact .inr ⟨position, op, (Option.some.inj described).symm⟩

/-- Inputs cost their elements, and ops nothing yet. -/
theorem ofTraceUnmeasured_untimed (built : ofTraceUnmeasured t s = .ok g) : g.Untimed := by
  intro h n profile found
  rcases ofTraceUnmeasured_cases built found with ⟨_, described⟩ | ⟨_, _, described⟩
  · obtain ⟨_, _, _, elements, _, _, same⟩ := TraceInput.description?_eq_some described
    have weight : n.weight = .elements elements := congrArg (·.2.2.2) same
    exact weight ▸ nofun
  · have weight : n.weight = .unmeasured := congrArg (·.2.2.2) described
    exact weight ▸ nofun

/-- Two graphs differ in their measured costs, which are put onto a plain one. -/
structure SameButCosts (overrides overrides' : ProfileSet) (plain g g' : Graph) : Prop where
  uncosted : g.uncosted = g'.uncosted
  measured : Measured overrides plain g
  measured' : Measured overrides' plain g'

/-- Measured costs that are put onto a graph without any are all that tells the results apart. -/
theorem Untimed.sameButCosts (untimed : g.Untimed) (overrides overrides' : ProfileSet) :
    SameButCosts overrides overrides' g (g.mapNodes (·.override overrides))
      (g.mapNodes (·.override overrides')) where
  uncosted := (uncosted_override overrides g).trans (uncosted_override overrides' g).symm
  measured := untimed.measured overrides
  measured' := untimed.measured overrides'

/-- A graph is built first, and its costs are measured then. -/
theorem ofTrace_eq (t : Trace) (s : BuildSettings) (overrides : ProfileSet) :
    ofTrace t { s with overrides := overrides } =
      ofTraceUnmeasured t s >>= fun g => .ok (g.mapNodes (·.override overrides)) := by
  have labels : s.SameLabels { s with overrides := overrides } := ⟨rfl, rfl, fun _ => rfl⟩
  rw [ofTrace, labels.ofTraceUnmeasured]
  rfl

/-- Measured costs change nothing but costs. Whatever profiles there are, a build fails for the same
reason, or gives graphs that are what the build without profiles gives, except that the ops of
profiled layers with a profile cost what was measured. The clean-up removes as much from all of
them, and leaves graphs of which the same is true. -/
theorem ofTrace_overrides (t : Trace) (s : BuildSettings) (overrides overrides' : ProfileSet) :
    Agree (fun g g' => ∃ plain, ofTrace t { s with overrides := ∅ } = .ok plain ∧
        SameButCosts overrides overrides' plain g g' ∧
        ∀ marker, (g.cleanUp marker).1 = (g'.cleanUp marker).1 ∧
          SameButCosts overrides overrides' (plain.cleanUp marker).2 (g.cleanUp marker).2
            (g'.cleanUp marker).2) Eq
      (ofTrace t { s with overrides := overrides })
      (ofTrace t { s with overrides := overrides' }) := by
  rw [ofTrace_eq, ofTrace_eq, ofTrace_eq]
  cases built : ofTraceUnmeasured t s with
  | error e => exact .error rfl
  | ok plain =>
    have untimed := ofTraceUnmeasured_untimed built
    obtain ⟨b, draws, marked⟩ := exists_draws built
    have top := draws.sound.markResults marked
    refine .ok ⟨plain, ?_, untimed.sameButCosts overrides overrides', fun marker => ?_⟩
    · exact congrArg Except.ok (override_empty plain)
    · rw [cleanUp_override, cleanUp_override]
      exact ⟨rfl, (untimed.cleanUp top marker).sameButCosts overrides overrides'⟩

/-- An input keeps its cost, even if it is labelled like a layer with a profile. -/
example : (ofTrace ⟨[⟨some [4]⟩], [⟨[0], [1], "input0", "aten::relu", ""⟩], [1]⟩
    { numInputs := 1, profiledLayers := ["input0"],
      overrides := .ofList [("input0", { forward := 2, backward := 4 })] }).toOption.map
      (·.nodes.map fun n => (n.scope, n.weight matches .timing _)) =
    some [("input0", false), ("input0", true)] := by decide +kernel

end

end Graph

end StagePlan
