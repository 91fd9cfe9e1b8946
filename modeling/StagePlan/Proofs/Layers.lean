import StagePlan.Proofs.Graph.Layout

/-!
# The layers of ops

An op belongs to the longest declared layer that encloses its scope. There is only one such layer,
since layers that enclose the same scope are all beginnings of it (`LongestLayer.unique`), and the
search finds it wherever it stands in the list (`enclosingLayer?_eq_some`). So the search depends on
which layers are declared, and not on their order or how often they are listed. A build reads its
layers through this search only (`BuildSettings.SameLabels`), which is why `Graph.ofTrace_layered`
can conclude the same of graphs.
-/

namespace StagePlan

/-- The label of an op at a position that no layer encloses. -/
def TraceOp.rawLabel (op : TraceOp) (position : Nat) : String :=
  op.scope ++ "/" ++ op.kind ++ toString position

/-- A layer encloses the scopes that begin with it; the empty text is no layer. -/
def Encloses (layer scope : String) : Prop := layer ≠ "" ∧ layer.toList <+: scope.toList

/-- A layer is declared, encloses a scope, and is as long as all others that do. -/
structure LongestLayer (layers : List String) (scope layer : String) : Prop where
  declared : layer ∈ layers
  encloses : Encloses layer scope
  longest : ∀ other ∈ layers, Encloses other scope → other.length ≤ layer.length

section

variable {layers layers' : List String} {scope layer layer' : String}

/-- A scope has one beginning of every length. -/
theorem Encloses.eq_of_length (encloses : Encloses layer scope) (encloses' : Encloses layer' scope)
    (length : layer.length = layer'.length) : layer = layer' := by
  have lists : layer.toList.length = layer'.toList.length := length
  have begins := List.prefix_of_prefix_length_le encloses.2 encloses'.2 (Nat.le_of_eq lists)
  exact String.toList_injective (begins.eq_of_length lists)

/-- A scope has one longest layer at most. -/
theorem LongestLayer.unique (longest : LongestLayer layers scope layer)
    (longest' : LongestLayer layers scope layer') : layer = layer' :=
  longest.encloses.eq_of_length longest'.encloses <| Nat.le_antisymm
    (longest'.longest layer longest.declared longest.encloses)
    (longest.longest layer' longest'.declared longest'.encloses)

/-- Which layer is the longest depends on the set of the layers. -/
theorem LongestLayer.congr (same : ∀ layer, layer ≠ "" → (layer ∈ layers ↔ layer ∈ layers'))
    (longest : LongestLayer layers scope layer) : LongestLayer layers' scope layer where
  declared := (same layer longest.encloses.1).1 longest.declared
  encloses := longest.encloses
  longest other declared encloses :=
    longest.longest other ((same other encloses.1).2 declared) encloses

namespace Builder

/-! ## The search for a layer -/

/-- The layers that the search chooses from are those that enclose the scope. -/
theorem mem_enclosing (layers : List String) (scope layer : String) :
    layer ∈ layers.filter (fun layer => !layer.isEmpty && Text.hasPrefix layer scope) ↔
      layer ∈ layers ∧ Encloses layer scope := by
  rw [List.mem_filter, Bool.and_eq_true, Text.hasPrefix_iff, Bool.not_eq_true', ← Bool.not_eq_true,
    String.isEmpty_iff]
  rfl

/-- The longer one of two layers is one of them, and as long as both. -/
theorem longer_cases (best layer : String) : ∃ chosen, longer (some best) layer = some chosen ∧
    (chosen = best ∨ chosen = layer) ∧ best.length ≤ chosen.length ∧
      layer.length ≤ chosen.length := by
  unfold longer
  dsimp only
  split
  next lt => exact ⟨layer, rfl, .inr rfl, Nat.le_of_lt lt, Nat.le_refl _⟩
  next ge => exact ⟨best, rfl, .inl rfl, Nat.le_refl _, Nat.le_of_not_lt ge⟩

/-- The longest one of several layers is one of them, and as long as all. -/
theorem foldl_longer : ∀ (layers : List String) (best : String),
    ∃ chosen, layers.foldl longer (some best) = some chosen ∧ chosen ∈ best :: layers ∧
      ∀ other ∈ best :: layers, other.length ≤ chosen.length
  | [], best => ⟨best, rfl, List.mem_cons_self, fun other member => by simp_all⟩
  | layer :: layers, best => by
    obtain ⟨next, step, which, best_le, layer_le⟩ := longer_cases best layer
    obtain ⟨chosen, rest, member, longest⟩ := foldl_longer layers next
    rw [List.foldl_cons, step]
    refine ⟨chosen, rest, ?_, ?_⟩
    · rcases List.mem_cons.1 member with rfl | member
      · rcases which with rfl | rfl <;> simp
      · exact List.mem_cons_of_mem _ (List.mem_cons_of_mem _ member)
    · have next_le := longest next List.mem_cons_self
      intro other member
      rcases List.mem_cons.1 member with rfl | member
      · exact Nat.le_trans best_le next_le
      rcases List.mem_cons.1 member with rfl | member
      · exact Nat.le_trans layer_le next_le
      · exact longest other (List.mem_cons_of_mem _ member)

/-- The search finds the longest layer that encloses a scope, or there is none. -/
theorem enclosingLayer?_cases (layers : List String) (scope : String) :
    (∃ layer, enclosingLayer? layers scope = some layer ∧ LongestLayer layers scope layer) ∨
      enclosingLayer? layers scope = none ∧ ∀ layer ∈ layers, ¬ Encloses layer scope := by
  unfold enclosingLayer?
  have member := mem_enclosing layers scope
  generalize layers.filter _ = enclosing at member
  cases enclosing with
  | nil =>
    refine .inr ⟨rfl, fun layer declared encloses => ?_⟩
    exact List.not_mem_nil ((member layer).2 ⟨declared, encloses⟩)
  | cons first rest =>
    obtain ⟨layer, found, among, longest⟩ := foldl_longer rest first
    obtain ⟨declared, encloses⟩ := (member layer).1 among
    exact .inl ⟨layer, found, declared, encloses, fun other declared encloses =>
      longest other ((member other).2 ⟨declared, encloses⟩)⟩

/-- The search finds the longest layer. -/
theorem enclosingLayer?_eq_some :
    enclosingLayer? layers scope = some layer ↔ LongestLayer layers scope layer := by
  rcases enclosingLayer?_cases layers scope with ⟨layer', found, longest⟩ | ⟨missing, none_⟩
  · rw [found, Option.some.injEq]
    exact ⟨fun same => same ▸ longest, longest.unique⟩
  · rw [missing]
    exact ⟨nofun, fun longest => absurd longest.encloses (none_ layer longest.declared)⟩

/-- The search depends on the set of the layers. -/
theorem enclosingLayer?_congr (same : ∀ layer, layer ≠ "" → (layer ∈ layers ↔ layer ∈ layers'))
    (scope : String) : enclosingLayer? layers' scope = enclosingLayer? layers scope := by
  refine Option.ext fun layer => ?_
  rw [enclosingLayer?_eq_some, enclosingLayer?_eq_some]
  exact ⟨.congr fun layer some_ => (same layer some_).symm, .congr same⟩

/-- An op is labelled with its longest layer, or is a raw op. -/
theorem opLabel_cases (s : BuildSettings) (position : Nat) (op : TraceOp) :
    (∃ layer, LongestLayer s.profiledLayers op.scope layer ∧
      opLabel s position op = (.profiledLayer, layer)) ∨
    (∀ layer ∈ s.profiledLayers, ¬ Encloses layer op.scope) ∧
      opLabel s position op = (.rawOp, op.rawLabel position) := by
  unfold opLabel
  rcases enclosingLayer?_cases s.profiledLayers op.scope with ⟨layer, found, longest⟩ |
    ⟨missing, none_⟩
  · rw [found]
    exact .inl ⟨layer, longest, rfl⟩
  · rw [missing]
    exact .inr ⟨none_, rfl⟩

end Builder

end

/-! ## What a build reads of its settings -/

/-- Two settings give every node the same label. -/
structure BuildSettings.SameLabels (s s' : BuildSettings) : Prop where
  numInputs : s'.numInputs = s.numInputs
  parameterScopes : s'.parameterScopes = s.parameterScopes
  layer : ∀ scope, Builder.enclosingLayer? s'.profiledLayers scope =
    Builder.enclosingLayer? s.profiledLayers scope

namespace BuildSettings.SameLabels

variable {s s' : BuildSettings}

/-- Inputs are added alike under settings that label alike. -/
theorem addInput (same : s.SameLabels s') (b : Builder) (position : Nat) (input : TraceInput) :
    b.addInput s' position input = b.addInput s position input := by
  have label : Builder.inputLabel s' position = Builder.inputLabel s position := by
    unfold Builder.inputLabel
    rw [same.numInputs, same.parameterScopes]
  unfold Builder.addInput
  rw [label]

/-- So are all of them together. -/
theorem addInputs (same : s.SameLabels s') : ∀ (inputs : List TraceInput) (b : Builder)
    (position : Nat), b.addInputs s' position inputs = b.addInputs s position inputs
  | [], _, _ => rfl
  | input :: inputs, b, position => by
    rw [Builder.addInputs, Builder.addInputs, same.addInput]
    exact congrArg _ (funext fun b => same.addInputs inputs b (position + 1))

/-- Ops are added alike under settings that label alike. -/
theorem addOp (same : s.SameLabels s') (b : Builder) (position : Nat) (op : TraceOp) :
    b.addOp s' position op = b.addOp s position op := by
  have label : Builder.opLabel s' position op = Builder.opLabel s position op := by
    unfold Builder.opLabel
    rw [same.layer]
  unfold Builder.addOp
  rw [label]

/-- So are all of them together. -/
theorem addOps (same : s.SameLabels s') : ∀ (ops : List TraceOp) (b : Builder) (position : Nat),
    b.addOps s' position ops = b.addOps s position ops
  | [], _, _ => rfl
  | op :: ops, b, position => by
    rw [Builder.addOps, Builder.addOps, same.addOp]
    exact congrArg _ (funext fun b => same.addOps ops b (position + 1))

/-- Before costs a build depends on labels only. -/
theorem ofTraceUnmeasured (same : s.SameLabels s') (t : Trace) :
    Graph.ofTraceUnmeasured t s' = Graph.ofTraceUnmeasured t s := by
  rw [Graph.ofTraceUnmeasured_eq, Graph.ofTraceUnmeasured_eq, same.numInputs, same.addInputs]
  simp only [same.addOps]

/-- With the same costs as well, the graphs of a trace are the same. -/
theorem ofTrace (same : s.SameLabels s') (overrides : s'.overrides = s.overrides) (t : Trace) :
    Graph.ofTrace t s' = Graph.ofTrace t s := by
  unfold Graph.ofTrace
  rw [same.ofTraceUnmeasured, overrides]

end BuildSettings.SameLabels

/-! ## Graphs -/

namespace Graph

variable {g : Graph} {t : Trace} {s : BuildSettings}

/-- A node is labelled with the longest layer that encloses the scope of an op, which no other layer
is, or there is no such layer and the node is that of a raw op. -/
def Labelled (s : BuildSettings) (position : Nat) (op : TraceOp) (n : Node) : Prop :=
  (n.kind = .profiledLayer ∧
    ∀ layer, LongestLayer s.profiledLayers op.scope layer ↔ layer = n.scope) ∨
  n.kind = .rawOp ∧ n.scope = op.rawLabel position ∧
    ∀ layer ∈ s.profiledLayers, ¬ Encloses layer op.scope

/-- The node of an output slot is labelled as its op asks for. -/
theorem exists_labelled {position place slot : Nat} {op : TraceOp} (built : ofTrace t s = .ok g)
    (at_ : t.OpAt position op place) (lt : slot < op.nodeCount) :
    ∃ n, g.nodeAt? (place + slot) = some n ∧ Labelled s position op n := by
  obtain ⟨n, found, described⟩ := ofTrace_slot built at_ lt
  simp only [Node.description, TraceOp.description, Prod.mk.injEq] at described
  obtain ⟨scope, kind, -, -⟩ := described
  refine ⟨n, found, ?_⟩
  rcases Builder.opLabel_cases s position op with ⟨layer, longest, label⟩ | ⟨none_, label⟩ <;>
    rw [label] at scope kind
  · refine .inl ⟨kind, fun layer' => ?_⟩
    rw [scope]
    exact ⟨fun longest' => longest'.unique longest, fun same => same ▸ longest⟩
  · exact .inr ⟨kind, scope, none_⟩

/-- The longest layer wins, whatever the order of the layers is. The nodes of an op are labelled
with the longest of the declared layers that enclose its scope, and are those of a raw op if there
is none; and any two lists with the same layers, but for the empty text, give the same graph or the
same error. -/
theorem ofTrace_layered (t : Trace) (s : BuildSettings) :
    (∀ g, ofTrace t s = .ok g → ∀ position op place, t.OpAt position op place →
      ∀ slot < op.nodeCount, ∃ n, g.nodeAt? (place + slot) = some n ∧ Labelled s position op n) ∧
    ∀ layers, (∀ layer, layer ≠ "" → (layer ∈ s.profiledLayers ↔ layer ∈ layers)) →
      ofTrace t { s with profiledLayers := layers } = ofTrace t s := by
  refine ⟨fun g built position op place at_ slot lt => exists_labelled built at_ lt,
    fun layers same => ?_⟩
  have labels : s.SameLabels { s with profiledLayers := layers } :=
    ⟨rfl, rfl, Builder.enclosingLayer?_congr same⟩
  exact labels.ofTrace rfl t

/-- A trace of an op inside two layers, of one with two outputs inside one of them, and of a raw
op. -/
def nestedTrace : Trace where
  inputs := [⟨some [4]⟩]
  ops := [⟨[0], [1], "net/block/conv", "aten::conv2d", ""⟩,
    ⟨[1], [2, 3], "net/block/relu", "aten::chunk", ""⟩, ⟨[3], [4], "net", "aten::flatten", ""⟩]
  outputs := [4]

/-- Settings with a layer inside another one, which is declared twice. -/
def nestedSettings : BuildSettings where
  numInputs := 1
  profiledLayers := ["net/block", "", "net/block/conv", "net/block", "net/blocks"]

/-- The second slot of the second op belongs to the outer layer, and in another order the layers
give the same graph. -/
theorem nestedTrace_layered : ∃ g, ofTrace nestedTrace nestedSettings = .ok g ∧
    (∃ n, g.nodeAt? 3 = some n ∧ n.kind = .profiledLayer ∧ n.scope = "net/block") ∧
      ofTrace nestedTrace { nestedSettings with
        profiledLayers := ["net/blocks", "net/block/conv", "net/block"] } = .ok g := by
  obtain ⟨g, built⟩ : ∃ g, ofTrace nestedTrace nestedSettings = .ok g := ⟨_, rfl⟩
  obtain ⟨labelled, reordered⟩ := ofTrace_layered nestedTrace nestedSettings
  obtain ⟨n, found, layer | raw⟩ :=
    labelled g built 1 ⟨[1], [2, 3], "net/block/relu", "aten::chunk", ""⟩ 2 ⟨rfl, rfl⟩ 1 (by decide)
  · have longest : LongestLayer nestedSettings.profiledLayers "net/block/relu" "net/block" :=
      Builder.enclosingLayer?_eq_some.1 (by decide +kernel)
    refine ⟨g, built, ⟨n, found, layer.1, ((layer.2 _).1 longest).symm⟩, ?_⟩
    refine (reordered _ fun layer some_ => ?_).trans built
    simp only [nestedSettings, List.mem_cons, List.not_mem_nil, or_false]
    tauto
  · exact absurd ⟨by decide, by decide⟩ (raw.2.2 "net/block" (by decide))

end Graph

end StagePlan
