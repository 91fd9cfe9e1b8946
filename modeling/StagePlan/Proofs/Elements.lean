import Mathlib.Algebra.BigOperators.Ring.List
import Mathlib.Data.List.TakeWhile
import StagePlan.Proofs.Graph.Scoping
import StagePlan.Proofs.Graph.Layout

/-!
# Numbers of elements

The sizes of an input are multiplied from the left, and the product is checked at every step. A zero
keeps it from growing any more, so it is refused exactly if the sizes before the first zero `Overflow`
(`Shape.elements?_eq`), which depends on the order of the sizes only where there is a zero among them.

The build `ComesTo` an input if nothing before it is refused (`Builder.addInputs_eq_overflow`).
`Graph.ofTrace_elements` says which inputs are refused for an overflow then, and what the nodes of the
other ones carry.
-/

namespace StagePlan

namespace Shape

/-- The product of the sizes before the first zero is no word. -/
def Overflows (sizes : Shape) : Prop := Word.limit ≤ (sizes.takeWhile (· ≠ 0)).prod

instance (sizes : Shape) : Decidable sizes.Overflows := inferInstanceAs (Decidable (_ ≤ _))

variable {sizes : Shape}

/-! ## Products -/

/-- A product that is taken from the left comes to its end unless it overflows before a zero. -/
theorem foldlM_product : ∀ (sizes : Shape) {start : Nat}, start < Word.limit →
    sizes.foldlM (fun product size => if product * size < Word.limit then some (product * size)
        else none) start
      = if start * (sizes.takeWhile (· ≠ 0)).prod < Word.limit then some (start * sizes.prod) else none
  | [], start, fits => by simp [fits]
  | size :: sizes, start, fits => by
    rw [List.foldlM_cons]
    rcases Nat.eq_zero_or_pos size with rfl | pos
    · have none_ : (0 : Nat) < Word.limit := by decide
      rw [Nat.mul_zero, if_pos none_, Option.bind_eq_bind, Option.bind_some, foldlM_product sizes none_]
      simp [fits, none_]
    · have whole : (size :: sizes).takeWhile (· ≠ 0) = size :: sizes.takeWhile (· ≠ 0) :=
        List.takeWhile_cons_of_pos (by simpa using Nat.ne_of_gt pos)
      have later : (sizes.takeWhile (· ≠ 0)).prod ≠ 0 := List.prod_ne_zero fun member => by
        simpa using List.mem_takeWhile_imp member
      rw [whole, List.prod_cons, List.prod_cons, ← Nat.mul_assoc, ← Nat.mul_assoc]
      by_cases fits' : start * size < Word.limit
      · rw [if_pos fits', Option.bind_eq_bind, Option.bind_some, foldlM_product sizes fits']
      · have more := Nat.le_mul_of_pos_right (start * size) (Nat.pos_of_ne_zero later)
        rw [if_neg fits', if_neg fun less => fits' (Nat.lt_of_le_of_lt more less)]
        rfl

/-- The number of elements is the product of the sizes, unless it overflows before a zero. -/
theorem elements?_eq (sizes : Shape) :
    elements? sizes = if sizes.Overflows then none else some sizes.prod := by
  have one : 1 < Word.limit := by decide
  have whole := foldlM_product sizes one
  rw [Nat.one_mul, Nat.one_mul] at whole
  by_cases overflows : sizes.Overflows
  · rw [if_pos overflows]
    exact whole.trans (if_neg (Nat.not_lt.2 overflows))
  · rw [if_neg overflows]
    exact whole.trans (if_pos (Nat.lt_of_not_le overflows))

/-- Where no size is zero, the product overflows as a whole or not at all. -/
theorem overflows_iff (nonzero : 0 ∉ sizes) : sizes.Overflows ↔ Word.limit ≤ sizes.prod := by
  have all : sizes.takeWhile (· ≠ 0) = sizes :=
    List.takeWhile_eq_self_iff.2 fun size member =>
      decide_eq_true fun same : size = 0 => nonzero (same ▸ member)
  rw [Overflows, all]

end Shape

/-! ## Inputs -/

/-- The build of a trace comes to the sizes of the input at a position: the number of inputs is
enough, this one has a scope if it is no model input, and those before it are ready. -/
structure Trace.ComesTo (t : Trace) (s : BuildSettings) (position : Nat) (sizes : Shape) : Prop where
  enough : s.numInputs ≤ t.inputs.length
  sized : t.inputs[position]? = some ⟨some sizes⟩
  named : s.numInputs ≤ position → ∃ scope, s.parameterScopes[position - s.numInputs]? = some scope
  earlier : ∀ i < position, ∀ input, t.inputs[i]? = some input → TraceInput.Ready s i input

section

variable {s : BuildSettings} {b : Builder} {position : Nat} {input : TraceInput} {sizes : Shape}

/-- An input is ready if it has a scope and sizes that do not overflow. -/
theorem TraceInput.ready_iff : TraceInput.Ready s position input ↔
    (∃ sizes, input.sizes = some sizes ∧ ¬ sizes.Overflows) ∧ (s.numInputs ≤ position →
      ∃ scope, s.parameterScopes[position - s.numInputs]? = some scope) := by
  have fits (sizes : Shape) : (∀ k, (sizes.take k).prod < Word.limit) ↔ ¬ sizes.Overflows := by
    rw [← Shape.exists_elements?, Shape.elements?_eq]
    by_cases overflows : sizes.Overflows <;> simp [overflows]
  constructor
  · rintro ⟨⟨sizes, sized, all⟩, named⟩
    exact ⟨⟨sizes, sized, (fits sizes).1 all⟩, named⟩
  · rintro ⟨⟨sizes, sized, all⟩, named⟩
    exact ⟨⟨sizes, sized, (fits sizes).2 all⟩, named⟩

namespace Builder

/-- An input is refused for an overflow if it has a scope, and sizes that overflow. -/
theorem addInput_eq_overflow {place : Nat} :
    b.addInput s position input = .error (.shapeResolution place (.overflow sizes)) ↔
      place = position ∧ input.sizes = some sizes ∧ (s.numInputs ≤ position →
        ∃ scope, s.parameterScopes[position - s.numInputs]? = some scope) ∧ sizes.Overflows := by
  unfold Builder.addInput
  cases input.sizes with
  | none =>
    refine ⟨fun refused => ?_, fun ⟨_, sized, _⟩ => nomatch sized⟩
    cases refused
  | some sizes' =>
    rcases inputLabel_cases s position with ⟨label, labelled, named⟩ | ⟨refused, more, missing⟩
    · dsimp only
      rw [labelled, Shape.elements?_eq]
      by_cases overflows : sizes'.Overflows
      · rw [if_pos overflows]
        constructor
        · intro refused
          cases refused
          exact ⟨rfl, rfl, named, overflows⟩
        · rintro ⟨rfl, same, -, -⟩
          cases same
          rfl
      · rw [if_neg overflows]
        constructor
        · intro refused
          cases refused
        · rintro ⟨-, same, -, overflows'⟩
          cases same
          exact absurd overflows' overflows
    · dsimp only
      rw [refused]
      constructor
      · intro refused'
        cases refused'
      · rintro ⟨-, -, named, -⟩
        obtain ⟨scope, found⟩ := named more
        cases missing.symm.trans found

/-- Inputs are refused for an overflow of the first of them that is not ready. -/
theorem addInputs_eq_overflow : ∀ {inputs : List TraceInput} {b : Builder} {position place : Nat},
    b.addInputs s position inputs = .error (.shapeResolution place (.overflow sizes)) ↔
      ∃ i, place = position + i ∧ inputs[i]? = some ⟨some sizes⟩ ∧ (s.numInputs ≤ place →
        ∃ scope, s.parameterScopes[place - s.numInputs]? = some scope) ∧ sizes.Overflows ∧
          ∀ j < i, ∀ input, inputs[j]? = some input → TraceInput.Ready s (position + j) input
  | [], b, position, place => by simp [addInputs]
  | input :: inputs, b, position, place => by
    -- the input at `i + 1` is the one at `i` of those that are left
    have shift (i : Nat) : position + 1 + i = position + (i + 1) := by omega
    rw [addInputs]
    rcases addInput_cases s b position input with ⟨ready, g, h, added⟩ | ⟨unready, cause, refused⟩
    · rw [added]
      refine addInputs_eq_overflow.trans ⟨?_, ?_⟩
      · rintro ⟨i, rfl, at_, named, overflows, earlier⟩
        refine ⟨i + 1, shift i, at_, named, overflows, fun j lt input' at' => ?_⟩
        cases j with
        | zero => exact (Option.some.inj at') ▸ ready
        | succ j => exact shift j ▸ earlier j (Nat.lt_of_succ_lt_succ lt) input' at'
      · rintro ⟨i, rfl, at_, named, overflows, earlier⟩
        cases i with
        | zero =>
          obtain rfl := Option.some.inj at_
          obtain ⟨⟨_, same, fits⟩, -⟩ := TraceInput.ready_iff.1 ready
          cases same
          exact absurd overflows fits
        | succ i =>
          refine ⟨i, (shift i).symm, at_, named, overflows, fun j lt input' at' => ?_⟩
          exact shift j ▸ earlier (j + 1) (Nat.succ_lt_succ lt) input' at'
    · rw [refused]
      constructor
      · intro stopped
        cases stopped
        obtain ⟨-, sized, named, overflows⟩ := addInput_eq_overflow.1 refused
        refine ⟨0, rfl, congrArg some ?_, named, overflows, fun j lt => absurd lt (Nat.not_lt_zero j)⟩
        exact sized ▸ rfl
      · rintro ⟨i, same, at_, named, overflows, earlier⟩
        cases i with
        | zero =>
          obtain rfl : place = position := same
          obtain rfl := Option.some.inj at_
          have stopped := (addInput_eq_overflow (b := b)).2 ⟨rfl, rfl, named, overflows⟩
          cases refused.symm.trans stopped
          rfl
        | succ i => exact absurd (earlier 0 (Nat.zero_lt_succ i) input rfl) unready

end Builder

end

/-! ## Traces -/

namespace Graph

section

variable {t : Trace} {s : BuildSettings} {position : Nat} {sizes : Shape}

/-- The build stops where it does not get past the inputs. -/
theorem ofTrace_eq_error {e : Error} (enough : s.numInputs ≤ t.inputs.length)
    (stopped : Builder.addInputs s {} 0 t.inputs = .error e) : ofTrace t s = .error e := by
  rw [ofTrace, ofTraceUnmeasured_eq, if_neg (Nat.not_lt.2 enough), stopped]
  rfl

/-- The build is refused for the overflow of an input exactly if it comes to it. -/
theorem ofTrace_eq_overflow : ofTrace t s = .error (.shapeResolution position (.overflow sizes)) ↔
    t.ComesTo s position sizes ∧ sizes.Overflows := by
  constructor
  · intro refused
    have empty : ({} : Builder).Knows [] := fun v => by simp
    by_cases few : t.inputs.length < s.numInputs
    · rw [ofTrace, ofTraceUnmeasured_eq, if_pos few] at refused
      cases refused
    have enough := Nat.le_of_not_lt few
    rcases Builder.addInputs_cases s t.inputs {} 0 [] empty with ⟨all, -⟩ | ⟨-, _, _, stopped⟩
    · have ready : t.InputsReady s :=
        ⟨enough, fun i input at_ => by simpa using all i input at_⟩
      rcases (ofTrace_agree ready).ends with ⟨_, _, built, -⟩ | ⟨_, _, stopped, -, _, _, _, rfl, -⟩
      · cases refused.symm.trans built
      · cases refused.symm.trans stopped
    · cases refused.symm.trans (ofTrace_eq_error enough stopped)
      obtain ⟨_, same, at_, named, overflows, earlier⟩ := Builder.addInputs_eq_overflow.1 stopped
      obtain rfl := same.trans (Nat.zero_add _)
      exact ⟨⟨enough, at_, named, fun j lt input at' => by simpa using earlier j lt input at'⟩,
        overflows⟩
  · rintro ⟨⟨enough, at_, named, earlier⟩, overflows⟩
    refine ofTrace_eq_error enough (Builder.addInputs_eq_overflow.2
      ⟨position, (Nat.zero_add _).symm, at_, named, overflows, fun j lt input at' => ?_⟩)
    simpa using earlier j lt input at'

/-- The node of an input whose sizes are known carries them, and the product of them as its cost. -/
theorem ofTrace_input {g : Graph} (built : ofTrace t s = .ok g)
    (at_ : t.inputs[position]? = some ⟨some sizes⟩) : ¬ sizes.Overflows ∧
      ∃ n, g.nodeAt? position = some n ∧ n.shapes = [sizes] ∧ n.weight = .elements sizes.prod := by
  obtain ⟨n, found, described⟩ := (ofTrace_laidOut built).input position _ at_
  unfold TraceInput.description? at described
  split at described
  next sizes' kind scope sized labelled =>
    cases sized
    obtain ⟨count, counted, same⟩ := Option.map_eq_some_iff.1 described
    rw [Shape.elements?_eq, Option.ite_none_left_eq_some] at counted
    obtain ⟨fits, product⟩ := counted
    simp only [Node.description, Prod.mk.injEq] at same
    obtain ⟨-, -, shapes, cost⟩ := same
    refine ⟨fits, n, found, shapes.symm, ?_⟩
    rw [← cost, Option.some.inj product]
  next => cases described

end

/-- An input is refused for an overflow exactly if the build comes to it and the product of its sizes
before the first zero is no word. The node of any other one carries the product of all its sizes,
and nothing else keeps a well-scoped trace from being built where the inputs after it are ready.
A product that is no word is always refused, and where no size is zero, one that is a word never
is, in whatever order the sizes stand. -/
theorem ofTrace_elements (t : Trace) (s : BuildSettings) (position : Nat) (sizes : Shape) :
    (ofTrace t s = .error (.shapeResolution position (.overflow sizes)) ↔
      t.ComesTo s position sizes ∧ sizes.Overflows) ∧
    (∀ g, ofTrace t s = .ok g → t.inputs[position]? = some ⟨some sizes⟩ → ¬ sizes.Overflows ∧
      ∃ n, g.nodeAt? position = some n ∧ n.shapes = [sizes] ∧ n.weight = .elements sizes.prod) ∧
    (t.ComesTo s position sizes → t.validate = .ok () →
      (∀ i input, position < i → t.inputs[i]? = some input → TraceInput.Ready s i input) →
        ((∃ g, ofTrace t s = .ok g) ↔ ¬ sizes.Overflows)) ∧
    (Word.limit ≤ sizes.prod → sizes.Overflows) ∧
    (0 ∉ sizes → ∀ sizes' : Shape, sizes'.Perm sizes →
      (sizes'.Overflows ↔ Word.limit ≤ sizes.prod)) := by
  refine ⟨ofTrace_eq_overflow, fun g built at_ => ofTrace_input built at_,
    fun comes valid later => ⟨fun ⟨g, built⟩ => (ofTrace_input built comes.sized).1, fun fits => ?_⟩,
    fun large => ?_, fun nonzero sizes' perm => ?_⟩
  · refine (ofTrace_scoped t s).2.1.2 ⟨⟨comes.enough, fun i input at_ => ?_⟩, valid⟩
    rcases Nat.lt_trichotomy i position with lt | rfl | gt
    · exact comes.earlier i lt input at_
    · cases comes.sized.symm.trans at_
      exact TraceInput.ready_iff.2 ⟨⟨sizes, rfl, fits⟩, comes.named⟩
    · exact later i input gt at_
  · refine (Shape.overflows_iff fun zero => ?_).2 large
    rw [List.prod_eq_zero zero] at large
    exact absurd large (by decide)
  · rw [Shape.overflows_iff fun zero => nonzero (perm.mem_iff.1 zero), perm.prod_eq]

/-- A trace of one input. -/
def sizedTrace (sizes : Shape) : Trace where
  inputs := [⟨some sizes⟩]

/-- Nothing comes before the one input of such a trace, so its build gets to the sizes. -/
theorem sizedTrace_comesTo (sizes : Shape) : (sizedTrace sizes).ComesTo { numInputs := 1 } 0 sizes where
  enough := Nat.le_refl 1
  sized := rfl
  named more := absurd more (by decide)
  earlier i lt := absurd lt (Nat.not_lt_zero i)

/-- The number of elements of two shapes is zero, but only one of them has a graph: the zero comes
after an overflow in one, and before it in the other. -/
theorem sizedTrace_zeros :
    [2 ^ 32, 2 ^ 32, 0].prod < Word.limit ∧ [2 ^ 32, 2 ^ 32, 0].Perm [0, 2 ^ 32, 2 ^ 32] ∧
    ofTrace (sizedTrace [2 ^ 32, 2 ^ 32, 0]) { numInputs := 1 } =
      .error (.shapeResolution 0 (.overflow [2 ^ 32, 2 ^ 32, 0])) ∧
    ∃ g n, ofTrace (sizedTrace [0, 2 ^ 32, 2 ^ 32]) { numInputs := 1 } = .ok g ∧
      g.nodeAt? 0 = some n ∧ n.weight = .elements 0 := by
  refine ⟨by decide, by decide, rfl, ?_⟩
  obtain ⟨g, built⟩ : ∃ g, ofTrace (sizedTrace [0, 2 ^ 32, 2 ^ 32]) { numInputs := 1 } = .ok g :=
    ⟨_, rfl⟩
  have first : (sizedTrace [0, 2 ^ 32, 2 ^ 32]).inputs[0]? = some ⟨some [0, 2 ^ 32, 2 ^ 32]⟩ := rfl
  obtain ⟨-, n, found, -, cost⟩ := ofTrace_input built first
  exact ⟨g, n, built, found, cost⟩

/-- A product that is the largest word has a graph, and it does not matter where the sizes stand. -/
theorem sizedTrace_built :
    (∃ g n, ofTrace (sizedTrace [2 ^ 32 + 1, 1, 2 ^ 32 - 1]) { numInputs := 1 } = .ok g ∧
      g.nodeAt? 0 = some n ∧ n.weight = .elements (2 ^ 64 - 1)) ∧
    Shape.Overflows [2, 2 ^ 40, 2 ^ 40] := by
  have perm : [2, 2 ^ 40, 2 ^ 40].Perm [2 ^ 40, 2 ^ 40, 2] := by decide
  obtain ⟨-, carried, built, -⟩ :=
    ofTrace_elements (sizedTrace [2 ^ 32 + 1, 1, 2 ^ 32 - 1]) { numInputs := 1 } 0 _
  obtain ⟨-, -, -, -, ordered⟩ :=
    ofTrace_elements (sizedTrace [2 ^ 40, 2 ^ 40, 2]) { numInputs := 1 } 0 [2 ^ 40, 2 ^ 40, 2]
  refine ⟨?_, (ordered (by decide) _ perm).2 (by decide)⟩
  have later (i : Nat) (input : TraceInput) (lt : 0 < i)
      (at_ : (sizedTrace [2 ^ 32 + 1, 1, 2 ^ 32 - 1]).inputs[i]? = some input) :
      TraceInput.Ready { numInputs := 1 } i input := by
    rw [List.getElem?_eq_none lt] at at_
    cases at_
  obtain ⟨g, built⟩ := (built (sizedTrace_comesTo _) rfl later).2 (by decide)
  obtain ⟨-, n, found, -, cost⟩ := carried g built rfl
  exact ⟨g, n, built, found, cost⟩

end Graph

end StagePlan
