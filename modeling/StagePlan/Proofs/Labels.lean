import StagePlan.Proofs.Layers

/-!
# Labels of raw ops

An op that no layer encloses is labelled with its scope, its kind and its position. The position
follows the kind without a mark in between, so a label can be read in several ways: where the kind
of an op ends in digits, these may be the first ones of a later position (`TraceOp.Overlaps`).
`rawLabel_eq_iff` says that this is the only way in which labels coincide. So a raw op has a label
that no later one has unless its kind ends in a digit (`Graph.ofTrace_rawLabels`). In
`Graph.logTrace` two ops have the same label.
-/

namespace StagePlan

/-- The kind of an op ends in digits that are the first ones of a later position, and without these
digits its scope and kind read as those of the later op. -/
def TraceOp.Overlaps (op : TraceOp) (position : Nat) (op' : TraceOp) (position' : Nat) : Prop :=
  ∃ kind digits, op.kind = kind ++ digits ∧
    op.scope ++ "/" ++ kind = op'.scope ++ "/" ++ op'.kind ∧
      toString position' = digits ++ toString position

section

variable {op op' : TraceOp} {position position' : Nat}

/-- A position is written with its digits. -/
theorem toList_position (position : Nat) :
    (toString position).toList = Decimal.digits position := by
  rw [Nat.toString_eq_repr, Nat.toList_repr, Decimal.digits]

/-- The label of a raw op ends with the digits of its position. -/
theorem toList_rawLabel (op : TraceOp) (position : Nat) : (op.rawLabel position).toList =
    (op.scope ++ "/").toList ++ op.kind.toList ++ Decimal.digits position := by
  rw [TraceOp.rawLabel, String.toList_append, String.toList_append, toList_position]

/-- What is read with further digits in front is not smaller. -/
theorem le_of_digits_eq {ds : List Char}
    (same : Decimal.digits position' = ds ++ Decimal.digits position) : position ≤ position' := by
  have value := congrArg Decimal.ofDigits same
  unfold Decimal.ofDigits Decimal.digits at value
  rw [Nat.ofDigitChars_append,
    Nat.ofDigitChars_eq_ofDigitChars_zero (l := Nat.toDigits 10 position),
    Nat.ofDigitChars_ten_toDigits, Nat.ofDigitChars_ten_toDigits] at value
  rw [value]
  exact Nat.le_add_left _ _

/-- Digits at the end of a scope and a kind belong to the kind. -/
theorem exists_kind {scope kind stem : String} {ds : List Char}
    (digits : ∀ c ∈ ds, c.isDigit = true)
    (same : (scope ++ "/").toList ++ kind.toList = stem.toList ++ ds) :
    ∃ front, kind = front ++ String.ofList ds ∧ scope ++ "/" ++ front = stem := by
  rcases List.append_eq_append_iff.1 same with ⟨front, stem_, kind_⟩ | ⟨rest, scope_, ds_⟩
  · refine ⟨String.ofList front, ?_, ?_⟩ <;> apply String.toList_injective
    · simpa using kind_
    · simpa using stem_.symm
  rcases List.eq_nil_or_concat rest with rfl | ⟨front, last, rfl⟩
  · refine ⟨"", ?_, ?_⟩ <;> apply String.toList_injective
    · simpa using ds_.symm
    · simpa using scope_
  · -- the mark after the scope is no digit
    rw [List.concat_eq_append, ← List.append_assoc, String.toList_append] at scope_
    have mark : '/' = last := List.singleton_inj.1 (List.append_inj' scope_ rfl).2
    have digit := digits last (by simp [ds_])
    rw [← mark] at digit
    cases digit

/-- Labels coincide only where the kind of the earlier op overlaps the later position. -/
theorem rawLabel_eq_iff (lt : position < position') :
    op.rawLabel position = op'.rawLabel position' ↔ op.Overlaps position op' position' := by
  refine ⟨fun same => ?_, ?_⟩
  · have lists := congrArg String.toList same
    rw [toList_rawLabel, toList_rawLabel] at lists
    rcases List.append_eq_append_iff.1 lists with ⟨ds, -, earlier⟩ | ⟨ds, stems, later⟩
    · exact absurd (le_of_digits_eq earlier) (Nat.not_le.2 lt)
    · have digits : ∀ c ∈ ds, c.isDigit = true := fun c member => by
        have digit : c ∈ Decimal.digits position' := later ▸ List.mem_append_left _ member
        exact Nat.isDigit_of_mem_toDigits (by decide) (by decide) digit
      rw [← String.toList_append (s := op'.scope ++ "/")] at stems
      obtain ⟨kind, kinds, stem⟩ := exists_kind digits stems
      refine ⟨kind, String.ofList ds, kinds, stem, String.toList_injective ?_⟩
      rw [String.toList_append, String.toList_ofList, toList_position, toList_position, later]
  · rintro ⟨kind, digits, kinds, stems, positions⟩
    rw [TraceOp.rawLabel, TraceOp.rawLabel, kinds, positions, ← stems]
    simp only [String.append_assoc]

/-- A kind that overlaps a later position ends in a digit. -/
theorem TraceOp.Overlaps.exists_digit (overlaps : op.Overlaps position op' position')
    (lt : position < position') : ∃ c ∈ op.kind.toList.getLast?, c.isDigit = true := by
  obtain ⟨kind, digits, kinds, -, positions⟩ := overlaps
  have later := congrArg String.toList positions
  rw [String.toList_append, toList_position, toList_position] at later
  rcases List.eq_nil_or_concat digits.toList with none_ | ⟨front, last, some_⟩
  · rw [none_] at later
    have same : Decimal.digits position = [] ++ Decimal.digits position' := later.symm
    exact absurd (le_of_digits_eq same) (Nat.not_le.2 lt)
  · have digit : last ∈ Decimal.digits position' := by simp [later, some_]
    exact ⟨last, by simp [kinds, some_], Nat.isDigit_of_mem_toDigits (by decide) (by decide) digit⟩

end

namespace Graph

variable {g : Graph} {t : Trace} {s : BuildSettings}

/-- A node is the primary one of the op at a position, which no layer encloses. -/
structure RawAt (g : Graph) (t : Trace) (position : Nat) (op : TraceOp) (n : Node) : Prop where
  primary : ∃ place, t.OpAt position op place ∧ g.nodeAt? place = some n
  raw : n.kind = .rawOp

/-- An op that no layer encloses is a raw op. -/
theorem exists_rawAt (built : ofTrace t s = .ok g) {position place : Nat} {op : TraceOp}
    (at_ : t.OpAt position op place)
    (none_ : ∀ layer ∈ s.profiledLayers, ¬ Encloses layer op.scope) : ∃ n, g.RawAt t position op n := by
  obtain ⟨n, found, layer | raw⟩ := exists_labelled built at_ op.nodeCount_pos
  · have longest := (layer.2 _).2 rfl
    exact absurd longest.encloses (none_ _ longest.declared)
  · exact ⟨n, ⟨place, at_, found⟩, raw.1⟩

/-- A raw op is labelled with its scope, its kind and its position. -/
theorem RawAt.scope {position : Nat} {op : TraceOp} {n : Node} (at_ : g.RawAt t position op n)
    (built : ofTrace t s = .ok g) : n.scope = op.rawLabel position := by
  obtain ⟨place, placed, found⟩ := at_.primary
  obtain ⟨m, found', layer | raw⟩ := exists_labelled built placed op.nodeCount_pos
  all_goals obtain rfl := Option.some.inj (found.symm.trans found')
  · cases layer.1.symm.trans at_.raw
  · exact raw.2.1

/-- Two raw ops have the same label exactly if the kind of the earlier one overlaps the position of
the later one. So a raw op whose kind does not end in a digit has a label that no later raw op has. -/
theorem ofTrace_rawLabels (built : ofTrace t s = .ok g) {position position' : Nat}
    {op op' : TraceOp} {n n' : Node} (at_ : g.RawAt t position op n)
    (at' : g.RawAt t position' op' n') (lt : position < position') :
    (n.scope = n'.scope ↔ op.Overlaps position op' position') ∧
      ((∀ c ∈ op.kind.toList.getLast?, c.isDigit = false) → n.scope ≠ n'.scope) := by
  have labels : n.scope = n'.scope ↔ op.Overlaps position op' position' := by
    rw [at_.scope built, at'.scope built, rawLabel_eq_iff lt]
  refine ⟨labels, fun plain same => ?_⟩
  obtain ⟨c, last, digit⟩ := (labels.1 same).exists_digit lt
  rw [plain c last] at digit
  cases digit

/-- A trace of a chain of ops, the first of which is a logarithm to base two and the last a natural
one. -/
def logTrace : Trace where
  inputs := [⟨some [4]⟩]
  ops := ⟨[0], [1], "net", "aten::log2", ""⟩ ::
    (List.range 19).map (fun i => ⟨[i + 1], [i + 2], "net", "aten::relu", ""⟩) ++
      [⟨[20], [21], "net", "aten::log", ""⟩]
  outputs := [21]

/-- The first and the last op of the chain have the same label. -/
theorem logTrace_labels : ∃ g n n', ofTrace logTrace { numInputs := 1 } = .ok g ∧
    g.RawAt logTrace 0 ⟨[0], [1], "net", "aten::log2", ""⟩ n ∧
      g.RawAt logTrace 20 ⟨[20], [21], "net", "aten::log", ""⟩ n' ∧
        n.scope = "net/aten::log20" ∧ n'.scope = "net/aten::log20" := by
  obtain ⟨g, built⟩ : ∃ g, ofTrace logTrace { numInputs := 1 } = .ok g := ⟨_, rfl⟩
  obtain ⟨n, first⟩ := exists_rawAt built (⟨rfl, rfl⟩ : logTrace.OpAt 0 _ 1) nofun
  obtain ⟨n', last⟩ := exists_rawAt built (⟨rfl, rfl⟩ : logTrace.OpAt 20 _ 21) nofun
  exact ⟨g, n, n', built, first, last, first.scope built, last.scope built⟩

/-- The second op of the chain has a label that the last one does not have, since its kind does not
end in a digit. -/
theorem logTrace_distinct : ∃ g n n', ofTrace logTrace { numInputs := 1 } = .ok g ∧
    g.RawAt logTrace 1 ⟨[1], [2], "net", "aten::relu", ""⟩ n ∧
      g.RawAt logTrace 20 ⟨[20], [21], "net", "aten::log", ""⟩ n' ∧ n.scope ≠ n'.scope := by
  obtain ⟨g, built⟩ : ∃ g, ofTrace logTrace { numInputs := 1 } = .ok g := ⟨_, rfl⟩
  obtain ⟨n, second⟩ := exists_rawAt built (⟨rfl, rfl⟩ : logTrace.OpAt 1 _ 2) nofun
  obtain ⟨n', last⟩ := exists_rawAt built (⟨rfl, rfl⟩ : logTrace.OpAt 20 _ 21) nofun
  have plain : ∀ c ∈ "aten::relu".toList.getLast?, c.isDigit = false := by
    intro c ending
    cases (show some 'u' = some c from ending)
    rfl
  exact ⟨g, n, n', built, second, last,
    (ofTrace_rawLabels built second last (by decide)).2 plain⟩

end Graph

end StagePlan
