import Mathlib.Algebra.Order.BigOperators.Group.List
import Mathlib.Algebra.Order.Group.Nat
import StagePlan.Proofs.Sequential.Components
import StagePlan.Proofs.Sequential.InUse

/-!
# The anchor of a part

One component outranks another if it is heavier or, where both weigh the same, precedes it. The anchor
outranks all other components of its part (`anchor_outranks`), and goes on to do so when it takes up
more nodes (`Outranks.mono`). No two components outrank each other (`Outranks.asymm`).
-/

namespace StagePlan.Sequential

/-- The first list is heavier or, where both weigh the same, precedes the second. -/
def Outranks (weight : Nat → Nat) (c d : List Nat) : Prop :=
  (d.map weight).sum < (c.map weight).sum ∨
    (d.map weight).sum = (c.map weight).sum ∧ Precedes c d

section

variable {weight : Nat → Nat} {b c d : List Nat} {cs : List (List Nat)}

/-! ## Ranks -/

/-- No two components outrank each other. -/
theorem Outranks.asymm (above : Outranks weight c d) : ¬ Outranks weight d c := by
  rintro (heavier | ⟨same, before⟩) <;> rcases above with heavier' | ⟨same', before'⟩
  · omega
  · omega
  · omega
  · exact before'.asymm before

/-- So none outranks itself. -/
theorem Outranks.ne (above : Outranks weight c d) : c ≠ d := by
  rintro rfl
  exact above.asymm above

/-- More nodes weigh no less. -/
theorem sum_weights_le (distinct : c.Nodup) (sub : c ⊆ b) :
    (c.map weight).sum ≤ (b.map weight).sum := by
  obtain ⟨c', perm, part⟩ := List.subperm_of_subset distinct sub
  calc (c.map weight).sum = (c'.map weight).sum := (perm.map weight).sum_nat.symm
    _ ≤ (b.map weight).sum := (part.map weight).sum_le_sum fun _ _ => Nat.zero_le _

/-- A component still outranks another one once it has taken up more nodes. -/
theorem Outranks.mono (distinct : c.Nodup) (sub : c ⊆ b) (above : Outranks weight c d) :
    Outranks weight b d := by
  have le : (c.map weight).sum ≤ (b.map weight).sum := sum_weights_le distinct sub
  rcases above with heavier | ⟨same, u, hu, least⟩
  · exact .inl (Nat.lt_of_lt_of_le heavier le)
  · rcases Nat.lt_or_eq_of_le le with heavier | same'
    · exact .inl (same ▸ heavier)
    · exact .inr ⟨same.trans same', u, sub hu, least⟩

/-! ## The anchor -/

/-- The anchor outranks all other components. -/
theorem anchor_outranks (weight : Nat → Nat) (ordered : cs.Pairwise Precedes)
    (lt : anchor weight cs < cs.length) :
    ∀ d ∈ cs.eraseIdx (anchor weight cs), Outranks weight cs[anchor weight cs] d := by
  intro d other
  obtain ⟨j, lt', different, rfl⟩ := List.mem_eraseIdx_iff_getElem.1 other
  have some_ : cs ≠ [] := List.ne_nil_of_length_pos (Nat.zero_lt_of_lt lt)
  obtain ⟨listed, greatest⟩ := List.max?_eq_some_iff.1 (max?_weights weight some_)
  have heaviest : (cs[anchor weight cs].map weight).sum
      = (cs.map fun c => (c.map weight).sum).foldl max 0 := by
    have found := List.getElem_idxOf (List.idxOf_lt_length_of_mem listed)
    rwa [List.getElem_map] at found
  have le : (cs[j].map weight).sum ≤ (cs[anchor weight cs].map weight).sum :=
    heaviest ▸ greatest _ (List.mem_map_of_mem (List.getElem_mem lt'))
  rcases Nat.lt_or_eq_of_le le with lighter | same
  · exact .inl lighter
  · refine .inr ⟨same, List.pairwise_iff_getElem.1 ordered _ j lt lt' ?_⟩
    -- the anchor is the first of those that weigh as much as it does
    have notBefore : ¬ j < anchor weight cs := fun before => by
      rw [anchor_eq] at before
      have passed := List.not_of_lt_findIdx before
      simp [same, heaviest] at passed
    omega

end

end StagePlan.Sequential
