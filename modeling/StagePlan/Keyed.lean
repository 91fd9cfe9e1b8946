/-!
# Lists with ascending keys

Sets of handles and of profiles are kept as lists whose entries ascend by a key, without two entries of
one key. `Keyed.place` puts an entry into such a list and keeps it so (`place_ascending`). The list has
the new entry then, and of the others those with another key.
-/

namespace StagePlan.Keyed

variable {α κ : Type} [LT κ] [DecidableLT κ] [DecidableEq κ] {key : α → κ} {entry a : α} {as : List α}

/-- Puts an entry at its place in a list with ascending keys, in the stead of one with the same key. -/
def place (key : α → κ) (entry : α) : List α → List α
  | [] => [entry]
  | a :: as =>
    if key entry < key a then entry :: a :: as
    else if key entry = key a then entry :: as
    else a :: place key entry as

/-- Only the entry that is placed is new. -/
theorem mem_of_mem_place (member : a ∈ place key entry as) : a = entry ∨ a ∈ as := by
  induction as with
  | nil => exact .inl (List.mem_singleton.1 member)
  | cons b bs ih =>
    unfold place at member
    split at member
    next before => exact List.mem_cons.1 member
    next notBefore =>
      split at member
      next same => exact (List.mem_cons.1 member).imp_right (List.mem_cons_of_mem b)
      next other =>
        rcases List.mem_cons.1 member with rfl | later
        · exact .inr List.mem_cons_self
        · exact (ih later).imp_right (List.mem_cons_of_mem b)

/-- The entry is placed. -/
theorem mem_place_self : entry ∈ place key entry as := by
  induction as with
  | nil => exact List.mem_cons_self
  | cons b bs ih =>
    unfold place
    split
    next before => exact List.mem_cons_self
    next notBefore =>
      split
      next same => exact List.mem_cons_self
      next other => exact List.mem_cons_of_mem b ih

/-- Entries with another key stay. -/
theorem mem_place_of_ne (member : a ∈ as) (different : key a ≠ key entry) :
    a ∈ place key entry as := by
  induction as with
  | nil => cases member
  | cons b bs ih =>
    unfold place
    split
    next before => exact List.mem_cons_of_mem entry member
    next notBefore =>
      split
      next same =>
        rcases List.mem_cons.1 member with rfl | later
        · exact absurd same.symm different
        · exact List.mem_cons_of_mem entry later
      next other =>
        rcases List.mem_cons.1 member with rfl | later
        · exact List.mem_cons_self
        · exact List.mem_cons_of_mem b (ih later)

/-- The keys ascend still. -/
theorem place_ascending [Trans ((· < ·) : κ → κ → Prop) (· < ·) (· < ·)]
    [Std.Trichotomous ((· < ·) : κ → κ → Prop)] (ascending : as.Pairwise (key · < key ·)) :
    (place key entry as).Pairwise (key · < key ·) := by
  induction as with
  | nil => exact List.pairwise_singleton _ _
  | cons b bs ih =>
    obtain ⟨first, rest⟩ := List.pairwise_cons.1 ascending
    unfold place
    split
    next before =>
      refine List.pairwise_cons.2 ⟨fun c member => ?_, ascending⟩
      rcases List.mem_cons.1 member with rfl | later
      · exact before
      · exact Std.lt_trans before (first c later)
    next notBefore =>
      split
      next same => exact List.pairwise_cons.2 ⟨fun c later => same ▸ first c later, rest⟩
      next other =>
        refine List.pairwise_cons.2 ⟨fun c member => ?_, ih rest⟩
        rcases mem_of_mem_place member with rfl | later
        · rcases Std.lt_trichotomy (key c) (key b) with before | same | after
          · exact absurd before notBefore
          · exact absurd same other
          · exact after
        · exact first c later

end StagePlan.Keyed
