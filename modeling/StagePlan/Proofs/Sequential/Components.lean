import Mathlib.Data.List.Pairwise
import Mathlib.Data.List.Permutation
import Mathlib.Data.List.Sort
import StagePlan.Proofs.Sequential.Pieces

/-!
# The components of a part

What it is to list the connected components of a part (`ListsComponents`) is stated apart from the
search that finds them: each of them once, in ascending order, and one before another whose first
member is larger. The members of such a list are the pieces of the part (`ListsComponents.mem_iff`), so
there is one only (`ListsComponents.unique`), and `components` is that one (`components_exact`), however
many more rounds the search for each of them may go on.
-/

namespace StagePlan.Sequential

/-- The first list has a number below all those of the second. -/
def Precedes (c d : List Nat) : Prop := ∃ u ∈ c, ∀ v ∈ d, u < v

/-- A list holds the connected components of a part, and each of them once. -/
structure ListsComponents (next : Nat → List Nat) (parts : Array Nat) (part : Nat)
    (cs : List (List Nat)) : Prop where
  filled : ∀ c ∈ cs, c ≠ []
  ascending : ∀ c ∈ cs, c.Pairwise (· < ·)
  /-- No two of them have a common member. -/
  apart : cs.Pairwise fun c d => ∀ v ∈ c, v ∉ d
  /-- The members are the nodes of the part. -/
  cover : ∀ v, (∃ c ∈ cs, v ∈ c) ↔ parts[v]? = some part
  /-- They stand in the order of their first members. -/
  ordered : cs.Pairwise fun c d => ∀ u ∈ c.head?, ∀ v ∈ d.head?, u < v
  /-- Nodes are in the same one if a path within the part joins them. -/
  joined : ∀ u v, parts[u]? = some part → parts[v]? = some part →
    ((∃ c ∈ cs, u ∈ c ∧ v ∈ c) ↔ Joined next parts part u v)

section

variable {next : Nat → List Nat} {parts : Array Nat} {part n v : Nat} {c d : List Nat}
  {cs cs' : List (List Nat)}

/-! ## First members -/

/-- No two lists precede each other. -/
theorem Precedes.asymm (before : Precedes c d) : ¬ Precedes d c := by
  rintro ⟨v, hv, least⟩
  obtain ⟨u, hu, least'⟩ := before
  exact Nat.lt_asymm (least u hu) (least' v hv)

/-- An ascending list precedes another one if its first member is smaller. -/
theorem precedes_iff (filled : c ≠ []) (ascending : c.Pairwise (· < ·))
    (ascending' : d.Pairwise (· < ·)) :
    Precedes c d ↔ ∀ u ∈ c.head?, ∀ v ∈ d.head?, u < v := by
  obtain ⟨u, c, rfl⟩ := List.exists_cons_of_ne_nil filled
  have least : ∀ w ∈ u :: c, u ≤ w := List.forall_mem_cons.2
    ⟨Nat.le_refl u, fun w hw => Nat.le_of_lt (List.rel_of_pairwise_cons ascending hw)⟩
  constructor
  · rintro ⟨w, hw, below⟩ u' first v first'
    obtain rfl : u = u' := Option.some.inj first
    exact Nat.lt_of_le_of_lt (least w hw) (below v (List.mem_of_mem_head? first'))
  · intro first
    refine ⟨u, List.mem_cons_self, fun w hw => ?_⟩
    cases d with
    | nil => cases hw
    | cons v d =>
      have lt : u < v := first u rfl v rfl
      rcases List.mem_cons.1 hw with rfl | hw
      · exact lt
      · exact Nat.lt_trans lt (List.rel_of_pairwise_cons ascending' hw)

/-- The components found from ascending nodes, which are all that were not met of a part, stand in the
order of their first members. -/
theorem componentsFrom_ordered (next : Nat → List Nat) (parts : Array Nat) (part : Nat) :
    ∀ (vs seen : List Nat), vs.Pairwise (· < ·) → (∀ v ∈ vs, parts[v]? = some part) →
      (∀ v, parts[v]? = some part → v ∈ seen ∨ v ∈ vs) →
        (componentsFrom next parts part seen vs).Pairwise Precedes
  | [], _, _, _, _ => .nil
  | v :: vs, seen, ascending, inPart, all => by
    obtain ⟨least, ascending'⟩ := List.pairwise_cons.1 ascending
    have inPart' := fun u hu => inPart u (List.mem_cons_of_mem v hu)
    have all' {met : List Nat} (grown : seen ⊆ met) (found : v ∈ met) :
        ∀ u, parts[u]? = some part → u ∈ met ∨ u ∈ vs := by
      intro u here
      rcases all u here with hu | hu
      · exact .inl (grown hu)
      · rcases List.mem_cons.1 hu with rfl | hu
        · exact .inl found
        · exact .inr hu
    by_cases old : v ∈ seen
    · rw [componentsFrom, if_pos old]
      exact componentsFrom_ordered next parts part vs seen ascending' inPart'
        (all' (List.Subset.refl seen) old)
    · obtain ⟨new, search, added, split⟩ :=
        componentsFrom_cons next vs (inPart v List.mem_cons_self) old
      have met : v ∈ search.seen := added.roots v (List.mem_singleton_self v)
      have first : v ∈ new.mergeSort :=
        List.mem_mergeSort.2 (((added.seen v).1 met).resolve_right old)
      obtain ⟨-, -, inside, fresh, -⟩ := componentsFrom_apart next parts part vs search.seen inPart'
      have unmet := all' added.grown met
      rw [split]
      refine List.pairwise_cons.2 ⟨fun d hd => ⟨v, first, fun u hu => ?_⟩,
        componentsFrom_ordered next parts part vs search.seen ascending' inPart' unmet⟩
      exact least u ((unmet u (inside d hd u hu)).resolve_left (fresh d hd u hu))

/-- The components of a part stand in the order of their first members. -/
theorem components_ordered (next : Nat → List Nat) (parts : Array Nat) (part : Nat) :
    (components next parts part).Pairwise Precedes :=
  componentsFrom_ordered next parts part _ [] (List.pairwise_lt_range.filter _)
    (fun _ => mem_membersOf.1) fun _ here => .inr (mem_membersOf.2 here)

/-! ## Pieces -/

/-- A piece holds what its members are joined with. -/
theorem IsPiece.mem_of_joined (piece : IsPiece next parts part c) (inC : v ∈ c) {u : Nat}
    (path : Joined next parts part v u) : u ∈ c := by
  induction path with
  | refl => exact inC
  | tail _ last ih => exact piece.closed _ ih _ last.1 last.2.2

/-- Two pieces with a common member are the same, if they are listed in ascending order. -/
theorem IsPiece.eq (piece : IsPiece next parts part c) (piece' : IsPiece next parts part d)
    (ascending : c.Pairwise (· < ·)) (ascending' : d.Pairwise (· < ·)) (inC : v ∈ c)
    (inD : v ∈ d) : c = d := by
  refine ascending.eq_of_mem_iff ascending' fun u => ⟨fun hu => ?_, fun hu => ?_⟩
  · exact piece'.mem_of_joined inD (piece.joined v inC u hu)
  · exact piece.mem_of_joined inC (piece'.joined v inD u hu)

/-- Components with a common member are the same. -/
theorem ListsComponents.eq (listed : ListsComponents next parts part cs) (hc : c ∈ cs) (hd : d ∈ cs)
    (inC : v ∈ c) (inD : v ∈ d) : c = d := by
  have symm : Std.Symm fun c d : List Nat => ∀ v ∈ c, v ∉ d :=
    ⟨fun _ _ apart v inD inC => apart v inC inD⟩
  exact Decidable.byContradiction fun other => listed.apart.forall hc hd other v inC inD

/-- A listed component is a piece of its part. -/
theorem ListsComponents.piece (listed : ListsComponents next parts part cs) (hc : c ∈ cs) :
    IsPiece next parts part c := by
  have inside (v : Nat) (inC : v ∈ c) : parts[v]? = some part := (listed.cover v).1 ⟨c, hc, inC⟩
  refine ⟨inside, fun v inC u hu here => ?_, fun u hu v hv => ?_⟩
  · have path : Joined next parts part v u := .single ⟨hu, inside v inC, here⟩
    obtain ⟨d, hd, inD, inD'⟩ := (listed.joined v u (inside v inC) here).2 path
    exact listed.eq hd hc inD inC ▸ inD'
  · exact (listed.joined u v (inside u hu) (inside v hv)).1 ⟨c, hc, hu, hv⟩

/-- The components of a part are its pieces, each listed in ascending order. -/
theorem ListsComponents.mem_iff (listed : ListsComponents next parts part cs) :
    c ∈ cs ↔ c ≠ [] ∧ c.Pairwise (· < ·) ∧ IsPiece next parts part c := by
  constructor
  · intro hc
    exact ⟨listed.filled c hc, listed.ascending c hc, listed.piece hc⟩
  · rintro ⟨filled, ascending, piece⟩
    obtain ⟨v, inC⟩ := List.exists_mem_of_ne_nil c filled
    obtain ⟨d, hd, inD⟩ := (listed.cover v).2 (piece.inside v inC)
    exact piece.eq (listed.piece hd) ascending (listed.ascending d hd) inC inD ▸ hd

/-- Listed components precede those after them. -/
theorem ListsComponents.precedes (listed : ListsComponents next parts part cs) :
    cs.Pairwise Precedes :=
  listed.ordered.imp_of_mem fun {c d} hc hd => (precedes_iff (listed.filled c hc)
    (listed.ascending c hc) (listed.ascending d hd)).2

/-- There is one list of the components. -/
theorem ListsComponents.unique (listed : ListsComponents next parts part cs)
    (listed' : ListsComponents next parts part cs') : cs = cs' := by
  have nodup {cs : List (List Nat)} (ordered : cs.Pairwise Precedes) : cs.Nodup := by
    refine ordered.imp ?_
    rintro c _ before rfl
    exact before.asymm before
  have perm : cs.Perm cs' := (List.perm_ext_iff_of_nodup (nodup listed.precedes)
    (nodup listed'.precedes)).2 fun c => listed.mem_iff.trans listed'.mem_iff.symm
  exact perm.eq_of_pairwise (fun c d _ _ before after => absurd after before.asymm) listed.precedes
    listed'.precedes

/-! ## The search -/

/-- The search lists the components. -/
theorem components_listed (undirected : Undirected next n) (parts : Array Nat) (part : Nat) :
    ListsComponents next parts part (components next parts part) := by
  obtain ⟨pieces, cover⟩ := components_pieces undirected parts part
  obtain ⟨filled, ascending, inside, -, apart⟩ := components_apart next parts part
  refine ⟨filled, ascending, apart, fun v => ⟨fun ⟨c, hc, inC⟩ => inside c hc v inC, cover v⟩, ?_,
    fun u v hu hv => ⟨fun ⟨c, hc, inC, inC'⟩ => (pieces.piece c hc).joined u inC v inC', ?_⟩⟩
  · exact (components_ordered next parts part).imp_of_mem fun {c d} hc hd =>
      (precedes_iff (filled c hc) (ascending c hc) (ascending d hd)).1
  · intro path
    obtain ⟨c, hc, inC⟩ := cover u hu
    exact ⟨c, hc, inC, (pieces.piece c hc).mem_of_joined inC path⟩

/-- The components that are found are the pieces, each listed in ascending order. -/
theorem mem_components (undirected : Undirected next n) :
    c ∈ components next parts part ↔
      c ≠ [] ∧ c.Pairwise (· < ·) ∧ IsPiece next parts part c :=
  (components_listed undirected parts part).mem_iff

end

/-- Whatever the undirected graph and the parts of its nodes, `components` is the one list that holds the
connected components of a part: none of them is empty, each of them is strictly ascending, no two
have a common member, their members are the nodes of the part, they stand in the order of their
first members, and two nodes are in the same one exactly if a path of neighbours within the part
joins them. The search for each of them comes to its end: it has the same result with any number of
rounds that is not below the number of nodes. -/
theorem components_exact {next : Nat → List Nat} {n : Nat} (undirected : Undirected next n)
    (parts : Array Nat) (part : Nat) :
    (∀ cs, components next parts part = cs ↔ ListsComponents next parts part cs) ∧
    ∀ old v rounds, parts[v]? = some part → v ∉ old → parts.size ≤ rounds →
      Search.sweep (insideNeighbours next parts part) rounds ⟨v :: old, []⟩ [v]
        = Search.sweep (insideNeighbours next parts part) parts.size ⟨v :: old, []⟩ [v] := by
  have listed := components_listed undirected parts part
  refine ⟨fun cs => ⟨fun same => same ▸ listed, listed.unique⟩, fun old v rounds here fresh le => ?_⟩
  have lt : v < parts.size := (Array.getElem?_eq_some_iff.1 here).1
  exact (Search.sweeping_start _ fresh).sweep_eq lt insideNeighbours_lt (Nat.le_refl _) le

/-- The neighbours of five nodes: two pairs, which only the last node joins. -/
def crossing (v : Nat) : List Nat := [[2], [3, 4], [0, 4], [1], [1, 2]].getD v []

/-- The pairs are two components of a part without the last node, and one of a part with it. -/
theorem crossing_components : Undirected crossing 5 ∧
    ListsComponents crossing #[0, 0, 0, 0, 1] 0 [[0, 2], [1, 3]] ∧
      ¬ Joined crossing #[0, 0, 0, 0, 1] 0 0 1 ∧ Joined crossing #[0, 0, 0, 0, 0] 0 0 1 := by
  have undirected : Undirected crossing 5 := by
    have small : ∀ v < 5, ∀ u ∈ crossing v, u < 5 ∧ v ∈ crossing u := by decide
    have inRange (v u : Nat) (hu : u ∈ crossing v) : v < 5 := by
      refine Decidable.byContradiction fun ge => ?_
      rw [crossing, List.getD_eq_getElem?_getD, List.getElem?_eq_none (Nat.le_of_not_lt ge)] at hu
      cases hu
    exact ⟨fun v u hu => (small v (inRange v u hu) u hu).1,
      fun v u hu => (small v (inRange v u hu) u hu).2⟩
  have apart : components crossing #[0, 0, 0, 0, 1] 0 = [[0, 2], [1, 3]] := by cbv
  have whole : components crossing #[0, 0, 0, 0, 0] 0 = [[0, 1, 2, 3, 4]] := by cbv
  have listed := ((components_exact undirected #[0, 0, 0, 0, 1] 0).1 _).1 apart
  have listed' := ((components_exact undirected #[0, 0, 0, 0, 0] 0).1 _).1 whole
  refine ⟨undirected, listed, fun path => ?_, (listed'.joined 0 1 rfl rfl).1 (by decide)⟩
  have together := (listed.joined 0 1 rfl rfl).2 path
  revert together
  decide

end StagePlan.Sequential
