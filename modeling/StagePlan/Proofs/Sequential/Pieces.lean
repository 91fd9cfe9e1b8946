import Mathlib.Data.List.Sort
import StagePlan.Partition.Sequential
import StagePlan.Proofs.Search

/-!
# Components and their moves

A component of a part is a piece (`IsPiece`): its members lie in the part and are joined there, and
no neighbour inside the part is missing. `components_pieces` proves that `components` lists such
pieces, that they share no node and that they hold every node of the part. `Moves` says what
happens to the parts when a piece moves to a neighbouring part, and `move_cases` that `move` does
just that, or nothing where the piece has no neighbour outside its part. The other pieces of the
part stay what they are (`Pieces.tail`), so all of them can move one after the other.
-/

open Relation

namespace StagePlan.Sequential

open Search (Leads Adds sweep_adds)

/-- Neighbours are nodes, and neighbours of each other. -/
structure Undirected (next : Nat → List Nat) (n : Nat) : Prop where
  lt : ∀ v, ∀ u ∈ next v, u < n
  symm : ∀ v, ∀ u ∈ next v, v ∈ next u

/-- Two nodes of a part are neighbours. -/
def Inside (next : Nat → List Nat) (parts : Array Nat) (part u v : Nat) : Prop :=
  v ∈ next u ∧ parts[u]? = some part ∧ parts[v]? = some part

/-- Two nodes are joined by a path of neighbours within a part. -/
abbrev Joined (next : Nat → List Nat) (parts : Array Nat) (part : Nat) : Nat → Nat → Prop :=
  ReflTransGen (Inside next parts part)

/-- A connected component of a part: its members lie in the part, have all their neighbours there
among them, and are joined. -/
structure IsPiece (next : Nat → List Nat) (parts : Array Nat) (part : Nat) (c : List Nat) :
    Prop where
  inside : ∀ v ∈ c, parts[v]? = some part
  closed : ∀ v ∈ c, ∀ u ∈ next v, parts[u]? = some part → u ∈ c
  joined : ∀ u ∈ c, ∀ v ∈ c, Joined next parts part u v

/-- Connected components of a part without common members. -/
structure Pieces (next : Nat → List Nat) (parts : Array Nat) (part : Nat) (cs : List (List Nat)) :
    Prop where
  piece : ∀ c ∈ cs, IsPiece next parts part c
  apart : cs.Pairwise fun c d => ∀ v ∈ c, v ∉ d

section

variable {next : Nat → List Nat} {parts : Array Nat} {part n : Nat}

/-- The inside neighbours are those in the part. -/
theorem mem_insideNeighbours {u v : Nat} :
    u ∈ insideNeighbours next parts part v ↔ u ∈ next v ∧ parts[u]? = some part := by
  simp [insideNeighbours]

/-- They have a part, so they are nodes. -/
theorem insideNeighbours_lt (v u : Nat) (hu : u ∈ insideNeighbours next parts part v) :
    u < parts.size := by
  have inPart := (mem_insideNeighbours.1 hu).2
  exact (Array.getElem?_eq_some_iff.1 inPart).1

/-- Neighbours inside a part are so both ways. -/
theorem Inside.symm (undirected : Undirected next n) {u v : Nat} (h : Inside next parts part u v) :
    Inside next parts part v u :=
  ⟨undirected.symm u v h.1, h.2.2, h.2.1⟩

/-- Paths within a part lead both ways. -/
theorem Joined.symm (undirected : Undirected next n) {u v : Nat} (h : Joined next parts part u v) :
    Joined next parts part v u := by
  induction h with
  | refl => exact .refl
  | tail _ last ih => exact .head (last.symm undirected) ih

/-- Following the neighbours inside a part from one of its nodes stays in the part. -/
theorem joined_of_leads {u v : Nat} (inPart : parts[u]? = some part)
    (path : ReflTransGen (Leads (insideNeighbours next parts part)) u v) :
    Joined next parts part u v ∧ parts[v]? = some part := by
  induction path with
  | refl => exact ⟨.refl, inPart⟩
  | tail _ last ih =>
    obtain ⟨neighbour, lands⟩ := mem_insideNeighbours.1 last
    exact ⟨ih.1.tail ⟨neighbour, ih.2, lands⟩, lands⟩

/-! ## Components are pieces -/

/-- What was met in a part is a union of pieces: it lies there and has all neighbours there. -/
structure Met (next : Nat → List Nat) (parts : Array Nat) (part : Nat) (seen : List Nat) :
    Prop where
  inside : ∀ v ∈ seen, parts[v]? = some part
  closed : ∀ v ∈ seen, ∀ u ∈ insideNeighbours next parts part v, u ∈ seen

/-- What a search of a part adds from a node that was not met is a piece. -/
theorem Adds.isPiece (undirected : Undirected next n) {s s' : Search} {v : Nat} {new : List Nat}
    (met : Met next parts part s.seen) (inPart : parts[v]? = some part)
    (h : Adds (insideNeighbours next parts part) s [v] new s') :
    IsPiece next parts part new := by
  have fromRoot : ∀ x ∈ new, Joined next parts part v x ∧ parts[x]? = some part := by
    intro x hx
    obtain ⟨r, hr, path⟩ := h.reached x hx
    rw [List.mem_singleton.1 hr] at path
    exact joined_of_leads inPart path
  refine ⟨fun x hx => (fromRoot x hx).2, fun x hx u hu inPart' => ?_, fun x hx y hy => ?_⟩
  · have neighbour := mem_insideNeighbours.2 ⟨hu, inPart'⟩
    refine ((h.seen u).1 (h.closed x hx u neighbour)).resolve_right fun old => ?_
    -- a neighbour met earlier would have met `x` as well
    exact h.fresh x hx (met.closed u old x
      (mem_insideNeighbours.2 ⟨undirected.symm x u hu, (fromRoot x hx).2⟩))
  · exact ((fromRoot x hx).1.symm undirected).trans (fromRoot y hy).1

/-- A search of a part that starts in it again meets whole pieces. -/
theorem Adds.met {s s' : Search} {v : Nat} {new : List Nat}
    (met : Met next parts part s.seen) (piece : IsPiece next parts part new)
    (h : Adds (insideNeighbours next parts part) s [v] new s') : Met next parts part s'.seen := by
  refine ⟨fun x hx => ?_, fun x hx u hu => ?_⟩
  · exact ((h.seen x).1 hx).elim (piece.inside x) (met.inside x)
  · rcases (h.seen x).1 hx with hx | hx
    · exact h.closed x hx u hu
    · exact h.grown (met.closed x hx u hu)

/-- The members of a list stay what they are when the list is sorted. -/
theorem IsPiece.of_perm {c d : List Nat} (piece : IsPiece next parts part c)
    (same : ∀ v, v ∈ d ↔ v ∈ c) : IsPiece next parts part d where
  inside v hv := piece.inside v ((same v).1 hv)
  closed v hv u hu inPart := (same u).2 (piece.closed v ((same v).1 hv) u hu inPart)
  joined u hu v hv := piece.joined u ((same u).1 hu) v ((same v).1 hv)

/-- Members of a component are joined by a path through its members. -/
theorem IsPiece.joined_through {c : List Nat} (piece : IsPiece next parts part c) {u v : Nat}
    (hu : u ∈ c) (hv : v ∈ c) : ReflTransGen (fun x y => y ∈ next x ∧ x ∈ c ∧ y ∈ c) u v := by
  have path : Joined next parts part u v := piece.joined u hu v hv
  clear hv
  have along : ReflTransGen (fun x y => y ∈ next x ∧ x ∈ c ∧ y ∈ c) u v ∧ v ∈ c := by
    induction path with
    | refl => exact ⟨.refl, hu⟩
    | @tail x y _ last ih =>
      obtain ⟨through, inC⟩ := ih
      have inC' : y ∈ c := piece.closed x inC y last.1 last.2.2
      exact ⟨through.tail ⟨last.1, inC, inC'⟩, inC'⟩
  exact along.1

/-- A piece is one still where its members have stayed and no neighbour has joined them. -/
theorem IsPiece.persists {c : List Nat} {moved : Array Nat} (piece : IsPiece next parts part c)
    (stay : ∀ v ∈ c, moved[v]? = some part)
    (closed : ∀ v ∈ c, ∀ u ∈ next v, moved[u]? = some part → u ∈ c) :
    IsPiece next moved part c where
  inside := stay
  closed := closed
  joined u hu v hv := ReflTransGen.mono (fun x y h => ⟨h.1, stay x h.2.1, stay y h.2.2⟩) u v
    (piece.joined_through hu hv)

/-- The component of a node that was not met comes first. It holds what a search of the part adds
from the node. -/
theorem componentsFrom_cons (next : Nat → List Nat) {v : Nat} {seen : List Nat} (vs : List Nat)
    (here : parts[v]? = some part) (fresh : v ∉ seen) : ∃ new s',
      Adds (insideNeighbours next parts part) ⟨seen, []⟩ [v] new s' ∧
        componentsFrom next parts part seen (v :: vs)
          = new.mergeSort :: componentsFrom next parts part s'.seen vs := by
  have lt : v < parts.size := (Array.getElem?_eq_some_iff.1 here).1
  refine ⟨_, _, sweep_adds insideNeighbours_lt lt fresh, ?_⟩
  rw [componentsFrom, if_neg fresh]

/-- Ascending lists of nodes of a part that were not met before. None of them is empty, and no two
have a common member. -/
structure Apart (parts : Array Nat) (part : Nat) (seen : List Nat) (cs : List (List Nat)) :
    Prop where
  filled : ∀ c ∈ cs, c ≠ []
  ascending : ∀ c ∈ cs, c.Pairwise (· < ·)
  inside : ∀ c ∈ cs, ∀ v ∈ c, parts[v]? = some part
  fresh : ∀ c ∈ cs, ∀ v ∈ c, v ∉ seen
  apart : cs.Pairwise fun c d => ∀ v ∈ c, v ∉ d

/-- Distinct numbers ascend once they are sorted. -/
theorem mergeSort_ascending {ns : List Nat} (distinct : ns.Nodup) :
    ns.mergeSort.Pairwise (· < ·) := by
  have distinct' : ns.mergeSort.Nodup := (List.mergeSort_perm ns (· ≤ ·)).nodup_iff.2 distinct
  exact (List.sortedLE_mergeSort.sortedLT_of_nodup distinct').pairwise

/-- The components found from some nodes of a part are apart, be its neighbours mutual or not. -/
theorem componentsFrom_apart (next : Nat → List Nat) (parts : Array Nat) (part : Nat) :
    ∀ (vs seen : List Nat), (∀ v ∈ vs, parts[v]? = some part) →
      Apart parts part seen (componentsFrom next parts part seen vs)
  | [], _, _ => ⟨nofun, nofun, nofun, nofun, .nil⟩
  | v :: vs, seen, inPart => by
    have inPart' := fun u hu => inPart u (List.mem_cons_of_mem v hu)
    by_cases old : v ∈ seen
    · rw [componentsFrom, if_pos old]
      exact componentsFrom_apart next parts part vs seen inPart'
    · have here := inPart v List.mem_cons_self
      obtain ⟨new, search, added, split⟩ := componentsFrom_cons next vs here old
      obtain ⟨filled, ascending, inside, fresh, apart⟩ :=
        componentsFrom_apart next parts part vs search.seen inPart'
      have found : v ∈ new :=
        ((added.seen v).1 (added.roots v (List.mem_singleton_self v))).resolve_right old
      have members {u : Nat} : u ∈ new.mergeSort → u ∈ new := List.mem_mergeSort.1
      rw [split]
      refine ⟨List.forall_mem_cons.2 ⟨List.ne_nil_of_mem (List.mem_mergeSort.2 found), filled⟩,
        List.forall_mem_cons.2 ⟨mergeSort_ascending added.nodup, ascending⟩,
        List.forall_mem_cons.2 ⟨fun u hu => ?_, inside⟩,
        List.forall_mem_cons.2 ⟨fun u hu => added.fresh u (members hu), fun c hc u hu old =>
          fresh c hc u hu (added.grown old)⟩,
        List.pairwise_cons.2 ⟨fun c hc u hu inRest => ?_, apart⟩⟩
      · obtain ⟨root, isRoot, path⟩ := added.reached u (members hu)
        rw [List.mem_singleton.1 isRoot] at path
        exact (joined_of_leads here path).2
      · exact fresh c hc u inRest ((added.seen u).2 (.inl (members hu)))

/-- The components found from some nodes of a part are pieces, and every one of the nodes is met or
in one of them. -/
theorem componentsFrom_pieces (undirected : Undirected next n) (parts : Array Nat) (part : Nat) :
    ∀ (vs seen : List Nat), (∀ v ∈ vs, parts[v]? = some part) → Met next parts part seen →
      (∀ c ∈ componentsFrom next parts part seen vs, IsPiece next parts part c) ∧
        ∀ v ∈ vs, v ∈ seen ∨ ∃ c ∈ componentsFrom next parts part seen vs, v ∈ c
  | [], _, _, _ => ⟨nofun, nofun⟩
  | v :: vs, seen, inPart, met => by
    have inPart' := fun u hu => inPart u (List.mem_cons_of_mem v hu)
    by_cases old : v ∈ seen
    · rw [componentsFrom, if_pos old]
      obtain ⟨pieces, cover⟩ := componentsFrom_pieces undirected parts part vs seen inPart' met
      exact ⟨pieces, List.forall_mem_cons.2 ⟨.inl old, cover⟩⟩
    · have here := inPart v List.mem_cons_self
      obtain ⟨new, search, added, split⟩ := componentsFrom_cons next vs here old
      have members (u : Nat) : u ∈ new.mergeSort ↔ u ∈ new := List.mem_mergeSort
      have piece : IsPiece next parts part new := Adds.isPiece undirected met here added
      obtain ⟨pieces, cover⟩ := componentsFrom_pieces undirected parts part vs search.seen inPart'
        (Adds.met met piece added)
      have metOrIn : ∀ u ∈ search.seen,
          u ∈ seen ∨ ∃ c ∈ new.mergeSort :: componentsFrom next parts part search.seen vs, u ∈ c := by
        intro u hu
        rcases (added.seen u).1 hu with hu | hu
        · exact .inr ⟨_, List.mem_cons_self, (members u).2 hu⟩
        · exact .inl hu
      rw [split]
      refine ⟨List.forall_mem_cons.2 ⟨piece.of_perm members, pieces⟩,
        List.forall_mem_cons.2 ⟨metOrIn v (added.roots v (List.mem_singleton_self v)),
          fun u hu => ?_⟩⟩
      rcases cover u hu with old | ⟨c, hc, inC⟩
      · exact metOrIn u old
      · exact .inr ⟨c, List.mem_cons_of_mem _ hc, inC⟩

/-- The nodes that the components of a part are looked for from. -/
theorem mem_membersOf {v : Nat} :
    v ∈ (List.range parts.size).filter (fun v => parts[v]? == some part)
      ↔ parts[v]? = some part := by
  rw [List.mem_filter, beq_iff_eq, List.mem_range]
  exact ⟨And.right, fun inPart => ⟨(Array.getElem?_eq_some_iff.1 inPart).1, inPart⟩⟩

/-- The components are ascending lists of nodes of the part without a common member. -/
theorem components_apart (next : Nat → List Nat) (parts : Array Nat) (part : Nat) :
    Apart parts part [] (components next parts part) :=
  componentsFrom_apart next parts part _ [] fun _ => mem_membersOf.1

/-- The components of a part are pieces that hold all of its nodes. -/
theorem components_pieces (undirected : Undirected next n) (parts : Array Nat) (part : Nat) :
    Pieces next parts part (components next parts part) ∧
      ∀ v, parts[v]? = some part → ∃ c ∈ components next parts part, v ∈ c := by
  obtain ⟨pieces, cover⟩ := componentsFrom_pieces undirected parts part
    ((List.range parts.size).filter fun v => parts[v]? == some part) []
    (fun _ => mem_membersOf.1) ⟨nofun, nofun⟩
  refine ⟨⟨pieces, (components_apart next parts part).apart⟩, fun v inPart => ?_⟩
  exact (cover v (mem_membersOf.2 inPart)).resolve_left List.not_mem_nil

/-! ## Moves -/

/-- Every neighbour has a part. -/
theorem exists_part (bounded : ∀ v, ∀ u ∈ next v, u < parts.size) {u v : Nat} (hu : u ∈ next v) :
    ∃ q, parts[u]? = some q :=
  ⟨_, Array.getElem?_eq_getElem (bounded v u hu)⟩

/-- The outside parts of a component are the parts of its neighbours that are not its own part. -/
theorem mem_outsideParts (bounded : ∀ v, ∀ u ∈ next v, u < parts.size) {c : List Nat}
    {stands : Nat → Nat → Bool} {q : Nat} :
    q ∈ outsideParts next parts part c stands ↔
      q ≠ part ∧ ∃ v ∈ c, ∃ u ∈ next v, stands u v ∧ parts[u]? = some q := by
  simp only [outsideParts, outsideNeighbours, List.mem_flatMap, List.mem_map, List.mem_filter]
  refine ⟨?_, ?_⟩
  · rintro ⟨v, hv, u, ⟨⟨hu, outside⟩, placed⟩, rfl⟩
    obtain ⟨q, here⟩ := exists_part bounded hu
    rw [here] at outside
    rw [Array.getD_eq_getD_getElem?, here]
    exact ⟨by simpa using outside, v, hv, u, hu, placed, here⟩
  · rintro ⟨away, v, hv, u, hu, placed, here⟩
    refine ⟨v, hv, u, ⟨⟨hu, ?_⟩, placed⟩, ?_⟩
    · simpa [here] using away
    · simp [Array.getD_eq_getD_getElem?, here]

/-- A component moves from its part to the part `t`, which leaves the parts `moved`. -/
structure Moves (next : Nat → List Nat) (parts : Array Nat) (part : Nat) (c : List Nat) (t : Nat)
    (moved : Array Nat) : Prop where
  /-- It leaves its part. -/
  away : t ≠ part
  /-- Its members come into the part `t`. -/
  here : ∀ v ∈ c, moved[v]? = some t
  /-- All other nodes stay where they are. -/
  elsewhere : ∀ v, v ∉ c → moved[v]? = parts[v]?
  /-- It has a neighbour in the part `t`. -/
  neighbour : ∃ v ∈ c, ∃ u ∈ next v, parts[u]? = some t
  /-- The part `t` is the latest of a predecessor or, if there are none, the earliest of a
  successor. -/
  choice :
    ((∃ v ∈ c, ∃ u ∈ next v, u < v ∧ parts[u]? = some t) ∧
      ∀ v ∈ c, ∀ u ∈ next v, u < v → ∀ q, parts[u]? = some q → q ≠ part → q ≤ t) ∨
    ((∃ v ∈ c, ∃ u ∈ next v, v < u ∧ parts[u]? = some t) ∧
      ∀ v ∈ c, ∀ u ∈ next v, ∀ q, parts[u]? = some q → q ≠ part → v < u ∧ t ≤ q)

/-- The number of nodes never changes. -/
@[simp] theorem size_move (c : List Nat) : (move next parts part c).size = parts.size := by
  unfold move
  split <;> simp

/-- A component moves only where it has a target. -/
theorem getElem?_move {c : List Nat} {t : Nat} (found : target? next parts part c = some t)
    (v : Nat) :
    (move next parts part c)[v]? = if v ∈ c then parts[v]?.map fun _ => t else parts[v]? := by
  rw [move, found]
  simp only [Array.getElem?_mapIdx]
  split
  · rfl
  · exact Option.map_id'

/-- A component without a target has no neighbour outside of its part, and stays. -/
theorem move_of_target?_eq_none (undirected : Undirected next parts.size) {c : List Nat}
    (piece : IsPiece next parts part c) (nowhere : target? next parts part c = none) :
    move next parts part c = parts ∧ ∀ v ∈ c, ∀ u ∈ next v, parts[u]? = some part := by
  refine ⟨by rw [move, nowhere], fun v hv u hu => ?_⟩
  have empty : outsideParts next parts part c (· < ·) = [] ∧
      outsideParts next parts part c (· > ·) = [] := by
    unfold target? at nowhere
    cases latest : (outsideParts next parts part c (· < ·)).max? with
    | some p => rw [latest] at nowhere; cases nowhere
    | none =>
      rw [latest] at nowhere
      exact ⟨List.max?_eq_none_iff.1 latest, List.min?_eq_none_iff.1 nowhere⟩
  obtain ⟨q, here⟩ := exists_part undirected.lt hu
  refine Decidable.byContradiction fun outside => ?_
  have away : q ≠ part := fun same => outside (here.trans (congrArg some same))
  rcases Nat.lt_trichotomy u v with before | rfl | after
  · exact List.ne_nil_of_mem ((mem_outsideParts undirected.lt).2
      ⟨away, v, hv, u, hu, by simpa using before, here⟩) empty.1
  · exact outside (piece.inside u hv)
  · exact List.ne_nil_of_mem ((mem_outsideParts undirected.lt).2
      ⟨away, v, hv, u, hu, by simpa using after, here⟩) empty.2

/-- A component with a target moves there. -/
theorem moves_of_target?_eq_some (undirected : Undirected next parts.size) {c : List Nat} {t : Nat}
    (piece : IsPiece next parts part c) (found : target? next parts part c = some t) :
    Moves next parts part c t (move next parts part c) := by
  have outside := @mem_outsideParts next parts part undirected.lt c
  have here : ∀ v ∈ c, (move next parts part c)[v]? = some t := by
    intro v hv
    rw [getElem?_move found, if_pos hv, piece.inside v hv]
    rfl
  have elsewhere : ∀ v, v ∉ c → (move next parts part c)[v]? = parts[v]? := by
    intro v hv
    rw [getElem?_move found, if_neg hv]
  unfold target? at found
  cases latest : (outsideParts next parts part c (· < ·)).max? with
  | some p =>
    rw [latest] at found
    cases found
    obtain ⟨isPart, greatest⟩ := List.max?_eq_some_iff.1 latest
    obtain ⟨away, v, hv, u, hu, before, inPart⟩ := outside.1 isPart
    have before : u < v := by simpa using before
    refine ⟨away, here, elsewhere, ⟨v, hv, u, hu, inPart⟩,
      .inl ⟨⟨v, hv, u, hu, before, inPart⟩, fun v hv u hu lt q inPart other => ?_⟩⟩
    exact greatest q (outside.2 ⟨other, v, hv, u, hu, by simpa using lt, inPart⟩)
  | none =>
    rw [latest] at found
    have found : (outsideParts next parts part c (· > ·)).min? = some t := found
    obtain ⟨isPart, least⟩ := List.min?_eq_some_iff.1 found
    obtain ⟨away, v, hv, u, hu, after, inPart⟩ := outside.1 isPart
    have after : v < u := by simpa using after
    refine ⟨away, here, elsewhere, ⟨v, hv, u, hu, inPart⟩,
      .inr ⟨⟨v, hv, u, hu, after, inPart⟩, fun v hv u hu q inPart other => ?_⟩⟩
    have notBefore : ¬ u < v := fun lt => List.ne_nil_of_mem
      (outside.2 ⟨other, v, hv, u, hu, by simpa using lt, inPart⟩) (List.max?_eq_none_iff.1 latest)
    have notSame : u ≠ v := by
      rintro rfl
      exact other (Option.some.inj (inPart.symm.trans (piece.inside u hv)))
    have lt : v < u := by omega
    exact ⟨lt, least q (outside.2 ⟨other, v, hv, u, hu, by simpa using lt, inPart⟩)⟩

/-- A component stays, if it has no neighbours outside of its part, or moves to a part of one. -/
theorem move_cases (undirected : Undirected next parts.size) {c : List Nat}
    (piece : IsPiece next parts part c) :
    (move next parts part c = parts ∧ ∀ v ∈ c, ∀ u ∈ next v, parts[u]? = some part) ∨
      ∃ t, Moves next parts part c t (move next parts part c) := by
  cases found : target? next parts part c with
  | none => exact .inl (move_of_target?_eq_none undirected piece found)
  | some t => exact .inr ⟨t, moves_of_target?_eq_some undirected piece found⟩

/-- Where a component moves, another one of the same part stays one. -/
theorem Moves.isPiece {c d : List Nat} {t : Nat} {moved : Array Nat}
    (moves : Moves next parts part c t moved) (piece : IsPiece next parts part d)
    (apart : ∀ v ∈ c, v ∉ d) : IsPiece next moved part d := by
  refine piece.persists (fun v hv => ?_) fun v hv u hu inPart => ?_
  · exact (moves.elsewhere v fun inC => apart v inC hv).trans (piece.inside v hv)
  · have notMoved : u ∉ c := fun inC =>
      moves.away (Option.some.inj ((moves.here u inC).symm.trans inPart))
    exact piece.closed v hv u hu ((moves.elsewhere u notMoved).symm.trans inPart)

/-- Once one of several components has moved, or stayed, the others are components still. -/
theorem Pieces.tail (undirected : Undirected next parts.size) {c : List Nat} {cs : List (List Nat)}
    (pieces : Pieces next parts part (c :: cs)) :
    Pieces next (move next parts part c) part cs := by
  obtain ⟨apart, apartRest⟩ := List.pairwise_cons.1 pieces.apart
  refine ⟨fun d hd => ?_, apartRest⟩
  have piece := pieces.piece d (List.mem_cons_of_mem c hd)
  rcases move_cases undirected (pieces.piece c List.mem_cons_self) with ⟨stays, -⟩ | ⟨t, moves⟩
  · rwa [stays]
  · exact moves.isPiece piece (apart d hd)

/-! ## Settling and repairing -/

/-- What every move of a component keeps, the repair of all parts keeps. -/
theorem foldl_move_induction {motive : Array Nat → Prop}
    (keeps : ∀ (parts : Array Nat) (c : List Nat), parts.size = n → IsPiece next parts part c →
      motive parts → motive (move next parts part c)) (undirected : Undirected next n) :
    ∀ (cs : List (List Nat)) (parts : Array Nat), parts.size = n → Pieces next parts part cs →
      motive parts → motive (cs.foldl (fun parts c => move next parts part c) parts)
  | [], _, _, _, h => h
  | c :: cs, parts, size, pieces, h =>
    foldl_move_induction keeps undirected cs (move next parts part c) (by rw [size_move, size])
      (pieces.tail (size ▸ undirected))
      (keeps parts c size (pieces.piece c List.mem_cons_self) h)

/-- Some of several pieces are pieces. -/
theorem Pieces.sublist {cs ds : List (List Nat)} (pieces : Pieces next parts part cs)
    (some_ : ds.Sublist cs) : Pieces next parts part ds :=
  ⟨fun d hd => pieces.piece d (some_.subset hd), pieces.apart.sublist some_⟩

/-- Moves keep a part for every node. -/
theorem size_foldl_move (cs : List (List Nat)) (parts : Array Nat) :
    (cs.foldl (fun parts c => move next parts part c) parts).size = parts.size := by
  induction cs generalizing parts with
  | nil => rfl
  | cons c cs ih => rw [List.foldl_cons, ih, size_move]

@[simp] theorem size_settle (weight : Nat → Nat) :
    (settle next weight parts part).size = parts.size :=
  size_foldl_move _ _

/-- What every move of a component of a part keeps, settling the part keeps. -/
theorem settle_induction {motive : Array Nat → Prop}
    (keeps : ∀ (parts : Array Nat) (c : List Nat), parts.size = n → IsPiece next parts part c →
      motive parts → motive (move next parts part c))
    (undirected : Undirected next n) (weight : Nat → Nat) (size : parts.size = n)
    (h : motive parts) :
    motive (settle next weight parts part) := by
  obtain ⟨pieces, -⟩ := components_pieces undirected parts part
  exact foldl_move_induction keeps undirected _ parts size
    (pieces.sublist (List.eraseIdx_sublist _ _)) h

/-- Settling parts one after the other keeps what settling each of them keeps. -/
theorem foldl_settle_induction {motive : Array Nat → Prop} {weight : Nat → Nat}
    (keeps : ∀ (parts : Array Nat) (part : Nat), parts.size = n → motive parts →
      motive (settle next weight parts part)) :
    ∀ (used : List Nat) (parts : Array Nat), parts.size = n → motive parts →
      motive (used.foldl (settle next weight) parts)
  | [], _, _, h => h
  | part :: used, parts, size, h =>
    foldl_settle_induction keeps used (settle next weight parts part) (by rw [size_settle, size])
      (keeps parts part size h)

/-- What every move of a component keeps, the repair keeps. -/
theorem repair_induction {motive : Array Nat → Prop}
    (keeps : ∀ (part : Nat) (parts : Array Nat) (c : List Nat), parts.size = n →
      IsPiece next parts part c → motive parts → motive (move next parts part c))
    (undirected : Undirected next n) (weight : Nat → Nat) (size : parts.size = n)
    (h : motive parts) :
    motive (repair next weight parts) :=
  foldl_settle_induction
    (fun _ part size h => settle_induction (keeps part) undirected weight size h) _ parts size h

@[simp] theorem size_repair (weight : Nat → Nat) : (repair next weight parts).size = parts.size :=
  foldl_settle_induction (motive := fun moved => moved.size = parts.size)
    (fun _ _ size _ => by rw [size_settle, size]) _ parts rfl rfl

end

end StagePlan.Sequential
