import Mathlib.Data.List.Permutation
import StagePlan.Proofs.Sequential.Anchor
import StagePlan.Proofs.Sequential.Wide

/-!
# Settled parts

A node is on the boundary of its part if it has a neighbour outside. A part is `Settled` if each of
its components that reach the boundary outranks all others. There is one such component at most
(`Settled.eq_of_boundary`), so that the others have nowhere to move: settling the part again changes
nothing (`settle_of_settled`).

A part is settled once its components have moved (`settle_settled`), for the anchor outranks all
others and no other one that stays has a neighbour outside. It remains settled while the components of
other parts move (`Moves.settled`): one that moves into the part joins the component on the boundary,
which outranks the others all the more. So the repair ends with settled parts (`repair_settled`), and
settled parts are left alone (`repair_of_settled`), as are connected ones (`Connected.settled`).
`repair_idempotent` puts this together.
-/

open Relation

namespace StagePlan.Sequential

/-- A node of a part has a neighbour that lies elsewhere. -/
def Boundary (next : Nat → List Nat) (parts : Array Nat) (part v : Nat) : Prop :=
  parts[v]? = some part ∧ ∃ u ∈ next v, parts[u]? ≠ some part

/-- Every component of a part that has neighbours elsewhere outranks all other components. -/
def Settled (next : Nat → List Nat) (weight : Nat → Nat) (parts : Array Nat) (part : Nat) : Prop :=
  ∀ c ∈ components next parts part, (∃ v ∈ c, Boundary next parts part v) →
    ∀ d ∈ components next parts part, d ≠ c → Outranks weight c d

/-- Any two nodes of a part are joined within it. -/
def Connected (next : Nat → List Nat) (parts : Array Nat) : Prop :=
  ∀ part u v, parts[u]? = some part → parts[v]? = some part → Joined next parts part u v

section

variable {next : Nat → List Nat} {weight : Nat → Nat} {parts moved : Array Nat}
  {part other n t u v : Nat} {c d : List Nat}

/-- One component at most of a settled part has neighbours elsewhere. -/
theorem Settled.eq_of_boundary (settled : Settled next weight parts part)
    (hc : c ∈ components next parts part) (hd : d ∈ components next parts part)
    (edge : Boundary next parts part u) (inC : u ∈ c) (edge' : Boundary next parts part v)
    (inD : v ∈ d) : c = d := by
  by_contra different
  have above := settled c hc ⟨u, inC, edge⟩ d hd (Ne.symm different)
  exact above.asymm (settled d hd ⟨v, inD, edge'⟩ c hc different)

/-! ## Connected parts -/

/-- A connected part has one component. -/
theorem Connected.eq (undirected : Undirected next n) (connected : Connected next parts)
    (hc : c ∈ components next parts part) (hd : d ∈ components next parts part) : c = d := by
  obtain ⟨some_, ascending, piece⟩ := (mem_components undirected).1 hc
  obtain ⟨some', ascending', piece'⟩ := (mem_components undirected).1 hd
  obtain ⟨u, inC⟩ := List.exists_mem_of_ne_nil c some_
  obtain ⟨v, inD⟩ := List.exists_mem_of_ne_nil d some'
  have inC' : v ∈ c := piece.mem_of_joined inC
    (connected part u v (piece.inside u inC) (piece'.inside v inD))
  exact piece.eq piece' ascending ascending' inC' inD

/-- A connected part has no other component to outrank. -/
theorem Connected.settled (undirected : Undirected next n) (connected : Connected next parts) :
    Settled next weight parts part := by
  intro c hc _ d hd different
  exact absurd (connected.eq undirected hd hc) different

/-- Parts are connected if none in use has two components. -/
theorem connected_iff (undirected : Undirected next n) :
    Connected next parts ↔ ∀ part ∈ parts, ∀ c ∈ components next parts part,
      ∀ d ∈ components next parts part, c = d := by
  constructor
  · intro connected part _ c hc d hd
    exact connected.eq undirected hc hd
  · intro single part u v hu hv
    obtain ⟨pieces, cover⟩ := components_pieces undirected parts part
    obtain ⟨c, hc, inC⟩ := cover u hu
    obtain ⟨d, hd, inD⟩ := cover v hv
    have same := single part (Array.mem_of_getElem? hu) c hc d hd
    exact (pieces.piece c hc).joined u inC v (same ▸ inD)

/-! ## Settling again -/

/-- A component without neighbours elsewhere stays. -/
theorem move_of_not_boundary (undirected : Undirected next parts.size)
    (piece : IsPiece next parts part c) (inner : ∀ v ∈ c, ¬ Boundary next parts part v) :
    move next parts part c = parts := by
  rcases move_cases undirected piece with ⟨stays, -⟩ | ⟨t, moves⟩
  · exact stays
  · obtain ⟨v, hv, u, hu, inTarget⟩ := moves.neighbour
    refine absurd ⟨piece.inside v hv, u, hu, fun same => moves.away ?_⟩ (inner v hv)
    exact Option.some.inj (inTarget.symm.trans same)

/-- Nothing moves where a part has settled. -/
theorem settle_of_settled (undirected : Undirected next parts.size)
    (settled : Settled next weight parts part) : settle next weight parts part = parts := by
  obtain ⟨pieces, -⟩ := components_pieces undirected parts part
  unfold settle
  refine List.foldlRecOn (motive := (· = parts)) _ _ rfl fun moved same d hd => ?_
  rw [same]
  have listed : d ∈ components next parts part := List.mem_of_mem_eraseIdx hd
  have lt := anchor_lt weight (List.ne_nil_of_mem listed)
  have above := anchor_outranks weight (components_ordered next parts part) lt d hd
  refine move_of_not_boundary undirected (pieces.piece d listed) fun v hv edge => ?_
  exact above.asymm (settled d listed ⟨v, hv, edge⟩ _ (List.getElem_mem lt) above.ne)

/-! ## Once a part has settled -/

/-- A component either leaves its part or is a component of the whole graph, and stays. -/
theorem foldl_move_cases (undirected : Undirected next n) :
    ∀ (cs : List (List Nat)) (parts : Array Nat), parts.size = n → Pieces next parts part cs →
      ∀ c ∈ cs,
        (∀ v ∈ c, (cs.foldl (fun parts c => move next parts part c) parts)[v]? ≠ some part) ∨
          ∀ v ∈ c, (cs.foldl (fun parts c => move next parts part c) parts)[v]? = some part ∧
            ∀ u ∈ next v, u ∈ c
  | d :: ds, parts, size, pieces, c, hc => by
    have undirected' : Undirected next parts.size := size ▸ undirected
    rw [List.foldl_cons]
    rcases List.mem_cons.1 hc with rfl | hc
    · have piece := pieces.piece c List.mem_cons_self
      have stay : ∀ v ∈ c, (ds.foldl (fun parts c => move next parts part c)
          (move next parts part c))[v]? = (move next parts part c)[v]? := fun v hv =>
        getElem?_foldl_move fun d hd => (List.pairwise_cons.1 pieces.apart).1 d hd v hv
      rcases move_cases undirected' piece with ⟨same, allInside⟩ | ⟨t, moves⟩
      · refine .inr fun v hv => ⟨?_, fun u hu => piece.closed v hv u hu (allInside v hv u hu)⟩
        rw [stay v hv, same, piece.inside v hv]
      · refine .inl fun v hv back => moves.away ?_
        exact Option.some.inj ((moves.here v hv).symm.trans ((stay v hv).symm.trans back))
    · exact foldl_move_cases undirected ds (move next parts part d) (by rw [size_move, size])
        (pieces.tail undirected') c hc

/-- No node comes into a part that settles. -/
theorem inside_of_settle (undirected : Undirected next n)
    (here : (settle next weight parts part)[v]? = some part) : parts[v]? = some part := by
  obtain ⟨pieces, -⟩ := components_pieces undirected parts part
  by_cases moves : ∃ d ∈ (components next parts part).eraseIdx
      (anchor weight (components next parts part)), v ∈ d
  · obtain ⟨d, hd, inD⟩ := moves
    exact (pieces.piece d (List.mem_of_mem_eraseIdx hd)).inside v inD
  · exact (getElem?_foldl_move fun d hd inD => moves ⟨d, hd, inD⟩).symm.trans here

/-- The anchor is a component of its part still. -/
theorem isPiece_anchor (undirected : Undirected next parts.size)
    (lt : anchor weight (components next parts part) < (components next parts part).length) :
    IsPiece next (settle next weight parts part) part
      (components next parts part)[anchor weight (components next parts part)] := by
  obtain ⟨pieces, -⟩ := components_pieces undirected parts part
  have piece := pieces.piece _ (List.getElem_mem lt)
  have alone := (components_apart next parts part).anchor_alone lt
  refine piece.persists (fun v hv => ?_) fun v hv u hu here => ?_
  · exact (getElem?_foldl_move fun d hd => alone d hd v hv).trans (piece.inside v hv)
  · exact piece.closed v hv u hu (inside_of_settle undirected here)

/-- A component of a part that has settled is its anchor, or was another component before. That one is
a component of the whole graph. -/
theorem components_settle (undirected : Undirected next parts.size)
    (hc : c ∈ components next (settle next weight parts part) part) :
    ∃ lt : anchor weight (components next parts part) < (components next parts part).length,
      c = (components next parts part)[anchor weight (components next parts part)] ∨
        c ∈ (components next parts part).eraseIdx (anchor weight (components next parts part)) ∧
          ∀ v ∈ c, ∀ u ∈ next v, u ∈ c := by
  obtain ⟨some_, ascending, piece⟩ := (mem_components undirected).1 hc
  obtain ⟨v, inC⟩ := List.exists_mem_of_ne_nil c some_
  obtain ⟨pieces, cover⟩ := components_pieces undirected parts part
  obtain ⟨d, hd, inD⟩ := cover v (inside_of_settle undirected (piece.inside v inC))
  have lt := anchor_lt weight (List.ne_nil_of_mem hd)
  have ascending' := (components_apart next parts part).ascending d hd
  refine ⟨lt, ?_⟩
  rcases List.mem_cons.1 ((List.getElem_cons_eraseIdx_perm lt).mem_iff.2 hd) with rfl | other
  · exact .inl (piece.eq (isPiece_anchor undirected lt) ascending ascending' inC inD)
  · rcases foldl_move_cases undirected _ parts rfl (pieces.sublist (List.eraseIdx_sublist _ _))
      d other with left | stay
    · exact absurd (piece.inside v inC) (left v inD)
    · have piece' : IsPiece next (settle next weight parts part) part d :=
        (pieces.piece d hd).persists (fun u hu => (stay u hu).1) fun u hu w hw _ =>
          (stay u hu).2 w hw
      obtain rfl := piece.eq piece' ascending ascending' inC inD
      exact .inr ⟨other, fun u hu => (stay u hu).2⟩

/-- A part whose components have moved is settled. -/
theorem settle_settled (undirected : Undirected next parts.size) (weight : Nat → Nat)
    (part : Nat) : Settled next weight (settle next weight parts part) part := by
  rintro c hc ⟨v, inC, -, u, hu, outside⟩ d hd different
  have piece := ((mem_components undirected).1 hc).2.2
  obtain ⟨lt, rfl | ⟨-, whole⟩⟩ := components_settle undirected hc
  · obtain ⟨_, rfl | ⟨other, -⟩⟩ := components_settle undirected hd
    · exact absurd rfl different
    · exact anchor_outranks weight (components_ordered next parts part) lt d other
  · exact absurd (piece.inside u (whole v inC u hu)) outside

/-! ## While other parts settle -/

/-- Nodes joined within a part are joined within every assignment that leaves its nodes there. -/
theorem Joined.mono {u v : Nat}
    (stay : ∀ w : Nat, parts[w]? = some other → moved[w]? = some other)
    (path : Joined next parts other u v) : Joined next moved other u v :=
  ReflTransGen.mono (fun x y h => ⟨h.1, stay x h.2.1, stay y h.2.2⟩) u v path

/-- A node of another part stays there when a component of this part moves. -/
theorem Moves.stay (piece : IsPiece next parts part c) (moves : Moves next parts part c t moved)
    (different : other ≠ part) {v : Nat} (here : parts[v]? = some other) :
    moved[v]? = some other := by
  have notMoved : v ∉ c := fun inC =>
    different (Option.some.inj (here.symm.trans (piece.inside v inC)))
  exact (moves.elsewhere v notMoved).trans here

/-- A node on the boundary of another part is a member of the component that moved there, or was on
the boundary before. -/
theorem Moves.boundary_cases (piece : IsPiece next parts part c)
    (moves : Moves next parts part c t moved) (different : other ≠ part) {v : Nat}
    (edge : Boundary next moved other v) : v ∈ c ∧ other = t ∨ Boundary next parts other v := by
  obtain ⟨here, u, hu, outside⟩ := edge
  by_cases inC : v ∈ c
  · exact .inl ⟨inC, Option.some.inj (here.symm.trans (moves.here v inC))⟩
  · refine .inr ⟨(moves.elsewhere v inC).symm.trans here, u, hu, fun stays => ?_⟩
    exact outside (moves.stay piece different stays)

/-- A part that a component neither leaves nor enters has the components that it had. -/
theorem Moves.components_iff (undirected : Undirected next n) (piece : IsPiece next parts part c)
    (moves : Moves next parts part c t moved) (different : other ≠ part) (elsewhere : other ≠ t) :
    d ∈ components next moved other ↔ d ∈ components next parts other := by
  have stay {v : Nat} : parts[v]? = some other → moved[v]? = some other :=
    moves.stay piece different
  have back {v : Nat} (here : moved[v]? = some other) : parts[v]? = some other := by
    have notMoved : v ∉ c := fun inC =>
      elsewhere (Option.some.inj (here.symm.trans (moves.here v inC)))
    exact (moves.elsewhere v notMoved).symm.trans here
  have same : IsPiece next moved other d ↔ IsPiece next parts other d :=
    ⟨fun h => h.persists (fun v hv => back (h.inside v hv))
        fun v hv u hu here => h.closed v hv u hu (stay here),
      fun h => h.persists (fun v hv => stay (h.inside v hv))
        fun v hv u hu here => h.closed v hv u hu (back here)⟩
  rw [mem_components undirected, mem_components undirected, same]

/-- A component that moves is joined with the neighbour that it moves to. -/
theorem Moves.joined_neighbour (piece : IsPiece next parts part c)
    (moves : Moves next parts part c t moved) {x w : Nat} (hx : x ∈ c) (hw : w ∈ next x)
    (inTarget : parts[w]? = some t) (hv : v ∈ c) : Joined next moved t v w := by
  have within : Joined next moved t v x := ReflTransGen.mono
    (fun y z h => ⟨h.1, moves.here y h.2.1, moves.here z h.2.2⟩) v x (piece.joined_through hv hx)
  exact within.tail ⟨hw, moves.here x hx, moves.stay piece moves.away inTarget⟩

/-- A component that moves into a settled part joins the one on the boundary. -/
theorem Moves.settled_target (undirected : Undirected next n) (piece : IsPiece next parts part c)
    (moves : Moves next parts part c t moved) (settled : Settled next weight parts t) :
    Settled next weight moved t := by
  have stay : ∀ w, parts[w]? = some t → moved[w]? = some t := fun _ =>
    moves.stay piece moves.away
  obtain ⟨pieces, cover⟩ := components_pieces undirected parts t
  obtain ⟨x, hx, w, hw, inTarget⟩ := moves.neighbour
  obtain ⟨a, ha, inA⟩ := cover w inTarget
  -- the neighbour that the component moves to was on the boundary
  have edge : Boundary next parts t w := by
    refine ⟨inTarget, x, undirected.symm x w hw, fun same => moves.away ?_⟩
    exact Option.some.inj (same.symm.trans (piece.inside x hx))
  have members {v : Nat} : v ∈ c → Joined next moved t v w :=
    moves.joined_neighbour piece hx hw inTarget
  rintro b hb ⟨v, inB, edgeV⟩ d hd different
  obtain ⟨-, ascendingB, pieceB⟩ := (mem_components undirected).1 hb
  obtain ⟨someD, ascendingD, pieceD⟩ := (mem_components undirected).1 hd
  have toNeighbour : Joined next moved t v w := by
    rcases moves.boundary_cases piece moves.away edgeV with ⟨inC, -⟩ | before
    · exact members inC
    · obtain ⟨a', ha', inA'⟩ := cover v before.1
      obtain rfl := settled.eq_of_boundary ha' ha before inA' edge inA
      exact Joined.mono stay ((pieces.piece a' ha').joined v inA' w inA)
  have inB' : w ∈ b := pieceB.mem_of_joined inB toNeighbour
  have grown : a ⊆ b := fun u hu =>
    pieceB.mem_of_joined inB' (Joined.mono stay ((pieces.piece a ha).joined w inA u hu))
  have notInD : w ∉ d := fun inD => different (pieceD.eq pieceB ascendingD ascendingB inD inB')
  -- any other component is away from what moved, and so was a component before
  have before : IsPiece next parts t d := by
    refine pieceD.persists (fun u hu => ?_) fun u hu y hy here => ?_
    · have apart : u ∉ c := fun inC => notInD (pieceD.mem_of_joined hu (members inC))
      exact (moves.elsewhere u apart).symm.trans (pieceD.inside u hu)
    · exact pieceD.closed u hu y hy (stay y here)
  have above : Outranks weight a d := by
    refine settled a ha ⟨w, inA, edge⟩ d ((mem_components undirected).2 ?_) ?_
    · exact ⟨someD, ascendingD, before⟩
    · exact fun same => notInD (same ▸ inA)
  exact above.mono (((components_apart next parts t).ascending a ha).imp Nat.ne_of_lt) grown

/-- A component that moves leaves all other parts settled. -/
theorem Moves.settled (undirected : Undirected next n) (piece : IsPiece next parts part c)
    (moves : Moves next parts part c t moved) (different : other ≠ part)
    (settled : Settled next weight parts other) : Settled next weight moved other := by
  by_cases target : other = t
  · subst target
    exact moves.settled_target undirected piece settled
  · rintro b hb ⟨v, inB, edge⟩ d hd different'
    have same {d : List Nat} := moves.components_iff undirected piece different target (d := d)
    have before := (moves.boundary_cases piece different edge).resolve_left fun h => target h.2
    exact settled b (same.1 hb) ⟨v, inB, before⟩ d (same.1 hd) different'

/-- Settling a part leaves all other parts settled. -/
theorem settle_settled_of_ne (undirected : Undirected next n) (size : parts.size = n)
    (different : other ≠ part) (settled : Settled next weight parts other) :
    Settled next weight (settle next weight parts part) other := by
  refine settle_induction (motive := fun parts => Settled next weight parts other)
    (fun parts c size piece settled => ?_) undirected weight size settled
  rcases move_cases (size ▸ undirected) piece with ⟨stays, -⟩ | ⟨t, moves⟩
  · rwa [stays]
  · exact moves.settled undirected piece different settled

/-! ## Repair -/

/-- A part is settled once it has had its turn, and remains so while other parts settle. -/
theorem foldl_settle_settled (undirected : Undirected next n) :
    ∀ (used : List Nat) (parts : Array Nat), parts.size = n →
      Settled next weight parts other ∨ other ∈ used →
        Settled next weight (used.foldl (settle next weight) parts) other
  | [], _, _, h => h.resolve_right (nomatch ·)
  | part :: used, parts, size, h => by
    refine foldl_settle_settled undirected used (settle next weight parts part)
      (by rw [size_settle, size]) ?_
    by_cases same : other = part
    · subst same
      exact .inl (settle_settled (size ▸ undirected) weight other)
    · rcases h with settled | later
      · exact .inl (settle_settled_of_ne undirected size same settled)
      · exact .inr ((List.mem_cons.1 later).resolve_left same)

/-- The repair settles every part. -/
theorem repair_settled (undirected : Undirected next parts.size) (weight : Nat → Nat)
    (part : Nat) : Settled next weight (repair next weight parts) part := by
  by_cases used : part ∈ parts
  · refine foldl_settle_settled undirected _ parts rfl (.inr ?_)
    exact HandleSet.mem_ofList.2 (Array.mem_toList_iff.2 used)
  · rintro c - ⟨v, -, here, -⟩
    exact absurd ((mem_repair undirected.lt).1 (Array.mem_of_getElem? here)) used

/-- The repair leaves settled parts alone. -/
theorem repair_of_settled (undirected : Undirected next parts.size)
    (settled : ∀ part, Settled next weight parts part) : repair next weight parts = parts := by
  unfold repair
  refine List.foldlRecOn (motive := (· = parts)) _ _ rfl fun moved same part _ => ?_
  rw [same]
  exact settle_of_settled undirected (settled part)

end

/-! ## Answers -/

/-- Connected runs are not repaired, even if parts have to be connected. -/
theorem repairRuns_of_connected {r : PartitionRequest} {runs : List Nat}
    (length : runs.length = r.size) (undirected : Undirected r.next r.size)
    (connected : Connected r.next runs.toArray) : repairRuns r runs = runs := by
  have size : runs.toArray.size = r.size := by rw [List.size_toArray, length]
  rw [repairRuns_eq]
  split
  · rw [repair_of_settled (size ▸ undirected) fun _ => connected.settled undirected]
  · rfl

/-- Whatever the undirected graph, the weights and the parts that its nodes start with: repairing the
parts a second time changes nothing, and neither does it change parts that are connected. So a request
whose runs are connected, if there are any, has one answer in wide words, whether or not connected parts
are wanted. -/
theorem repair_idempotent :
    (∀ (next : Nat → List Nat) (weight : Nat → Nat) (parts : Array Nat),
      Undirected next parts.size →
        repair next weight (repair next weight parts) = repair next weight parts ∧
          (Connected next parts → repair next weight parts = parts)) ∧
      ∀ r : PartitionRequest, Undirected r.next r.size →
        (∀ runs, Wide.runs? (effectiveWeights r.weights) r.parts = some runs →
          Connected r.next runs.toArray) →
            Wide.split? { r with contiguous := true } = Wide.split? { r with contiguous := false } := by
  refine ⟨fun next weight parts undirected => ⟨?_, fun connected => ?_⟩,
    fun r undirected connected => ?_⟩
  · have undirected' : Undirected next (repair next weight parts).size := by
      rwa [size_repair]
    exact repair_of_settled undirected' (repair_settled undirected weight)
  · exact repair_of_settled undirected fun _ => connected.settled undirected
  -- whether parts have to be connected matters neither to a refusal nor to the runs
  · have refused (contiguous : Bool) : refusal? { r with contiguous } = refusal? r := rfl
    unfold Wide.split? splitBy
    rw [refused true, refused false]
    cases refusal? r with
    | some cause => rfl
    | none =>
      show (Wide.runs? (effectiveWeights r.weights) r.parts >>= _)
        = (Wide.runs? (effectiveWeights r.weights) r.parts >>= _)
      cases cut : Wide.runs? (effectiveWeights r.weights) r.parts with
      | none => rfl
      | some runs =>
        have same (contiguous : Bool) : repairRuns { r with contiguous } runs = runs :=
          repairRuns_of_connected (Wide.length_of_runs? cut) undirected (connected runs cut)
        show some (Except.ok (compact _)) = some (Except.ok (compact _))
        rw [same true, same false]

/-- A request for two parts of a path. -/
def pathRequest : PartitionRequest where
  adjacency := [[1], [0, 2], [1, 3], [2, 4], [3]]
  weights := [1, 2, 1, 1, 1]
  parts := 2
  contiguous := true

/-- Nodes of the path that alternate between two parts. The first part keeps the earlier of two
components that weigh the same, and the second one the component that this leaves it with. -/
theorem pathRequest_repaired :
    Undirected pathRequest.next pathRequest.size ∧
      repair pathRequest.next (pathRequest.weights.getD · 0) #[1, 0, 1, 0, 0] = #[0, 0, 1, 1, 1] ∧
      repair pathRequest.next (pathRequest.weights.getD · 0) #[0, 0, 1, 1, 1] = #[0, 0, 1, 1, 1] ∧
      Connected pathRequest.next #[0, 0, 1, 1, 1] ∧
      Wide.runs? (effectiveWeights pathRequest.weights) pathRequest.parts = some [0, 0, 1, 1, 1] ∧
      Wide.split? { pathRequest with contiguous := true }
        = Wide.split? { pathRequest with contiguous := false } := by
  have wf : pathRequest.WellFormed := by decide
  have undirected := wf.undirected
  have repaired : repair pathRequest.next (pathRequest.weights.getD · 0) #[1, 0, 1, 0, 0]
      = #[0, 0, 1, 1, 1] := by cbv
  have connected : Connected pathRequest.next #[0, 0, 1, 1, 1] := by
    have first : components pathRequest.next #[0, 0, 1, 1, 1] 0 = [[0, 1]] := by cbv
    have second : components pathRequest.next #[0, 0, 1, 1, 1] 1 = [[2, 3, 4]] := by cbv
    refine (connected_iff undirected).2 fun part used => ?_
    obtain rfl | rfl : part = 0 ∨ part = 1 := by simpa using used
    · simp [first]
    · simp [second]
  obtain ⟨stable, alike⟩ := repair_idempotent
  obtain ⟨again, -⟩ := stable pathRequest.next (pathRequest.weights.getD · 0) #[1, 0, 1, 0, 0]
    undirected
  rw [repaired] at again
  have cut : Wide.runs? (effectiveWeights pathRequest.weights) pathRequest.parts
      = some [0, 0, 1, 1, 1] := rfl
  refine ⟨undirected, repaired, again, connected, cut, alike pathRequest undirected fun runs cut' => ?_⟩
  cases cut.symm.trans cut'
  exact connected

end StagePlan.Sequential
