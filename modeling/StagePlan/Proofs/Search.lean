import Mathlib.Data.List.Perm.Subperm
import Mathlib.Logic.Relation
import StagePlan.Search

/-!
# What a search visits

`Search.Adds` says what visiting some roots adds to a search: new nodes, each of them finished,
reached from a root and with all its successors met. `visit_adds` proves it of `Search.visit` at
every depth that is not below the number of nodes still unseen, and `all_adds` of the search of all
nodes. A successor of a finished node was finished before it or leads back to it (`all_returning`).
So where the graph has no cycle the nodes stand in `finished` before what they lead to
(`all_finishing`).

A breadth-first search adds the same as a depth-first one (`sweep_adds`). What its queue, the nodes
that are done and those met before have to do with each other is `Sweeping`, which every round keeps
(`Sweeping.round`); the queue has run empty after as many rounds as there are nodes, and further
rounds change nothing (`Sweeping.sweep_eq`).
-/

open Relation

namespace StagePlan.Search

/-- One step along the successors. -/
abbrev Leads (next : Nat → List Nat) (a b : Nat) : Prop := b ∈ next a

/-- The number of nodes below `n` that were not met. -/
def unseen (n : Nat) (seen : List Nat) : Nat := ((List.range n).filter (· ∉ seen)).length

/-- The more was met, the less is unseen. -/
theorem unseen_le_of_subset {n : Nat} {seen seen' : List Nat} (grown : seen ⊆ seen') :
    unseen n seen' ≤ unseen n seen := by
  rw [unseen, unseen, ← List.countP_eq_length_filter, ← List.countP_eq_length_filter]
  refine List.countP_mono_left fun v _ hv => ?_
  simp only [decide_eq_true_eq] at hv ⊢
  exact fun h => hv (grown h)

/-- To meet a new node leaves fewer unseen. -/
theorem unseen_cons_lt {n v : Nat} {seen : List Nat} (lt : v < n) (fresh : v ∉ seen) :
    unseen n (v :: seen) < unseen n seen := by
  have split : (List.range n).filter (· ∉ v :: seen)
      = ((List.range n).filter (· ∉ seen)).filter (· ≠ v) := by
    rw [List.filter_filter]
    refine List.filter_congr fun u _ => ?_
    simp [not_or]
  rw [unseen, split, unseen]
  exact List.length_filter_lt_length_iff_exists.2
    ⟨v, List.mem_filter.2 ⟨List.mem_range.2 lt, by simpa using fresh⟩, by simp⟩

/-- A search goes on from `s` to `s'` by visiting `roots`, which adds the nodes `new`. -/
structure Adds (next : Nat → List Nat) (s : Search) (roots new : List Nat) (s' : Search) :
    Prop where
  /-- The new nodes are finished, and nothing else is. -/
  finished : s'.finished = new ++ s.finished
  /-- The new nodes are met, and nothing else is. -/
  seen : ∀ x, x ∈ s'.seen ↔ x ∈ new ∨ x ∈ s.seen
  /-- No node is new twice. -/
  nodup : new.Nodup
  /-- A new node was not met before. -/
  fresh : ∀ x ∈ new, x ∉ s.seen
  /-- All successors of a new node are met. -/
  closed : ∀ x ∈ new, ∀ y ∈ next x, y ∈ s'.seen
  /-- A new node is reached from a root. -/
  reached : ∀ x ∈ new, ∃ r ∈ roots, ReflTransGen (Leads next) r x
  /-- The roots are met. -/
  roots : ∀ r ∈ roots, r ∈ s'.seen

section

variable {next : Nat → List Nat} {n : Nat} {s s' s'' : Search} {roots roots' new new' : List Nat}

/-- A search forgets nothing that it met. -/
theorem Adds.grown (h : Adds next s roots new s') : s.seen ⊆ s'.seen :=
  fun x hx => (h.seen x).2 (.inr hx)

/-- Without roots nothing is added. -/
theorem Adds.refl (s : Search) : Adds next s [] [] s where
  finished := rfl
  seen _ := by simp
  nodup := .nil
  fresh _ h := nomatch h
  closed _ h := nomatch h
  reached _ h := nomatch h
  roots _ h := nomatch h

/-- Nor is anything by a root that was met. -/
theorem Adds.of_seen {v : Nat} (met : v ∈ s.seen) : Adds next s [v] [] s :=
  { Adds.refl s with
    reached := fun _ h => nomatch h
    roots := fun r hr => by rw [List.mem_singleton.1 hr]; exact met }

/-- Two visits, one after the other, add what both add. -/
theorem Adds.trans (h : Adds next s roots new s') (h' : Adds next s' roots' new' s'') :
    Adds next s (roots ++ roots') (new' ++ new) s'' where
  finished := by rw [h'.finished, h.finished, List.append_assoc]
  seen x := by rw [h'.seen, h.seen, List.mem_append, or_assoc]
  nodup := by
    refine List.nodup_append.2 ⟨h'.nodup, h.nodup, fun x hx y hy same => ?_⟩
    subst same
    exact h'.fresh x hx ((h.seen x).2 (.inl hy))
  fresh x hx := by
    rcases List.mem_append.1 hx with hx | hx
    · exact fun old => h'.fresh x hx (h.grown old)
    · exact h.fresh x hx
  closed x hx y hy := by
    rcases List.mem_append.1 hx with hx | hx
    · exact h'.closed x hx y hy
    · exact h'.grown (h.closed x hx y hy)
  reached x hx := by
    rcases List.mem_append.1 hx with hx | hx
    · obtain ⟨r, hr, path⟩ := h'.reached x hx
      exact ⟨r, List.mem_append_right _ hr, path⟩
    · obtain ⟨r, hr, path⟩ := h.reached x hx
      exact ⟨r, List.mem_append_left _ hr, path⟩
  roots r hr := by
    rcases List.mem_append.1 hr with hr | hr
    · exact h'.grown (h.roots r hr)
    · exact h'.roots r hr

/-- A node is done once all of its successors are visited. -/
theorem Adds.finish {v : Nat} (fresh : v ∉ s.seen)
    (below : Adds next { s with seen := v :: s.seen } (next v) new s') :
    Adds next s [v] (v :: new) { s' with finished := v :: s'.finished } where
  finished := by simp [below.finished]
  seen x := by
    rw [below.seen, List.mem_cons, List.mem_cons, or_left_comm, or_assoc]
  nodup := List.nodup_cons.2 ⟨fun h => below.fresh v h List.mem_cons_self, below.nodup⟩
  fresh x hx := by
    rcases List.mem_cons.1 hx with rfl | hx
    · exact fresh
    · exact fun old => below.fresh x hx (List.mem_cons_of_mem _ old)
  closed x hx y hy := by
    rcases List.mem_cons.1 hx with rfl | hx
    · exact below.roots y hy
    · exact below.closed x hx y hy
  reached x hx := by
    refine ⟨v, List.mem_singleton_self v, ?_⟩
    rcases List.mem_cons.1 hx with rfl | hx
    · exact .refl
    · obtain ⟨r, hr, path⟩ := below.reached x hx
      exact .head hr path
  roots r hr := by
    rw [List.mem_singleton.1 hr]
    exact below.grown List.mem_cons_self

/-- Visiting one root after the other, where each visit adds something at every search with at most
`depth` nodes unseen. -/
theorem foldl_adds {step : Search → Nat → Search} {depth : Nat}
    (visits : ∀ s v, v < n → unseen n s.seen ≤ depth → ∃ new, Adds next s [v] new (step s v)) :
    ∀ (vs : List Nat) (s : Search), (∀ v ∈ vs, v < n) → unseen n s.seen ≤ depth →
      ∃ new, Adds next s vs new (vs.foldl step s)
  | [], s, _, _ => ⟨[], .refl s⟩
  | v :: vs, s, inRange, enough => by
    obtain ⟨new, first⟩ := visits s v (inRange v List.mem_cons_self) enough
    obtain ⟨new', rest⟩ := foldl_adds visits vs (step s v)
      (fun u hu => inRange u (List.mem_cons_of_mem _ hu))
      (Nat.le_trans (unseen_le_of_subset first.grown) enough)
    exact ⟨_, first.trans rest⟩

/-- A visit that may go as deep as there are unseen nodes meets all that it should. -/
theorem visit_adds (bounded : ∀ v, ∀ u ∈ next v, u < n) :
    ∀ (depth : Nat) (s : Search) (v : Nat), v < n → unseen n s.seen ≤ depth →
      ∃ new, Adds next s [v] new (visit next depth s v)
  | 0, s, v, lt, enough => by
    have met : v ∈ s.seen := Decidable.byContradiction fun fresh =>
      absurd (unseen_cons_lt lt fresh) (by omega)
    exact ⟨[], .of_seen met⟩
  | depth + 1, s, v, lt, enough => by
    unfold visit
    split
    next met => exact ⟨[], .of_seen met⟩
    next fresh =>
      have fewer : unseen n (v :: s.seen) ≤ depth :=
        Nat.le_of_lt_succ (Nat.lt_of_lt_of_le (unseen_cons_lt lt fresh) enough)
      obtain ⟨new, below⟩ := foldl_adds (visit_adds bounded depth) (next v)
        { s with seen := v :: s.seen } (bounded v) fewer
      exact ⟨v :: new, below.finish fresh⟩

/-- Of so many nodes no more are unseen. -/
theorem unseen_le (n : Nat) (seen : List Nat) : unseen n seen ≤ n := by
  simpa [unseen] using List.length_filter_le (fun v => decide (v ∉ seen)) (List.range n)

/-- The search of all nodes visits every one of them. -/
theorem all_adds (bounded : ∀ v, ∀ u ∈ next v, u < n) :
    Adds next {} (List.range n) (all next n).finished (all next n) := by
  obtain ⟨new, h⟩ := foldl_adds (visit_adds bounded n) (List.range n) {}
    (fun v hv => List.mem_range.1 hv) (unseen_le n _)
  have same : (all next n).finished = new := h.finished.trans (List.append_nil new)
  rw [same]
  exact h

/-- The search of all nodes finishes exactly the nodes. -/
theorem mem_finished_all (bounded : ∀ v, ∀ u ∈ next v, u < n) {v : Nat} :
    v ∈ (all next n).finished ↔ v < n := by
  have h := all_adds bounded
  refine ⟨?_, ?_⟩
  · intro hv
    obtain ⟨r, hr, path⟩ := h.reached v hv
    cases path with
    | refl => exact List.mem_range.1 hr
    | tail _ last => exact bounded _ v last
  · intro lt
    simpa using (h.seen v).1 (h.roots v (List.mem_range.2 lt))

end

/-! ## Finishing order -/

/-- Every node of a list stands before its successors, all of which are listed. -/
inductive Finishing (next : Nat → List Nat) : List Nat → Prop where
  | nil : Finishing next []
  | cons {v : Nat} {l : List Nat} (before : ∀ u ∈ next v, u ∈ l) (rest : Finishing next l) :
    Finishing next (v :: l)

section

variable {next : Nat → List Nat} {n : Nat}

/-- The successors of a finished node stand behind it. -/
theorem Finishing.mem_of_append {l r : List Nat} {v : Nat} (h : Finishing next (l ++ v :: r)) :
    ∀ u ∈ next v, u ∈ r := by
  induction l with
  | nil => cases h with | cons before _ => exact before
  | cons _ l ih => cases h with | cons _ rest => exact ih rest

/-- A node stands before each of its successors, where no node is listed twice. -/
theorem Finishing.mem_before {l r : List Nat} {u v : Nat} (h : Finishing next (l ++ v :: r))
    (distinct : (l ++ v :: r).Nodup) (listed : u ∈ l ++ v :: r) (step : v ∈ next u) : u ∈ l := by
  refine (List.mem_append.1 listed).resolve_right fun later => ?_
  obtain ⟨l', r', split⟩ := List.append_of_mem later
  rw [split, ← List.append_assoc] at h
  have behind : v ∈ r' := h.mem_of_append v step
  have once : v ∉ r := (List.nodup_cons.1 (List.nodup_append.1 distinct).2.1).1
  cases l' with
  | nil =>
    obtain ⟨-, rfl⟩ := List.cons.inj split
    exact once behind
  | cons w l' =>
    obtain ⟨-, rfl⟩ := List.cons.inj split
    exact once (List.mem_append_right l' (List.mem_cons_of_mem u behind))

/-- Every successor of a node of a list stands behind it or leads back to it. -/
inductive Returning (next : Nat → List Nat) : List Nat → Prop where
  | nil : Returning next []
  | cons {v : Nat} {l : List Nat} (behind : ∀ u ∈ next v, u ∈ l ∨ TransGen (Leads next) u v)
    (rest : Returning next l) : Returning next (v :: l)

/-- A successor that does not stand behind a node leads back to it. -/
theorem Returning.leads_back {l r : List Nat} {u v : Nat} (h : Returning next (l ++ v :: r))
    (step : u ∈ next v) (notBehind : u ∉ r) : TransGen (Leads next) u v := by
  induction l with
  | nil => cases h with | cons behind _ => exact (behind u step).resolve_left notBehind
  | cons _ l ih => cases h with | cons _ rest => exact ih rest

/-- Without cycles no successor leads back, so all of them stand behind the node. -/
theorem Returning.finishing (acyclic : ∀ v, ¬ TransGen (Leads next) v v) {l : List Nat}
    (h : Returning next l) : Finishing next l := by
  induction h with
  | nil => exact .nil
  | cons behind _ ih =>
    refine .cons (fun u step => (behind u step).resolve_right fun back => ?_) ih
    exact acyclic u (back.tail step)

/-- The nodes that are met but not finished lead to `v`. -/
def OpenTo (next : Nat → List Nat) (s : Search) (v : Nat) : Prop :=
  ∀ x ∈ s.seen, x ∉ s.finished → TransGen (Leads next) x v

/-- A visit leaves no node met but unfinished that was not so before. -/
theorem Adds.openTo {s s' : Search} {roots new : List Nat} {v : Nat}
    (h : Adds next s roots new s') (opened : OpenTo next s v) : OpenTo next s' v := by
  intro x met unfinished
  rw [h.finished, List.mem_append, not_or] at unfinished
  exact opened x (((h.seen x).1 met).resolve_left unfinished.1) unfinished.2

/-- Visiting one successor after the other keeps what is finished returning, if each visit does. -/
theorem foldl_returning {step : Search → Nat → Search} {depth : Nat}
    (visits : ∀ s v, v < n → unseen n s.seen ≤ depth → ∃ new, Adds next s [v] new (step s v))
    (keeps : ∀ s v, v < n → unseen n s.seen ≤ depth → OpenTo next s v → Returning next s.finished →
      Returning next (step s v).finished) :
    ∀ (vs : List Nat) (s : Search), (∀ u ∈ vs, u < n) → (∀ u ∈ vs, OpenTo next s u) →
      unseen n s.seen ≤ depth → Returning next s.finished →
        Returning next (vs.foldl step s).finished
  | [], _, _, _, _, order => order
  | u :: vs, s, inRange, opened, enough, order => by
    have lt := inRange u List.mem_cons_self
    obtain ⟨new, first⟩ := visits s u lt enough
    exact foldl_returning visits keeps vs (step s u)
      (fun w hw => inRange w (List.mem_cons_of_mem _ hw))
      (fun w hw => first.openTo (opened w (List.mem_cons_of_mem _ hw)))
      (Nat.le_trans (unseen_le_of_subset first.grown) enough)
      (keeps s u lt enough (opened u List.mem_cons_self) order)

/-- A visit keeps what is finished returning: a successor that was met but is not finished when its
node is done is the node itself or one of those under way above it, which lead to it. -/
theorem visit_returning (bounded : ∀ v, ∀ u ∈ next v, u < n) :
    ∀ (depth : Nat) (s : Search) (v : Nat), v < n → unseen n s.seen ≤ depth → OpenTo next s v →
      Returning next s.finished → Returning next (visit next depth s v).finished
  | 0, _, _, _, _, _, order => order
  | depth + 1, s, v, lt, enough, opened, order => by
    unfold visit
    split
    next => exact order
    next fresh =>
      have fewer : unseen n (v :: s.seen) ≤ depth :=
        Nat.le_of_lt_succ (Nat.lt_of_lt_of_le (unseen_cons_lt lt fresh) enough)
      -- the nodes under way are those above `v` and `v` itself
      have openBelow : ∀ u ∈ next v, OpenTo next { s with seen := v :: s.seen } u := by
        intro u hu x met unfinished
        rcases List.mem_cons.1 met with rfl | met
        · exact .single hu
        · exact (opened x met unfinished).tail hu
      obtain ⟨new, below⟩ := foldl_adds (visit_adds bounded depth) (next v)
        { s with seen := v :: s.seen } (bounded v) fewer
      refine .cons (fun u hu => ?_) (foldl_returning (visit_adds bounded depth)
        (visit_returning bounded depth) (next v) _ (bounded v) openBelow fewer order)
      refine Decidable.or_iff_not_imp_left.2 fun unfinished => ?_
      rw [below.finished, List.mem_append, not_or] at unfinished
      have met := ((below.seen u).1 (below.roots u hu)).resolve_left unfinished.1
      rcases List.mem_cons.1 met with rfl | above
      · exact .single hu
      · exact opened u above unfinished.2

/-- The search of all nodes lists every node before those of its successors that do not lead back to
it. -/
theorem all_returning (bounded : ∀ v, ∀ u ∈ next v, u < n) :
    Returning next (all next n).finished := by
  have visits : ∀ s v, v < n → unseen n s.seen ≤ n →
      ∃ new, Adds next s [v] new (visit next n s v) :=
    visit_adds bounded n
  have keeps := visit_returning bounded n
  exact foldl_returning visits keeps (List.range n) {} (fun v hv => List.mem_range.1 hv)
    (fun u _ x met => nomatch met) (unseen_le n _) .nil

/-- Without cycles the search of all nodes lists every node before its successors. -/
theorem all_finishing (bounded : ∀ v, ∀ u ∈ next v, u < n)
    (acyclic : ∀ v, ¬ TransGen (Leads next) v v) : Finishing next (all next n).finished :=
  (all_returning bounded).finishing acyclic

end

/-! ## Queues -/

/-- The unmet nodes of a list are those that were not met before. -/
theorem mem_unmet {u : Nat} : ∀ {vs seen : List Nat}, u ∈ unmet seen vs ↔ u ∈ vs ∧ u ∉ seen
  | [], seen => by simp [unmet]
  | v :: vs, seen => by
    rw [unmet]
    split
    next met =>
      have other : u ∉ seen → u ≠ v := fun fresh same => fresh (same ▸ met)
      rw [mem_unmet, List.mem_cons]
      exact and_congr_left fun fresh => (or_iff_right (other fresh)).symm
    next fresh =>
      rw [List.mem_cons, mem_unmet, List.mem_cons, List.mem_cons, not_or]
      by_cases same : u = v
      · simp [same, fresh]
      · simp [same]

/-- They are listed once each. -/
theorem nodup_unmet : ∀ vs seen : List Nat, (unmet seen vs).Nodup
  | [], _ => .nil
  | v :: vs, seen => by
    rw [unmet]
    split
    next => exact nodup_unmet vs seen
    next =>
      refine List.nodup_cons.2 ⟨fun again => ?_, nodup_unmet vs _⟩
      exact (mem_unmet.1 again).2 List.mem_cons_self

/-- A search from `root`, before which the nodes `old` were met, is under way: the nodes that it has
met are done or in the queue. -/
structure Sweeping (next : Nat → List Nat) (old : List Nat) (root : Nat) (s : Search)
    (queue : List Nat) : Prop where
  /-- The nodes that are done, those in the queue and the old ones are met, and nothing else is. -/
  seen : ∀ x, x ∈ s.seen ↔ x ∈ s.finished ++ queue ∨ x ∈ old
  /-- No node is done or in the queue twice. -/
  nodup : (s.finished ++ queue).Nodup
  /-- No old node is done or in the queue. -/
  fresh : ∀ x ∈ s.finished ++ queue, x ∉ old
  /-- All successors of a node that is done are met. -/
  closed : ∀ x ∈ s.finished, ∀ y ∈ next x, y ∈ s.seen
  /-- A node that is done or in the queue is reached from the root. -/
  reached : ∀ x ∈ s.finished ++ queue, ReflTransGen (Leads next) root x
  /-- The root is met. -/
  root : root ∈ s.seen

section

variable {next : Nat → List Nat} {old queue : List Nat} {root n v : Nat} {s : Search}

/-- A search starts with its root in the queue. -/
theorem sweeping_start (next : Nat → List Nat) (fresh : root ∉ old) :
    Sweeping next old root ⟨root :: old, []⟩ [root] where
  seen x := by simp
  nodup := List.nodup_cons.2 ⟨List.not_mem_nil, .nil⟩
  fresh x hx := by
    rw [List.nil_append, List.mem_singleton] at hx
    exact hx ▸ fresh
  closed _ h := nomatch h
  reached x hx := by
    rw [List.nil_append, List.mem_singleton] at hx
    exact hx ▸ .refl
  root := List.mem_cons_self

/-- One round: the front of the queue is done, and its successors join. -/
theorem Sweeping.round (h : Sweeping next old root s (v :: queue)) :
    Sweeping next old root ⟨unmet s.seen (next v) ++ s.seen, v :: s.finished⟩
      (queue ++ unmet s.seen (next v)) := by
  have perm : (v :: s.finished ++ (queue ++ unmet s.seen (next v))).Perm
      (s.finished ++ v :: queue ++ unmet s.seen (next v)) := by
    rw [← List.append_assoc]
    exact List.perm_middle.symm.append_right _
  have joining {x : Nat} (hx : x ∈ unmet s.seen (next v)) :
      x ∉ s.finished ++ v :: queue ∧ x ∉ old := by
    rw [← not_or, ← h.seen]
    exact (mem_unmet.1 hx).2
  have front : v ∈ s.finished ++ v :: queue := List.mem_append_right _ List.mem_cons_self
  refine ⟨fun x => ?_, perm.nodup_iff.2 ?_, fun x hx => ?_, fun x hx y hy => ?_, fun x hx => ?_,
    List.mem_append_right _ h.root⟩
  · rw [perm.mem_iff, List.mem_append, List.mem_append (t := unmet _ _), h.seen, or_assoc,
      or_left_comm]
  · exact List.nodup_append.2 ⟨h.nodup, nodup_unmet _ _, fun x hx y hy same =>
      (joining hy).1 (same ▸ hx)⟩
  · rcases List.mem_append.1 (perm.mem_iff.1 hx) with hx | hx
    · exact h.fresh x hx
    · exact (joining hx).2
  · rcases List.mem_cons.1 hx with rfl | hx
    · by_cases met : y ∈ s.seen
      · exact List.mem_append_right _ met
      · exact List.mem_append_left _ (mem_unmet.2 ⟨hy, met⟩)
    · exact List.mem_append_right _ (h.closed x hx y hy)
  · rcases List.mem_append.1 (perm.mem_iff.1 hx) with hx | hx
    · exact h.reached x hx
    · exact (h.reached v front).tail (mem_unmet.1 hx).1

/-- The queue is empty once as many nodes are done as there are: all that are done or in the queue are
distinct nodes. -/
theorem Sweeping.queue_eq_nil (h : Sweeping next old root s queue) (lt : root < n)
    (bounded : ∀ v, ∀ u ∈ next v, u < n) (all : n ≤ s.finished.length) : queue = [] := by
  have inRange : s.finished ++ queue ⊆ List.range n := by
    intro x hx
    rw [List.mem_range]
    cases h.reached x hx with
    | refl => exact lt
    | tail _ last => exact bounded _ x last
  have le := (List.subperm_of_subset h.nodup inRange).length_le
  rw [List.length_append, List.length_range] at le
  exact List.eq_nil_of_length_eq_zero (by omega)

/-- The queue runs empty if there are rounds enough for the nodes that are not done yet. -/
theorem Sweeping.drained (lt : root < n) (bounded : ∀ v, ∀ u ∈ next v, u < n) :
    ∀ {rounds : Nat} {s : Search} {queue : List Nat}, Sweeping next old root s queue →
      n ≤ rounds + s.finished.length → Sweeping next old root (sweep next rounds s queue) []
  | 0, s, queue, h, enough => by
    obtain rfl := h.queue_eq_nil lt bounded (by omega)
    exact h
  | rounds + 1, s, [], h, _ => h
  | rounds + 1, s, v :: queue, h, enough => by
    refine h.round.drained lt bounded ?_
    rw [List.length_cons]
    omega

/-- Further rounds change nothing. -/
theorem Sweeping.sweep_eq (lt : root < n) (bounded : ∀ v, ∀ u ∈ next v, u < n) :
    ∀ {rounds more : Nat} {s : Search} {queue : List Nat}, Sweeping next old root s queue →
      n ≤ rounds + s.finished.length → rounds ≤ more →
        sweep next more s queue = sweep next rounds s queue
  | 0, more, s, queue, h, enough, _ => by
    obtain rfl := h.queue_eq_nil lt bounded (by omega)
    cases more <;> rfl
  | rounds + 1, more + 1, s, [], h, _, _ => rfl
  | rounds + 1, more + 1, s, v :: queue, h, enough, le => by
    refine h.round.sweep_eq lt bounded ?_ (Nat.le_of_succ_le_succ le)
    rw [List.length_cons]
    omega

/-- A search with an empty queue adds what is done. -/
theorem Sweeping.adds (h : Sweeping next old root s []) :
    Adds next ⟨old, []⟩ [root] s.finished s := by
  obtain ⟨seen, nodup, fresh, closed, reached, met⟩ := h
  rw [List.append_nil] at seen nodup fresh reached
  exact {
    finished := (List.append_nil _).symm
    seen, nodup, fresh, closed
    reached := fun x hx => ⟨root, List.mem_singleton_self root, reached x hx⟩
    roots := fun r hr => (List.mem_singleton.1 hr).symm ▸ met }

/-- A breadth-first search with as many rounds as there are nodes meets all that it should. -/
theorem sweep_adds (bounded : ∀ v, ∀ u ∈ next v, u < n) (lt : root < n) (fresh : root ∉ old) :
    Adds next ⟨old, []⟩ [root] (sweep next n ⟨root :: old, []⟩ [root]).finished
      (sweep next n ⟨root :: old, []⟩ [root]) :=
  ((sweeping_start next fresh).drained lt bounded (Nat.le_refl n)).adds

end

end StagePlan.Search
