import Mathlib.Data.List.Nodup
import StagePlan.Proofs.Layers

/-!
# Profiles over profiles

A profile set is determined by what it answers (`ProfileSet.ext`), and a set laid over another one
answers first (`ProfileSet.get?_merge`), so that it makes no difference to lay it over twice.
Settings with further profiles answer with these first, and declare their scopes as layers without
declaring one twice (`BuildSettings.Carries`). Profiles that are added one set after the other give
the same layers as both at once, in another order at most. `BuildSettings.withProfiles_compose`
concludes that they give the same graphs.
-/

namespace StagePlan

namespace ProfileSet

variable {s t : ProfileSet}

/-! ## What a set answers -/

/-- Looking up in a list that goes on behind an entry is looking at this entry first. -/
theorem lookup_cons (e : String × LayerProfile) (entries : List (String × LayerProfile))
    (k : String) : (e :: entries).lookup k = if k = e.1 then some e.2 else entries.lookup k := by
  rw [List.lookup_cons]
  by_cases same : k = e.1
  · rw [beq_iff_eq.2 same, if_pos same]
  · rw [beq_false_of_ne same, if_neg same]

/-- A placed entry is found under its scope, and all others as before. -/
theorem lookup_place (scope : String) (profile : LayerProfile) (k : String) :
    ∀ entries : List (String × LayerProfile), (Keyed.place (·.1) (scope, profile) entries).lookup k =
      if k = scope then some profile else entries.lookup k
  | [] => lookup_cons _ _ _
  | e :: entries => by
    unfold Keyed.place
    split
    next => exact lookup_cons _ _ _
    next =>
      split
      next same =>
        rw [lookup_cons, lookup_cons, ← same]
        split <;> rfl
      next other =>
        rw [lookup_cons, lookup_cons, lookup_place scope profile k entries]
        by_cases same : k = scope
        · rw [if_pos same, if_pos same, if_neg (same ▸ other)]
        · rw [if_neg same, if_neg same]

/-- An inserted profile answers for its scope, and all others as before. -/
theorem get?_insert (s : ProfileSet) (scope : String) (profile : LayerProfile) (k : String) :
    (s.insert scope profile).get? k = if k = scope then some profile else s.get? k :=
  lookup_place scope profile k s.entries

/-- Entries with ascending scopes that are put into a set answer first. -/
theorem get?_foldl_insert (k : String) : ∀ {entries : List (String × LayerProfile)}
    (_ : entries.Pairwise (fun a b => a.1 < b.1)) (s : ProfileSet),
      (entries.foldl (fun s e => s.insert e.1 e.2) s).get? k = (entries.lookup k).or (s.get? k)
  | [], _, _ => rfl
  | e :: entries, ascending, s => by
    obtain ⟨first, rest⟩ := List.pairwise_cons.1 ascending
    rw [List.foldl_cons, get?_foldl_insert k rest, get?_insert, lookup_cons]
    by_cases same : k = e.1
    · -- no later entry takes the place of the first one
      have missing : entries.lookup k = none := by
        refine List.lookup_eq_none_iff.2 fun e' member => bne_iff_ne.2 fun same' => ?_
        exact String.lt_irrefl e.1 (by simpa [← same, same'] using first e' member)
      rw [missing, if_pos same, if_pos same]
      rfl
    · rw [if_neg same, if_neg same]

/-- A set that is laid over another one answers first. -/
theorem get?_merge (s upper : ProfileSet) (k : String) :
    (s.merge upper).get? k = (upper.get? k).or (s.get? k) :=
  get?_foldl_insert k upper.ascending s

/-- A set has one entry for a scope. -/
theorem nodup_scopes (s : ProfileSet) : s.scopes.Nodup := by
  refine List.pairwise_map.2 (s.ascending.imp fun lt same => ?_)
  exact String.lt_irrefl _ (same ▸ lt)

/-- Where no scope is listed twice, a profile is found just if its entry is listed. -/
theorem lookup_eq_some {k : String} {profile : LayerProfile} :
    ∀ {entries : List (String × LayerProfile)}, (entries.map (·.1)).Nodup →
      (entries.lookup k = some profile ↔ (k, profile) ∈ entries)
  | [], _ => by simp
  | e :: entries, distinct => by
    rw [List.map_cons, List.nodup_cons] at distinct
    rw [lookup_cons, List.mem_cons, ← lookup_eq_some distinct.2]
    by_cases same : k = e.1
    · -- the scope of the first entry is that of no later one
      have missing : entries.lookup k ≠ some profile := fun found =>
        distinct.1 (List.mem_map.2 ⟨_, (lookup_eq_some distinct.2).1 found, same⟩)
      rw [if_pos same, or_iff_left missing, Option.some.injEq, Prod.ext_iff]
      exact ⟨fun found => ⟨same, found.symm⟩, fun both => both.2.symm⟩
    · rw [if_neg same]
      exact (or_iff_right fun first => same (congrArg Prod.fst first)).symm

/-- A set answers with a profile just if it has the entry. -/
theorem get?_eq_some {k : String} {profile : LayerProfile} :
    s.get? k = some profile ↔ (k, profile) ∈ s.entries :=
  lookup_eq_some s.nodup_scopes

/-- The scopes of a set are those that it answers for. -/
theorem mem_scopes {k : String} : k ∈ s.scopes ↔ (s.get? k).isSome := by
  simp [scopes, Option.isSome_iff_exists, get?_eq_some]

/-- A set is determined by what it answers. -/
theorem ext (same : ∀ k, s.get? k = t.get? k) : s = t := by
  have entries : s.entries = t.entries := by
    have distinct (u : ProfileSet) : u.entries.Nodup := .of_map _ u.nodup_scopes
    have members : s.entries.Perm t.entries :=
      (List.perm_ext_iff_of_nodup (distinct s) (distinct t)).2 fun e => by
        rw [← get?_eq_some, ← get?_eq_some, same]
    refine members.eq_of_pairwise (fun a b _ _ lt gt => ?_) s.ascending t.ascending
    exact absurd gt (String.lt_asymm lt)
  cases s
  cases t
  cases entries
  rfl

/-- A set that is laid over another one twice changes nothing the second time. -/
theorem merge_self (s p : ProfileSet) : (s.merge p).merge p = s.merge p :=
  ext fun k => by simp only [get?_merge, ← Option.or_assoc, Option.or_self]

end ProfileSet

namespace BuildSettings

variable {s s' s'' : BuildSettings} {find find' : String → Option LayerProfile}

/-! ## What settings carry -/

/-- Settings carry further profiles. These answer first, and their scopes are layers, listed once or
as often as they were before. -/
structure Carries (s : BuildSettings) (find : String → Option LayerProfile) (s' : BuildSettings) :
    Prop where
  numInputs : s'.numInputs = s.numInputs
  parameterScopes : s'.parameterScopes = s.parameterScopes
  layer : ∀ scope, (find scope).isSome →
    s'.profiledLayers.count scope = max 1 (s.profiledLayers.count scope)
  other : ∀ scope, find scope = none →
    s'.profiledLayers.count scope = s.profiledLayers.count scope
  override : ∀ scope, s'.overrides.get? scope = (find scope).or (s.overrides.get? scope)

/-- The layers are the ones that were there, and the scopes of the further profiles. -/
theorem Carries.mem_layers (carries : s.Carries find s') (scope : String) :
    scope ∈ s'.profiledLayers ↔ scope ∈ s.profiledLayers ∨ (find scope).isSome := by
  rw [← List.count_pos_iff, ← List.count_pos_iff]
  cases found : find scope with
  | none => rw [carries.other scope found]; simp
  | some profile =>
    have count := carries.layer scope (by rw [found]; rfl)
    simp only [Option.isSome_some, or_true, iff_true]
    omega

/-- Settings that carry further profiles twice carry them all, the later ones first. -/
theorem Carries.trans (first : s.Carries find s') (second : s'.Carries find' s'') :
    s.Carries (fun scope => (find' scope).or (find scope)) s'' where
  numInputs := second.numInputs.trans first.numInputs
  parameterScopes := second.parameterScopes.trans first.parameterScopes
  layer scope some_ := by
    cases found' : find' scope with
    | none =>
      rw [second.other scope found']
      exact first.layer scope (by simpa [found'] using some_)
    | some profile' =>
      rw [second.layer scope (by rw [found']; rfl)]
      cases found : find scope with
      | none => rw [first.other scope found]
      | some profile =>
        rw [first.layer scope (by rw [found]; rfl)]
        omega
  other scope none_ := by
    obtain ⟨none', none_⟩ := Option.or_eq_none_iff.1 none_
    rw [second.other scope none', first.other scope none_]
  override scope := by rw [second.override, first.override, Option.or_assoc]

/-- Settings with profiles added carry these. -/
theorem withProfiles_carries (s : BuildSettings) (p : ProfileSet) :
    s.Carries p.get? (s.withProfiles p) := by
  have added (scope : String) : (s.withProfiles p).profiledLayers.count scope =
      s.profiledLayers.count scope +
        if scope ∈ p.scopes ∧ scope ∉ s.profiledLayers then 1 else 0 := by
    rw [withProfiles, List.count_append, (p.nodup_scopes.filter _).count]
    simp only [List.mem_filter, decide_eq_true_eq]
  refine ⟨rfl, rfl, fun scope some_ => ?_, fun scope none_ => ?_, s.overrides.get?_merge p⟩
  · rw [added]
    by_cases declared : scope ∈ s.profiledLayers
    · have pos := List.count_pos_iff.2 declared
      rw [if_neg fun new => new.2 declared, Nat.max_eq_right pos, Nat.add_zero]
    · rw [if_pos ⟨ProfileSet.mem_scopes.2 some_, declared⟩, List.count_eq_zero.2 declared]
      rfl
  · have missing : scope ∉ p.scopes := by rw [ProfileSet.mem_scopes, none_]; decide
    rw [added, if_neg fun new => missing new.1, Nat.add_zero]

/-- Settings that carry the same further profiles give the same graphs. -/
theorem Carries.ofTrace (carries : s.Carries find s') (carries' : s.Carries find s'') (t : Trace) :
    Graph.ofTrace t s' = Graph.ofTrace t s'' := by
  have labels : s''.SameLabels s' := by
    refine ⟨carries.numInputs.trans carries'.numInputs.symm,
      carries.parameterScopes.trans carries'.parameterScopes.symm,
      Builder.enclosingLayer?_congr fun scope _ => ?_⟩
    rw [carries.mem_layers, carries'.mem_layers]
  refine labels.ofTrace (ProfileSet.ext fun scope => ?_) t
  rw [carries.override, carries'.override]

/-- Profiles that are added twice are the same as once. -/
theorem withProfiles_withProfiles_self (s : BuildSettings) (p : ProfileSet) :
    (s.withProfiles p).withProfiles p = s.withProfiles p := by
  have none_ : p.scopes.filter (· ∉ (s.withProfiles p).profiledLayers) = [] := by
    refine List.filter_eq_nil_iff.2 fun scope member => ?_
    have layer := ((s.withProfiles_carries p).mem_layers scope).2
      (.inr (ProfileSet.mem_scopes.1 member))
    simp [layer]
  calc (s.withProfiles p).withProfiles p
    _ = { s.withProfiles p with
          profiledLayers := (s.withProfiles p).profiledLayers ++
            p.scopes.filter (· ∉ (s.withProfiles p).profiledLayers)
          overrides := (s.overrides.merge p).merge p } := rfl
    _ = s.withProfiles p := by rw [none_, List.append_nil, ProfileSet.merge_self]; rfl

/-- Profiles compose. Two sets that are added one after the other give the graphs that their union
gives, in which the second set answers first; a set that is added twice changes nothing the second
time; and in all cases the settings carry what was added to them. -/
theorem withProfiles_compose (s : BuildSettings) (p q : ProfileSet) :
    (∀ t, Graph.ofTrace t ((s.withProfiles p).withProfiles q)
      = Graph.ofTrace t (s.withProfiles (p.merge q))) ∧
    (s.withProfiles p).withProfiles p = s.withProfiles p ∧
    s.Carries p.get? (s.withProfiles p) ∧
    s.Carries (fun scope => (q.get? scope).or (p.get? scope)) ((s.withProfiles p).withProfiles q) ∧
    s.Carries (fun scope => (q.get? scope).or (p.get? scope)) (s.withProfiles (p.merge q)) := by
  have one := s.withProfiles_carries p
  have each := one.trans ((s.withProfiles p).withProfiles_carries q)
  have both := s.withProfiles_carries (p.merge q)
  rw [show (p.merge q).get? = fun scope => (q.get? scope).or (p.get? scope) from
    funext (p.get?_merge q)] at both
  exact ⟨each.ofTrace both, s.withProfiles_withProfiles_self p, one, each, both⟩

end BuildSettings

end StagePlan
