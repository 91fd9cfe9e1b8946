import Mathlib.Logic.Basic

/-!
# Results

Computations that can fail are `Except` values. A sequence of two succeeds if both do and fails if
one of them does (`bind_eq_ok`, `bind_eq_error`), and a traversal of a list succeeds exactly if
every step does, with the values of the steps (`exists_mapM_eq_ok`, `exists_of_mem_mapM`,
`exists_mem_of_mapM`, `exists_of_mapM_eq_error`). Two computations `Agree` if they end alike, which
sequences of them do step by step (`Agree.bind`).
-/

namespace StagePlan.Results

variable {α β ε : Type}

/-- A computation that goes on with the value of another one succeeds if both do. -/
theorem bind_eq_ok {x : Except ε α} {f : α → Except ε β} {b : β} :
    x >>= f = .ok b ↔ ∃ a, x = .ok a ∧ f a = .ok b := by
  cases x with
  | error e => exact ⟨fun h => (nomatch h), fun ⟨_, h, _⟩ => (nomatch h)⟩
  | ok a => exact ⟨fun h => ⟨a, rfl, h⟩, fun ⟨_, same, h⟩ => Except.ok.inj same ▸ h⟩

/-- A computation that goes on with the value of another one fails if one of them does. -/
theorem bind_eq_error {x : Except ε α} {f : α → Except ε β} {e : ε} :
    x >>= f = .error e ↔ x = .error e ∨ ∃ a, x = .ok a ∧ f a = .error e := by
  cases x with
  | error e' =>
    exact ⟨fun h => .inl (congrArg _ (Except.error.inj h)), fun h => h.elim
      (fun same => congrArg _ (Except.error.inj same)) fun ⟨_, same, _⟩ => (nomatch same)⟩
  | ok a =>
    exact ⟨fun h => .inr ⟨a, rfl, h⟩, fun h => h.elim (fun same => (nomatch same))
      fun ⟨_, same, h⟩ => Except.ok.inj same ▸ h⟩

/-- Every value of a traversal that succeeds is the value of one of its steps. -/
theorem exists_of_mem_mapM {f : α → Except ε β} :
    ∀ {l : List α} {bs : List β}, l.mapM f = .ok bs → ∀ b ∈ bs, ∃ a ∈ l, f a = .ok b
  | [], bs, h, b, hb => by
    cases h
    cases hb
  | a :: l, bs, h, b, hb => by
    rw [List.mapM_cons] at h
    obtain ⟨c, first, h⟩ := bind_eq_ok.1 h
    obtain ⟨cs, rest, h⟩ := bind_eq_ok.1 h
    cases h
    rcases List.mem_cons.1 hb with rfl | hb
    · exact ⟨a, List.mem_cons_self, first⟩
    · obtain ⟨x, hx, value⟩ := exists_of_mem_mapM rest b hb
      exact ⟨x, List.mem_cons_of_mem a hx, value⟩

/-- Every step of a traversal that succeeds has a value in it. -/
theorem exists_mem_of_mapM {f : α → Except ε β} :
    ∀ {l : List α} {bs : List β}, l.mapM f = .ok bs → ∀ a ∈ l, ∃ b ∈ bs, f a = .ok b
  | c :: l, bs, h, a, ha => by
    rw [List.mapM_cons] at h
    obtain ⟨b, first, h⟩ := bind_eq_ok.1 h
    obtain ⟨bs, rest, h⟩ := bind_eq_ok.1 h
    cases h
    rcases List.mem_cons.1 ha with rfl | ha
    · exact ⟨b, List.mem_cons_self, first⟩
    · obtain ⟨x, hx, value⟩ := exists_mem_of_mapM rest a ha
      exact ⟨x, List.mem_cons_of_mem b hx, value⟩

/-- A traversal of which every step succeeds succeeds. -/
theorem exists_mapM_eq_ok {f : α → Except ε β} :
    ∀ {l : List α}, (∀ a ∈ l, ∃ b, f a = .ok b) → ∃ bs, l.mapM f = .ok bs
  | [], _ => ⟨[], rfl⟩
  | a :: l, steps => by
    obtain ⟨b, first⟩ := steps a List.mem_cons_self
    obtain ⟨bs, rest⟩ := exists_mapM_eq_ok fun c hc => steps c (List.mem_cons_of_mem a hc)
    refine ⟨b :: bs, ?_⟩
    rw [List.mapM_cons, first, rest]
    rfl

/-- One of the steps of a traversal that fails fails with its error. -/
theorem exists_of_mapM_eq_error {f : α → Except ε β} {e : ε} :
    ∀ {l : List α}, l.mapM f = .error e → ∃ a ∈ l, f a = .error e
  | [], h => nomatch h
  | a :: l, h => by
    rw [List.mapM_cons] at h
    rcases bind_eq_error.1 h with first | ⟨b, -, h⟩
    · exact ⟨a, List.mem_cons_self, first⟩
    rcases bind_eq_error.1 h with rest | ⟨bs, -, h⟩
    · obtain ⟨c, member, value⟩ := exists_of_mapM_eq_error rest
      exact ⟨c, List.mem_cons_of_mem a member, value⟩
    · cases h

/-! ## Computations side by side -/

/-- Two computations succeed with related values or fail with related errors. -/
inductive Agree {ε' : Type} (related : α → β → Prop) (alike : ε → ε' → Prop) :
    Except ε α → Except ε' β → Prop
  | ok {a : α} {b : β} : related a b → Agree related alike (.ok a) (.ok b)
  | error {e : ε} {e' : ε'} : alike e e' → Agree related alike (.error e) (.error e')

section

variable {α' β' ε' : Type} {related : α → β → Prop} {related' : α' → β' → Prop}
  {related'' : α' → β → Prop}
  {alike : ε → ε' → Prop} {x : Except ε α} {y : Except ε' β}

/-- A computation agrees with itself. -/
theorem Agree.refl (x : Except ε α) : Agree Eq Eq x x := by
  cases x with
  | ok a => exact .ok rfl
  | error e => exact .error rfl

/-- Computations that are the same once their values are changed agree on what is left of these. -/
theorem Agree.of_map {x y : Except ε α} {f : α → β} (same : x.map f = y.map f) :
    Agree (fun a b => f a = f b) Eq x y := by
  cases x with
  | ok a =>
    cases y with
    | ok b => exact .ok (Except.ok.inj same)
    | error e => cases same
  | error e =>
    cases y with
    | ok b => cases same
    | error e' => exact .error (Except.error.inj same)

/-- Sequences agree if they go on in agreement from what they agree on. -/
theorem Agree.bind {f : α → Except ε α'} {g : β → Except ε' β'} (agree : Agree related alike x y)
    (next : ∀ a b, x = .ok a → y = .ok b → related a b → Agree related' alike (f a) (g b)) :
    Agree related' alike (x >>= f) (y >>= g) := by
  cases agree with
  | ok both => exact next _ _ rfl rfl both
  | error both => exact .error both

/-- Computations agree where the value of one of them is changed in agreement. -/
theorem Agree.map_left {f : α → α'} (agree : Agree related alike x y)
    (keeps : ∀ a b, related a b → related'' (f a) b) :
    Agree related'' alike (x >>= fun a => pure (f a)) y := by
  cases agree with
  | ok both => exact .ok (keeps _ _ both)
  | error both => exact .error both

/-- Of two computations that agree both succeed or both fail. -/
theorem Agree.ends (agree : Agree related alike x y) :
    (∃ a b, x = .ok a ∧ y = .ok b) ∨ ∃ e e', x = .error e ∧ y = .error e' ∧ alike e e' := by
  cases agree with
  | ok _ => exact .inl ⟨_, _, rfl, rfl⟩
  | error both => exact .inr ⟨_, _, rfl, rfl, both⟩

end

end StagePlan.Results
