import StagePlan.Proofs.Json.Tokens

/-!
# Reading written JSON

A reader `Reads` a value as what it means if it takes the tokens of the value, and these only, off
the front of whatever comes. One reader after another takes what both take (`Takes.seq`), which all
readers of lists and objects come down to. Numbers, strings, lists and what may be missing are read
as they are written, and a record is read from an object if its fields are, one after the other
(`Members`, `Reads.record`). So the text of a value is read as what it means (`Reads.document`).
-/

namespace StagePlan.Json

/-- A reader takes tokens off the front of an input and answers what they mean. The input is a
variable of its own, because the type of what is left depends on it. -/
def Takes {α : Type} (read : Reader α) (ts : List Token) (a : α) : Prop :=
  ∀ input rest, input = ts ++ rest → ∃ left, read input = .ok (a, left) ∧ left.1 = rest

/-- A reader reads a value, whose text has its tokens, as what it means. -/
structure Reads {α : Type} (read : Reader α) (v : Json) (a : α) : Prop where
  lexable : Lexable v
  takes : Takes read (tokens v) a

section

variable {α β γ σ : Type} {read : Reader α} {v : Json} {a : α} {b : β} {t : Token}
  {ts ts' : List Token}

/-! ## Sequences -/

/-- Reads one value and then another. -/
def seq (read : Reader α) (next : α → Reader β) (f : α → β → γ) : Reader γ := fun input => do
  let (a, left) ← read input
  let (b, left') ← next a left.1
  return (f a b, left.trans left')

/-- Two readers in a row take the tokens of both. -/
theorem Takes.seq (first : Takes read ts a) (next : α → Reader β) (f : α → β → γ)
    (second : Takes (next a) ts' b) : Takes (seq read next f) (ts ++ ts') (f a b) := by
  intro input rest same
  obtain ⟨left, taken, behind⟩ := first input (ts' ++ rest) (same.trans (List.append_assoc _ _ _))
  obtain ⟨left', taken', behind'⟩ := second left.1 rest behind
  refine ⟨left.trans left', ?_, behind'⟩
  rw [Json.seq, taken]
  show (next a left.1 >>= _) = _
  rw [taken']
  rfl

/-- Readers that do the same on what starts with some tokens both take them. -/
theorem Takes.congr {read' : Reader α} (takes : Takes read ts a)
    (same : ∀ rest, read' (ts ++ rest) = read (ts ++ rest)) : Takes read' ts a := by
  rintro _ rest rfl
  obtain ⟨left, taken, behind⟩ := takes _ rest rfl
  exact ⟨left, (same rest).trans taken, behind⟩

/-- A reader that goes on as another one behind a token takes this token, too. -/
theorem Takes.cons {read' : Reader α} (takes : Takes read ts a)
    (follows : ∀ rest, read' (t :: (ts ++ rest))
      = (read (ts ++ rest)).map fun r => (r.1, r.2.ofTail)) : Takes read' (t :: ts) a := by
  rintro _ rest rfl
  obtain ⟨left, taken, behind⟩ := takes _ rest rfl
  refine ⟨left.ofTail, (follows rest).trans ?_, behind⟩
  rw [taken]
  rfl

/-- Two readers in a row, behind a token, are the first one behind it and then the other one. -/
theorem map_ofTail_seq (read : Reader α) (next : α → Reader β) (f : α → β → γ) (t : Token)
    (input : List Token) :
    ((seq read next f input).map fun r => (r.1, (r.2.ofTail : Rest (t :: input)))) = do
      let (a, left) ← read input
      let (b, left') ← next a left.1
      return (f a b, (left.trans left').ofTail) := by
  unfold seq
  cases read input with
  | error fault => rfl
  | ok r =>
    show ((next r.1 r.2.1 >>= _).map _ = (next r.1 r.2.1 >>= _))
    cases next r.1 r.2.1 <;> rfl

/-! ## Single tokens -/

/-- A token that is accepted is taken. -/
theorem Takes.token {accept : Token → Except Fault α} (accepted : accept t = .ok a) :
    Takes (Reader.token accept) [t] a := by
  rintro _ rest rfl
  refine ⟨⟨rest, Nat.lt_succ_self _⟩, ?_, rfl⟩
  show (accept t).map _ = _
  rw [accepted]
  rfl

/-- A value is read as what a function makes of its meaning. -/
theorem Reads.map (reads : Reads read v a) (f : α → β) : Reads (read.map f) v (f a) := by
  refine ⟨reads.lexable, fun input rest same => ?_⟩
  obtain ⟨left, taken, behind⟩ := reads.takes input rest same
  refine ⟨left, ?_, behind⟩
  rw [Reader.map, taken]
  rfl

/-- A word is read back from its value. -/
theorem Reads.natural {n : Nat} (word : n < StagePlan.Word.limit) :
    Reads Reader.natural (.nat n) n := by
  refine ⟨.number (scans_digits n), ?_⟩
  rw [nat, tokens, String.toList_ofList]
  refine .token ?_
  show (Numeral.ofLiteral (Decimal.digits n) >>= _) = _
  rw [ofLiteral_digits word]
  rfl

/-- A string is read back from its value. -/
theorem Reads.string (s : String) : Reads Reader.string (.string s) s := by
  refine ⟨.string s, ?_⟩
  rw [tokens]
  exact .token (scanString_quoted s).2

/-! ## What may be missing -/

/-- What is missing is read as missing, whatever it would have been. -/
theorem Reads.none (read : Reader α) : Reads (Reader.optional read) .null none := by
  refine ⟨.null, ?_⟩
  rintro _ rest rfl
  exact ⟨⟨rest, Nat.lt_succ_self _⟩, rfl, rfl⟩

/-- A list that is not missing is read as it is. -/
theorem Reads.some {items : List Json} (reads : Reads read (.array items) a) :
    Reads (Reader.optional read) (.array items) (some a) := by
  obtain ⟨lexable, takes⟩ := reads.map Option.some
  obtain ⟨ts, starts⟩ : ∃ ts, tokens (.array items) = .openArray :: ts := by
    cases items with
    | nil => exact ⟨_, rfl⟩
    | cons item items => exact ⟨_, rfl⟩
  refine ⟨lexable, fun input rest same => ?_⟩
  obtain ⟨left, taken, behind⟩ := takes input rest same
  refine ⟨left, ?_, behind⟩
  rw [starts] at same
  subst same
  exact taken

/-! ## Lists -/

/-- The items of a list are taken one after the other, up to the closing bracket. -/
theorem Takes.items {encode : β → Json} {read : Reader β} : ∀ {bs : List β},
    (∀ b ∈ bs, Takes read (tokens (encode b)) b) →
      Takes (Reader.items read) (itemTokens (bs.map encode) ++ [.closeArray]) bs
  | [], _ => by
    rintro _ rest rfl
    refine ⟨⟨rest, Nat.lt_succ_self _⟩, ?_, rfl⟩
    show Reader.items read (.closeArray :: rest) = _
    rw [Reader.items]
    rfl
  | b :: bs, each => by
    have others := Takes.items fun b' member => each b' (List.mem_cons_of_mem b member)
    have both := (each b List.mem_cons_self).seq (fun _ => Reader.items read) List.cons others
    rw [List.map_cons, itemTokens, List.cons_append, List.append_assoc]
    refine both.cons fun rest => ?_
    rw [map_ofTail_seq, Reader.items]

/-- A value does not start with the end of a list. -/
theorem exists_tokens (v : Json) : ∃ t ts, tokens v = t :: ts ∧ t ≠ .closeArray := by
  cases v with
  | null | number | string => exact ⟨_, _, rfl, by simp⟩
  | bool b => cases b <;> exact ⟨_, _, rfl, by simp⟩
  | array items => cases items <;> exact ⟨_, _, rfl, by simp⟩
  | object members => cases members <;> exact ⟨_, _, rfl, by simp⟩

/-- A list that does not end at once has a first item. -/
theorem list_openArray {read : Reader β} {input ts : List Token} (starts : input = t :: ts)
    (inside : t ≠ .closeArray) : Reader.list read (.openArray :: input)
      = (seq read (fun _ => Reader.items read) List.cons input).map
        fun r => (r.1, r.2.ofTail) := by
  rw [map_ofTail_seq]
  subst starts
  cases t with
  | closeArray => exact absurd rfl inside
  | _ => rfl

/-- A list is read back if each of its items is. -/
theorem Reads.list {encode : β → Json} {read : Reader β} {bs : List β}
    (each : ∀ b ∈ bs, Reads read (encode b) b) :
    Reads (Reader.list read) (.array (bs.map encode)) bs := by
  have lexable : Lexable (.array (bs.map encode)) := by
    refine .array fun item member => ?_
    obtain ⟨b, inList, rfl⟩ := List.mem_map.1 member
    exact (each b inList).lexable
  refine ⟨lexable, ?_⟩
  cases bs with
  | nil =>
    rintro _ rest rfl
    exact ⟨⟨rest, Nat.lt_succ_of_lt (Nat.lt_succ_self _)⟩, rfl, rfl⟩
  | cons b bs =>
    have others := Takes.items fun b' member => (each b' (List.mem_cons_of_mem b member)).takes
    have both := (each b List.mem_cons_self).takes.seq (fun _ => Reader.items read) List.cons others
    obtain ⟨t, ts, starts, inside⟩ := exists_tokens (encode b)
    rw [List.map_cons, tokens, List.append_assoc]
    exact both.cons fun rest => list_openArray (congrArg (· ++ _ ++ rest) starts) inside

/-! ## Records -/

/-- The members of an object are taken into a state one after the other. -/
inductive Members (step : σ → String → Except Fault (Reader σ)) :
    σ → List (String × Json) → σ → Prop
  | nil (state : σ) : Members step state [] state
  | cons {state next last : σ} {key : String} {value : Json} {members : List (String × Json)}
    {read : Reader σ} : step state key = .ok read → Reads read value next →
      Members step next members last → Members step state ((key, value) :: members) last

section

variable {step : σ → String → Except Fault (Reader σ)} {state next last : σ} {name : String}
  {value : Json} {members : List (String × Json)} {read : Reader σ}

/-- The values of members that are taken can be lexed. -/
theorem Members.lexable (taken : Members step state members last) :
    ∀ member ∈ members, Lexable member.2 := by
  induction taken with
  | nil => exact fun _ never => (nomatch never)
  | cons _ reads _ ih =>
    intro member inList
    rcases List.mem_cons.1 inList with rfl | inRest
    · exact reads.lexable
    · exact ih member inRest

/-- A known key is taken with its colon. -/
theorem Takes.key {step : String → Except Fault β} {b : β} (known : step name = .ok b) :
    Takes (Reader.key step) [.string (piecesOf name) none, .colon] b := by
  rintro _ rest rfl
  refine ⟨⟨rest, Nat.lt_succ_of_lt (Nat.lt_succ_self _)⟩, ?_, rfl⟩
  show (decodeString (piecesOf name) .none >>= fun s => step s >>= _) = _
  rw [(scanString_quoted name).2]
  show (step name >>= _) = _
  rw [known]
  rfl

/-- A member of a known field is taken into the state as its value is read. -/
theorem Takes.member (known : step state name = .ok read) (takes : Takes read ts next) :
    Takes (Reader.member step state) (.string (piecesOf name) none :: .colon :: ts) next :=
  ((Takes.key known).seq (fun read => read) (fun _ next => next) takes).congr fun _ => rfl

/-- The members of an object are taken one after the other, up to the closing brace. -/
theorem Members.takes (taken : Members step state members last) :
    Takes (Reader.members step state) (memberTokens members ++ [.closeObject]) last := by
  induction taken with
  | nil state =>
    rintro _ rest rfl
    refine ⟨⟨rest, Nat.lt_succ_self _⟩, ?_, rfl⟩
    show Reader.members step state (.closeObject :: rest) = _
    rw [Reader.members]
    rfl
  | cons known reads _ others =>
    have both := (Takes.member known reads.takes).seq (Reader.members step) (fun _ last => last)
      others
    rw [memberTokens, List.cons_append, List.cons_append, List.cons_append, List.append_assoc]
    refine both.cons fun rest => ?_
    rw [map_ofTail_seq, Reader.members]

/-- The members of an object are read one after the other, up to its end. -/
theorem Members.takes_objectBody (taken : Members step state members last) :
    ∃ ts, tokens (.object members) = .openObject :: ts ∧
      Takes (Reader.objectBody step state) ts last := by
  cases taken with
  | nil =>
    refine ⟨[.closeObject], rfl, ?_⟩
    rintro _ rest rfl
    exact ⟨⟨rest, Nat.lt_succ_self _⟩, rfl, rfl⟩
  | cons known reads others =>
    have both := (Takes.member known reads.takes).seq (Reader.members step) (fun _ last => last)
      others.takes
    refine ⟨_, ?_, both.congr fun _ => rfl⟩
    rw [tokens, List.append_assoc]
    rfl

end

/-- A record is read from an object whose members are taken one after the other. -/
theorem Reads.record {s : Schema σ α} {members : List (String × Json)} {state : σ}
    (taken : Members s.field s.empty members state) (finished : s.finish state = .ok a) :
    Reads s.reader (.object members) a := by
  obtain ⟨ts, starts, takes⟩ := taken.takes_objectBody
  refine ⟨.object taken.lexable, fun input rest same => ?_⟩
  rw [starts] at same
  subst same
  obtain ⟨left, read, behind⟩ := takes (ts ++ rest) rest rfl
  refine ⟨left.ofTail, ?_, behind⟩
  show (Reader.objectBody s.field s.empty (ts ++ rest) >>= _) = _
  rw [read]
  show (s.finish state >>= _) = _
  rw [finished]
  rfl

/-! ## Whole texts -/

/-- The text of a value is read as what the value means. -/
theorem Reads.document (reads : Reads read v a) (layout : Layout) :
    document read (bytes (v.text layout)) = .ok a := by
  obtain ⟨left, taken, behind⟩ := reads.takes (lex (bytes (v.text layout))) []
    ((lex_text layout reads.lexable).trans (List.append_nil _).symm)
  rw [Json.document, taken]
  show (if left.1.isEmpty then _ else _) = _
  rw [behind]
  rfl

end

end StagePlan.Json
