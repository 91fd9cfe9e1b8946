import Mathlib.Data.List.Induction
import Mathlib.Data.List.TakeWhile
import StagePlan.Proofs.Json.Tokens
import StagePlan.Trace

/-!
# Shape literals

What a literal `Writes` is stated apart from the reader: the digits of the sizes, perhaps with zeros in
front and white space around them, and commas between them. A body reads as the sizes that it writes,
if all of them fit a word (`Shape.ofBody?_eq_some`), and the search finds the `Leftmost` literal of a
text, if there is one (`Shape.firstLiteral?_eq_some`). The text that opens a literal cannot overlap with
itself, so a literal with no such text before it is the leftmost one (`Shape.IsLiteral.leftmost`).

From these `TraceOp.outputShape_exact` says which shape the type text of an op gives.
-/

namespace StagePlan

namespace Text

variable {left right cs : List Char}

/-- White space around a text that has none is trimmed. -/
theorem trim_append (blankLeft : ∀ c ∈ left, isBlank c = true)
    (blankRight : ∀ c ∈ right, isBlank c = true) (filled : cs ≠ [])
    (plain : ∀ c ∈ cs, isBlank c = false) : trim (left ++ cs ++ right) = cs := by
  have start : (cs ++ right).dropWhile isBlank = cs ++ right := by
    obtain ⟨c, rest, rfl⟩ := List.exists_cons_of_ne_nil filled
    simp [plain c]
  have stop : cs.reverse.dropWhile isBlank = cs.reverse := by
    obtain ⟨c, rest, same⟩ := List.exists_cons_of_ne_nil (List.reverse_ne_nil_iff.2 filled)
    have last : isBlank c = false := plain c (List.mem_reverse.1 (same ▸ List.mem_cons_self))
    simp [same, last]
  rw [trim, List.append_assoc, List.dropWhile_append_of_pos blankLeft, start, List.reverse_append,
    List.dropWhile_append_of_pos fun c hc => blankRight c (List.mem_reverse.1 hc), stop,
    List.reverse_reverse]

/-- What trimming takes from a text is white space around the rest. -/
theorem exists_trim (cs : List Char) : ∃ left right, (∀ c ∈ left, isBlank c = true) ∧
    (∀ c ∈ right, isBlank c = true) ∧ cs = left ++ trim cs ++ right := by
  refine ⟨cs.takeWhile isBlank, ((cs.dropWhile isBlank).reverse.takeWhile isBlank).reverse,
    fun c => List.mem_takeWhile_imp, fun c hc => List.mem_takeWhile_imp (List.mem_reverse.1 hc), ?_⟩
  rw [trim, List.append_assoc, ← List.reverse_append, List.takeWhile_append_dropWhile,
    List.reverse_reverse, List.takeWhile_append_dropWhile]

end Text

namespace Shape

/-- A text writes a size: its digits, perhaps with zeros in front, and white space around them. -/
inductive WritesSize : List Char → Nat → Prop
  | padded {left right : List Char} (zeros size : Nat) : (∀ c ∈ left, Text.isBlank c = true) →
      (∀ c ∈ right, Text.isBlank c = true) →
      WritesSize (left ++ (List.replicate zeros '0' ++ Decimal.digits size) ++ right) size

/-- A text writes the sizes of a shape with commas between them. -/
inductive Writes : List Char → Shape → Prop
  | single {piece : List Char} {size : Nat} : WritesSize piece size → Writes piece [size]
  | comma {piece body : List Char} {size : Nat} {sizes : Shape} : WritesSize piece size →
      Writes body sizes → Writes (piece ++ ',' :: body) (size :: sizes)

/-- A tensor literal with the given body stands in a text, between what is before and after it. -/
structure IsLiteral (text before body after : List Char) : Prop where
  text_eq : text = before ++ opening ++ (body ++ ')' :: after)
  filled : body ≠ []
  plain : ∀ c ∈ body, isBodyChar c = true

/-- It is the leftmost one. -/
structure Leftmost (text before body after : List Char) : Prop
    extends IsLiteral text before body after where
  first : ∀ before' body' after', IsLiteral text before' body' after' →
    before.length ≤ before'.length

section

variable {text before body after piece rest cs ds : List Char} {size zeros : Nat} {sizes : Shape}

/-! ## Sizes -/

/-- The digits are the characters from 0 to 9. -/
theorem isDigit_iff {c : Char} : Decimal.isDigit c = true ↔ 48 ≤ c.toNat ∧ c.toNat ≤ 57 := by
  rw [Decimal.isDigit, Bool.and_eq_true, decide_eq_true_iff, decide_eq_true_iff, Char.le_def,
    Char.le_def, UInt32.le_iff_toNat_le, UInt32.le_iff_toNat_le]
  rfl

/-- No digit is white space. -/
theorem isBlank_of_isDigit {c : Char} (digit : Decimal.isDigit c = true) :
    Text.isBlank c = false := by
  obtain ⟨least, greatest⟩ := isDigit_iff.1 digit
  simp only [Text.isBlank, Text.blankRanges, List.any_cons, List.any_nil, Bool.or_false,
    Bool.or_eq_false_iff, Bool.and_eq_false_iff, decide_eq_false_iff_not]
  omega

/-- A digit is the text of its value. -/
theorem exists_digits {c : Char} (digit : Decimal.isDigit c = true) :
    ∃ value < 10, c.toNat - '0'.toNat = value ∧ Decimal.digits value = [c] := by
  obtain ⟨least, greatest⟩ := isDigit_iff.1 digit
  have value : c.toNat - '0'.toNat < 10 := by
    show c.toNat - 48 < 10
    omega
  refine ⟨_, value, rfl, ?_⟩
  have chars : ∀ value < 10, Nat.digitChar value = Char.ofNat (48 + value) := by decide
  have whole : 48 + (c.toNat - '0'.toNat) = c.toNat := Nat.add_sub_cancel' least
  rw [Decimal.digits, Nat.toDigits_of_lt_base value, chars _ value, whole, Char.ofNat_toNat]

/-- One more digit makes ten times the number and its value. -/
theorem ofDigits_concat (ds : List Char) (c : Char) :
    Decimal.ofDigits (ds ++ [c]) = 10 * Decimal.ofDigits ds + (c.toNat - '0'.toNat) :=
  Nat.ofDigitChars_append 0

/-- Digits are those of the number they write, with zeros in front. -/
theorem exists_zeros (filled : ds ≠ []) (digit : ∀ c ∈ ds, Decimal.isDigit c = true) :
    ∃ zeros, ds = List.replicate zeros '0' ++ Decimal.digits (Decimal.ofDigits ds) := by
  induction ds using List.reverseRecOn with
  | nil => exact absurd rfl filled
  | append_singleton front c ih =>
    obtain ⟨value, small, worth, single⟩ := exists_digits (digit c (by simp))
    rw [ofDigits_concat, worth]
    rcases List.eq_nil_or_concat front with rfl | more
    · exact ⟨0, by simpa [Decimal.ofDigits] using single.symm⟩
    have filled' : front ≠ [] := by
      obtain ⟨_, _, rfl⟩ := more
      simp
    obtain ⟨zeros, written⟩ := ih filled' fun c hc => digit c (List.mem_append_left _ hc)
    rcases Nat.eq_zero_or_pos (Decimal.ofDigits front) with none_ | some_
    · -- the digits before are zeros, the last of which is no digit of the number any more
      have padding : front = List.replicate (zeros + 1) '0' := by
        rw [written, none_, List.replicate_succ']
        rfl
      refine ⟨zeros + 1, ?_⟩
      rw [none_, Nat.mul_zero, Nat.zero_add, single, ← padding]
    · refine ⟨zeros, ?_⟩
      have more : Decimal.digits (10 * Decimal.ofDigits front + value)
          = Decimal.digits (Decimal.ofDigits front) ++ [c] := by
        rw [← single]
        exact (Nat.toDigits_append_toDigits (by decide) some_ small).symm
      rw [more, ← List.append_assoc, ← written]

/-- Zeros in front do not change the number. -/
theorem ofDigits_padded (zeros size : Nat) :
    Decimal.ofDigits (List.replicate zeros '0' ++ Decimal.digits size) = size := by
  rw [Decimal.ofDigits, Nat.ofDigitChars_append, Nat.ofDigitChars_replicate_zero, Nat.mul_zero]
  exact Json.ofDigits_digits size

/-- A number with zeros in front consists of digits. -/
theorem isDigit_of_mem_padded {c : Char}
    (member : c ∈ List.replicate zeros '0' ++ Decimal.digits size) : Decimal.isDigit c = true := by
  rcases List.mem_append.1 member with zero | digit
  · rw [List.eq_of_mem_replicate zero]
    rfl
  · exact Json.isDigit_of_mem_digits digit

/-- A size is read from its digits with zeros in front, if it fits a word. -/
theorem size?_eq_some : size? ds = some size ↔
    (∃ zeros, ds = List.replicate zeros '0' ++ Decimal.digits size) ∧ size < Word.limit := by
  unfold size?
  simp only [Option.ite_none_right_eq_some, Option.some.injEq, Bool.and_eq_true,
    Bool.not_eq_true', List.isEmpty_eq_false_iff, List.all_eq_true, decide_eq_true_iff]
  constructor
  · rintro ⟨⟨⟨filled, digit⟩, fits⟩, rfl⟩
    exact ⟨exists_zeros filled digit, fits⟩
  · rintro ⟨⟨zeros, rfl⟩, fits⟩
    rw [ofDigits_padded]
    refine ⟨⟨⟨?_, fun c => isDigit_of_mem_padded⟩, fits⟩, rfl⟩
    exact List.append_ne_nil_of_right_ne_nil _ (Json.digits_ne_nil size)

/-- A piece of a literal reads as the size that it writes. -/
theorem size?_trim_eq_some :
    size? (Text.trim piece) = some size ↔ WritesSize piece size ∧ size < Word.limit := by
  rw [size?_eq_some]
  refine and_congr_left fun _ => ⟨?_, ?_⟩
  · rintro ⟨zeros, digits⟩
    obtain ⟨left, right, blankLeft, blankRight, split⟩ := Text.exists_trim piece
    rw [split, digits]
    exact .padded zeros size blankLeft blankRight
  · rintro ⟨zeros, size, blankLeft, blankRight⟩
    refine ⟨zeros, Text.trim_append blankLeft blankRight ?_ fun c member =>
      isBlank_of_isDigit (isDigit_of_mem_padded member)⟩
    exact List.append_ne_nil_of_right_ne_nil _ (Json.digits_ne_nil size)

/-! ## Bodies -/

/-- Every character of a size may stand in a literal, and none is a comma. -/
theorem WritesSize.plain (writes : WritesSize piece size) :
    ∀ c ∈ piece, isBodyChar c = true ∧ c ≠ ',' := by
  obtain ⟨zeros, size, blankLeft, blankRight⟩ := writes
  have blank {c : Char} (blank : Text.isBlank c = true) : isBodyChar c = true ∧ c ≠ ',' := by
    refine ⟨by simp [isBodyChar, blank], ?_⟩
    rintro rfl
    exact absurd blank (by decide)
  have digit {c : Char} (digit : Decimal.isDigit c = true) : isBodyChar c = true ∧ c ≠ ',' := by
    obtain ⟨least, greatest⟩ := isDigit_iff.1 digit
    have decimal : Text.isDecimalDigit c = true :=
      List.any_eq_true.2 ⟨0x30, by decide, by simp; omega⟩
    refine ⟨by simp [isBodyChar, decimal], ?_⟩
    rintro rfl
    exact absurd digit (by decide)
  intro c member
  rcases List.mem_append.1 member with member | right_
  · rcases List.mem_append.1 member with left_ | digits
    · exact blank (blankLeft c left_)
    · exact digit (isDigit_of_mem_padded digits)
  · exact blank (blankRight c right_)

/-- The text of a size has no comma. -/
theorem WritesSize.notMem (writes : WritesSize piece size) : ',' ∉ piece :=
  fun member => (writes.plain _ member).2 rfl

/-- A body without commas is one size. -/
theorem ofBody?_of_notMem (alone : ',' ∉ piece) :
    ofBody? piece = (size? (Text.trim piece)).map ([·]) := by
  rw [ofBody?, Text.pieces_of_notMem alone, List.mapM_cons, List.mapM_nil]
  cases size? (Text.trim piece) <;> rfl

/-- A body with a comma is a size and what follows the comma. -/
theorem ofBody?_append (within : ',' ∉ piece) (rest : List Char) :
    ofBody? (piece ++ ',' :: rest) =
      (size? (Text.trim piece)).bind fun size => (ofBody? rest).map (size :: ·) := by
  rw [ofBody?, Text.pieces_append within, List.mapM_cons]
  cases size? (Text.trim piece) with
  | none => rfl
  | some size => exact Option.map_eq_bind.symm

/-- What is read from a body is what it writes. -/
theorem writes_of_ofBody? {body : List Char} {sizes : Shape} (read : ofBody? body = some sizes) :
    Writes body sizes ∧ ∀ size ∈ sizes, size < Word.limit := by
  by_cases comma : ',' ∈ body
  · obtain ⟨piece, rest, split, within⟩ := List.eq_append_cons_of_mem comma
    rw [split, ofBody?_append within] at read
    obtain ⟨size, first, read⟩ := Option.bind_eq_some_iff.1 read
    obtain ⟨others, read', rfl⟩ := Option.map_eq_some_iff.1 read
    obtain ⟨writes, fits⟩ := size?_trim_eq_some.1 first
    obtain ⟨writes', fits'⟩ := writes_of_ofBody? read'
    rw [split]
    exact ⟨.comma writes writes', List.forall_mem_cons.2 ⟨fits, fits'⟩⟩
  · rw [ofBody?_of_notMem comma] at read
    obtain ⟨size, only, rfl⟩ := Option.map_eq_some_iff.1 read
    obtain ⟨writes, fits⟩ := size?_trim_eq_some.1 only
    exact ⟨.single writes, List.forall_mem_singleton.2 fits⟩
termination_by body.length
decreasing_by
  rw [split, List.length_append, List.length_cons]
  omega

/-- A body reads as the shape that it writes, if all sizes fit a word. -/
theorem ofBody?_eq_some :
    ofBody? body = some sizes ↔ Writes body sizes ∧ ∀ size ∈ sizes, size < Word.limit := by
  refine ⟨writes_of_ofBody?, ?_⟩
  rintro ⟨writes, fits⟩
  induction writes with
  | single writes =>
    rw [ofBody?_of_notMem writes.notMem, size?_trim_eq_some.2 ⟨writes, fits _ List.mem_cons_self⟩]
    rfl
  | comma writes _ ih =>
    obtain ⟨first, others⟩ := List.forall_mem_cons.1 fits
    rw [ofBody?_append writes.notMem, size?_trim_eq_some.2 ⟨writes, first⟩, ih others]
    rfl

/-- What writes a shape may stand in a literal. -/
theorem Writes.plain (writes : Writes body sizes) : ∀ c ∈ body, isBodyChar c = true := by
  induction writes with
  | single writes => exact fun c member => (writes.plain c member).1
  | comma writes _ ih =>
    intro c member
    rcases List.mem_append.1 member with inPiece | inRest
    · exact (writes.plain c inPiece).1
    · rcases List.mem_cons.1 inRest with rfl | inRest
      · rfl
      · exact ih c inRest

/-- The text of a size is not empty. -/
theorem WritesSize.ne_nil (writes : WritesSize piece size) : piece ≠ [] := by
  obtain ⟨zeros, size, -, -⟩ := writes
  have digits := Json.digits_ne_nil size
  simp [digits]

/-- Neither is the text of a shape. -/
theorem Writes.ne_nil (writes : Writes body sizes) : body ≠ [] := by
  cases writes with
  | single writes => exact writes.ne_nil
  | comma => simp

/-! ## Literals -/

/-- The body of a literal that a text begins with. -/
theorem literalAt?_eq_some : literalAt? text = some body ↔ ∃ after, IsLiteral text [] body after := by
  unfold literalAt?
  constructor
  · intro found
    rw [Option.ite_none_right_eq_some] at found
    obtain ⟨starts, found⟩ := found
    obtain ⟨rest, rfl⟩ := List.isPrefixOf_iff_prefix.1 starts
    dsimp only at found
    rw [List.drop_left] at found
    split at found
    next c cs after within stop =>
      obtain rfl := Option.some.inj found
      refine ⟨after, ⟨?_, by simp [within], fun c => List.mem_takeWhile_imp⟩⟩
      rw [← stop, List.takeWhile_append_dropWhile, List.nil_append]
    next => cases found
  · rintro ⟨after, rfl, filled, plain⟩
    have within : (body ++ ')' :: after).takeWhile isBodyChar = body := by
      rw [List.takeWhile_append_of_pos plain, List.takeWhile_cons_of_neg (by decide), List.append_nil]
    have stop : (body ++ ')' :: after).dropWhile isBodyChar = ')' :: after := by
      rw [List.dropWhile_append_of_pos plain, List.dropWhile_cons_of_neg (by decide)]
    obtain ⟨c, cs, rfl⟩ := List.exists_cons_of_ne_nil filled
    rw [List.nil_append, if_pos (List.isPrefixOf_iff_prefix.2 (List.prefix_append _ _))]
    dsimp only
    rw [List.drop_left, within, stop]
    rfl

/-- A literal that a text does not begin with is one of the rest of the text. -/
theorem isLiteral_cons {c d : Char} : IsLiteral (c :: text) (d :: before) body after ↔
    d = c ∧ IsLiteral text before body after := by
  constructor
  · rintro ⟨whole, filled, plain⟩
    rw [List.cons_append, List.cons_append, List.cons.injEq] at whole
    exact ⟨whole.1.symm, whole.2, filled, plain⟩
  · rintro ⟨rfl, whole, filled, plain⟩
    exact ⟨by rw [whole]; rfl, filled, plain⟩

/-- The search finds the leftmost literal. -/
theorem firstLiteral?_eq_some :
    firstLiteral? text = some body ↔ ∃ before after, Leftmost text before body after := by
  induction text with
  | nil =>
    refine ⟨nofun, ?_⟩
    rintro ⟨before, after, literal⟩
    have empty := literal.text_eq
    simp at empty
  | cons c cs ih =>
    rw [firstLiteral?]
    cases here : literalAt? (c :: cs) with
    | some found =>
      obtain ⟨after, literal⟩ := literalAt?_eq_some.1 here
      constructor
      · intro same
        obtain rfl := Option.some.inj same
        exact ⟨[], after, literal, fun _ _ _ _ => Nat.zero_le _⟩
      · rintro ⟨before, after', leftmost⟩
        obtain rfl := List.eq_nil_of_length_eq_zero (Nat.le_zero.1 (leftmost.first _ _ _ literal))
        exact here.symm.trans (literalAt?_eq_some.2 ⟨after', leftmost.toIsLiteral⟩)
    | none =>
      have notHere {body after : List Char} : ¬ IsLiteral (c :: cs) [] body after := fun literal => by
        cases here.symm.trans (literalAt?_eq_some.2 ⟨after, literal⟩)
      show firstLiteral? cs = some body ↔ _
      rw [ih]
      constructor
      · rintro ⟨before, after, literal, first⟩
        refine ⟨c :: before, after, isLiteral_cons.2 ⟨rfl, literal⟩, fun before' _ _ other => ?_⟩
        cases before' with
        | nil => exact absurd other notHere
        | cons d before' => exact Nat.succ_le_succ (first _ _ _ (isLiteral_cons.1 other).2)
      · rintro ⟨before, after, literal, first⟩
        cases before with
        | nil => exact absurd literal notHere
        | cons d before =>
          refine ⟨before, after, (isLiteral_cons.1 literal).2, fun before' _ _ other => ?_⟩
          exact Nat.le_of_succ_le_succ (first _ _ _ (isLiteral_cons.2 ⟨rfl, other⟩))

/-- What opens a literal cannot overlap with itself. -/
theorem opening_of_overlap {more rest after : List Char} (filled : more ≠ [])
    (overlap : opening ++ rest = more ++ (opening ++ after)) : opening <+: more := by
  rcases Nat.lt_or_ge more.length opening.length with short | long
  · -- the place where the second one starts would be inside the first one
    have once : ∀ k < opening.length, 0 < k → opening[k]? ≠ some 'F' := by decide
    refine absurd ?_ (once more.length short (List.length_pos_iff.2 filled))
    have at_ := congrArg (·[more.length]?) overlap
    rw [List.getElem?_append_left short, List.getElem?_append_right (Nat.le_refl _),
      Nat.sub_self] at at_
    exact at_
  · have longer : more <+: opening ++ rest := overlap ▸ List.prefix_append _ _
    exact List.prefix_of_prefix_length_le (List.prefix_append _ _) longer long

/-- A literal is the leftmost one if what opens it does not stand before it. -/
theorem IsLiteral.leftmost (literal : IsLiteral text before body after)
    (free : ¬ opening <:+: before) : Leftmost text before body after where
  toIsLiteral := literal
  first before' body' after' other := by
    refine Nat.le_of_not_lt fun earlier => ?_
    have same := other.text_eq.symm.trans literal.text_eq
    rw [List.append_assoc, List.append_assoc] at same
    rcases List.append_eq_append_iff.1 same with ⟨more, rfl, overlap⟩ | ⟨more, rfl, -⟩
    · have filled : more ≠ [] := by
        rintro rfl
        simp at earlier
      exact free ((opening_of_overlap filled overlap).isInfix.trans (List.suffix_append _ _).isInfix)
    · exact absurd earlier (by simp)

/-- There is one leftmost literal at most. -/
theorem Leftmost.body_eq {before' body' after' : List Char} (leftmost : Leftmost text before body after)
    (other : Leftmost text before' body' after') : body = body' :=
  Option.some.inj <| (firstLiteral?_eq_some.2 ⟨before, after, leftmost⟩).symm.trans
    (firstLiteral?_eq_some.2 ⟨before', after', other⟩)

/-- Every entry of a body that writes a shape writes a size. -/
theorem Writes.of_mem_pieces (writes : Writes body sizes) :
    ∀ piece ∈ Text.pieces ',' body, ∃ size ∈ sizes, WritesSize piece size := by
  induction writes with
  | single writes =>
    rw [Text.pieces_of_notMem writes.notMem]
    exact List.forall_mem_singleton.2 ⟨_, List.mem_cons_self, writes⟩
  | comma writes _ ih =>
    rw [Text.pieces_append writes.notMem]
    refine List.forall_mem_cons.2 ⟨⟨_, List.mem_cons_self, writes⟩, fun piece member => ?_⟩
    obtain ⟨size, listed, writes'⟩ := ih piece member
    exact ⟨size, List.mem_cons_of_mem _ listed, writes'⟩

/-- The shape that a text gives is the one that the body of its leftmost literal writes. -/
theorem literal?_eq_some {typeText : String} : literal? typeText = some sizes ↔
    ∃ before body after, Leftmost typeText.toList before body after ∧ Writes body sizes ∧
      ∀ size ∈ sizes, size < Word.limit := by
  rw [literal?, Option.bind_eq_some_iff]
  constructor
  · rintro ⟨body, found, read⟩
    obtain ⟨before, after, leftmost⟩ := firstLiteral?_eq_some.1 found
    exact ⟨before, body, after, leftmost, ofBody?_eq_some.1 read⟩
  · rintro ⟨before, body, after, leftmost, writes⟩
    exact ⟨body, firstLiteral?_eq_some.2 ⟨before, after, leftmost⟩, ofBody?_eq_some.2 writes⟩

end

end Shape

/-! ## Ops -/

namespace TraceOp

open Shape

/-- A type text that has a literal, and nothing that opens one before it, gives exactly the shape that the
literal writes. Any other shape than that of a single element is the whole of what the leftmost
literal writes, so one entry of it that is no size below the limit makes it a single element. -/
theorem outputShape_exact (op : TraceOp) :
    (∀ before body after sizes, op.outputType.toList = before ++ opening ++ (body ++ ')' :: after) →
      ¬ opening <:+: before → Writes body sizes → (∀ size ∈ sizes, size < Word.limit) →
        op.outputShape = sizes) ∧
    (op.outputShape ≠ [1] → ∃ before body after, Leftmost op.outputType.toList before body after ∧
      Writes body op.outputShape ∧ ∀ size ∈ op.outputShape, size < Word.limit) ∧
    ∀ before body after, Leftmost op.outputType.toList before body after →
      ∀ piece ∈ Text.pieces ',' body, (∀ size, WritesSize piece size → Word.limit ≤ size) →
        op.outputShape = [1] := by
  have other : op.outputShape ≠ [1] → ∃ before body after,
      Leftmost op.outputType.toList before body after ∧ Writes body op.outputShape ∧
        ∀ size ∈ op.outputShape, size < Word.limit := by
    intro different
    unfold outputShape ofTypeText at different ⊢
    cases read : literal? op.outputType with
    | none => exact absurd (by rw [read]; rfl) different
    | some sizes => exact literal?_eq_some.1 read
  refine ⟨fun before body after sizes whole free writes fits => ?_, other,
    fun before body after leftmost piece member none_ => ?_⟩
  · have literal : IsLiteral op.outputType.toList before body after :=
      ⟨whole, writes.ne_nil, writes.plain⟩
    rw [outputShape, ofTypeText,
      literal?_eq_some.2 ⟨before, body, after, literal.leftmost free, writes, fits⟩, Option.getD_some]
  · refine Decidable.byContradiction fun different => ?_
    obtain ⟨before', body', after', leftmost', writes, fits⟩ := other different
    obtain rfl := leftmost.body_eq leftmost'
    obtain ⟨size, listed, writes'⟩ := writes.of_mem_pieces piece member
    exact Nat.not_le.2 (fits size listed) (none_ size writes')

/-- An op with a type text. -/
def typed (type : String) : TraceOp := ⟨[0], [1], "net", "onnx::Conv", type⟩

/-- A literal counts as a whole or not at all, whatever literals come after it. -/
theorem typed_shape : (typed "FloatFloat( 08,\u00a0128)Float(7)").outputShape = [8, 128] ∧
    (typed "Float(4, )Float(7)").outputShape = [1] := by
  have blank : Text.isBlank ' ' = true ∧ Text.isBlank '\u00a0' = true := by decide
  have first : WritesSize " 08".toList 8 :=
    @WritesSize.padded [' '] [] 1 8 (List.forall_mem_singleton.2 blank.1) nofun
  have second : WritesSize "\u00a0128".toList 128 :=
    @WritesSize.padded ['\u00a0'] [] 0 128 (List.forall_mem_singleton.2 blank.2) nofun
  have writes : Writes " 08,\u00a0128".toList [8, 128] := .comma first (.single second)
  have leftmost : Leftmost "Float(4, )Float(7)".toList [] "4, ".toList "Float(7)".toList :=
    ⟨⟨by decide, by decide, List.all_eq_true.1 (by decide)⟩, fun _ _ _ _ => Nat.zero_le _⟩
  refine ⟨(outputShape_exact _).1 "Float".toList _ "Float(7)".toList _ (by decide) (by decide) writes
    (by decide), ?_⟩
  refine (outputShape_exact (typed "Float(4, )Float(7)")).2.2 _ _ _ leftmost [' '] (by decide) ?_
  intro size writes
  refine Nat.le_of_not_lt fun fits => ?_
  have read : none = some size := size?_trim_eq_some.2 ⟨writes, fits⟩
  cases read

end TraceOp

end StagePlan
