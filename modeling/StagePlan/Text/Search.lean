/-!
# Searching texts

Prefixes and substrings of strings, stated on their characters: `Text.hasPrefix` and `Text.contains`
decide `<+:` and `<:+:`. `Text.pieces` parts a text at every occurrence of a character.
-/

namespace StagePlan.Text

/-- Whether a text begins with a given one. -/
def hasPrefix (start text : String) : Bool := start.toList.isPrefixOf text.toList

/-- Whether a list has a given one as a contiguous part. -/
def occursIn [BEq α] (part : List α) : List α → Bool
  | [] => part.isEmpty
  | a :: as => part.isPrefixOf (a :: as) || occursIn part as

/-- Whether a text has a given one inside; every text has the empty one. -/
def contains (part text : String) : Bool := occursIn part.toList text.toList

/-- The pieces of a text between the occurrences of a character; there is always one more than there are
occurrences. -/
def pieces (separator : Char) : List Char → List (List Char)
  | [] => [[]]
  | c :: cs =>
    match c == separator, pieces separator cs with
    | true, rest => [] :: rest
    | false, piece :: rest => (c :: piece) :: rest
    | false, [] => [[c]]

/-- A text starts with another one exactly if its characters do. -/
theorem hasPrefix_iff {start text : String} : hasPrefix start text ↔ start.toList <+: text.toList :=
  List.isPrefixOf_iff_prefix

/-- A list occurs in another one exactly if it is a run of consecutive elements. -/
theorem occursIn_iff [BEq α] [LawfulBEq α] {part l : List α} : occursIn part l ↔ part <:+: l := by
  induction l with
  | nil => simp [occursIn]
  | cons a as ih => simp [occursIn, ih, List.infix_cons_iff, List.isPrefixOf_iff_prefix]

/-- A text contains another one exactly if it has its characters in a row. -/
theorem contains_iff {part text : String} : contains part text ↔ part.toList <:+: text.toList :=
  occursIn_iff

/-- A piece ends at the first occurrence of the separator. -/
theorem pieces_append {separator : Char} {piece : List Char} (within : separator ∉ piece)
    (rest : List Char) :
    pieces separator (piece ++ separator :: rest) = piece :: pieces separator rest := by
  induction piece with
  | nil => rw [List.nil_append, pieces, beq_self_eq_true]
  | cons c cs ih =>
    rw [List.mem_cons, not_or] at within
    have other : (c == separator) = false := beq_false_of_ne (Ne.symm within.1)
    rw [List.cons_append, pieces, ih within.2, other]

/-- A text without the separator is one piece. -/
theorem pieces_of_notMem {separator : Char} {cs : List Char} (alone : separator ∉ cs) :
    pieces separator cs = [cs] := by
  induction cs with
  | nil => rfl
  | cons c cs ih =>
    rw [List.mem_cons, not_or] at alone
    have other : (c == separator) = false := beq_false_of_ne (Ne.symm alone.1)
    rw [pieces, ih alone.2, other]

end StagePlan.Text
