import Mathlib.Data.List.Nodup
import StagePlan.Graph.Dot
import StagePlan.Proofs.Graph.Reachable
import StagePlan.Proofs.Json.Tokens
import StagePlan.Proofs.Labels
import StagePlan.Text.Search

/-!
# Drawings of graphs

A source text is read by its quoting rule: a quoted string ends at the first quote that no backslash
takes with it. `Dot.outside` leaves of a text what stands outside of its quoted strings. A text is
`Quiet` if it can stand in a quoted string without closing it, which every label is
(`Dot.quiet_label`): a scope because it is escaped, and the rest because it has no quotes. So whatever
the scopes are, outside of the quoted strings a drawing has a line for each of its statements and
nothing else (`Dot.outside_toDot`), and the statements show the graph (`Stored.shownBy`).
`Reachable.toDot_lines` puts the two together.
-/

namespace StagePlan

namespace Dot

/-! ## The quoting rule -/

/-- What a text says outside of its quoted strings, which are left empty; nothing if one of them is not
closed. The text begins inside of a quoted string or outside. -/
def outside : Bool → List Char → Option (List Char)
  | false, [] => some []
  | true, [] => none
  | false, c :: cs => (outside (c == '"') cs).map (c :: ·)
  | true, '"' :: cs => (outside false cs).map ('"' :: ·)
  | true, '\\' :: _ :: cs => outside true cs
  | true, _ :: cs => outside true cs

/-- The lines of a source text outside of its quoted strings. -/
def lines (source : String) : Option (List String) :=
  (outside false source.toList).map fun cs => (Text.pieces '\n' cs).map String.ofList

/-- A text does not close the quoted string that it stands in. -/
def Quiet (cs : List Char) : Prop := ∀ rest, outside true (cs ++ rest) = outside true rest

/-- A text without quotes, backslashes and line feeds. -/
def Plain (cs : List Char) : Prop := ∀ c ∈ cs, c ≠ '"' ∧ c ≠ '\\' ∧ c ≠ '\n'

section

variable {cs ds shown shown' : List Char}

/-! ### Texts inside of quoted strings -/

/-- Two texts that close nothing close nothing together. -/
theorem Quiet.append (first : Quiet cs) (second : Quiet ds) : Quiet (cs ++ ds) := fun rest => by
  rw [List.append_assoc, first, second]

/-- Neither do any number of them. -/
theorem Quiet.flatMap {α : Type} {f : α → List Char} {l : List α} (each : ∀ a ∈ l, Quiet (f a)) :
    Quiet (l.flatMap f) := by
  induction l with
  | nil => exact fun _ => rfl
  | cons a l ih =>
    rw [List.flatMap_cons]
    exact (each a List.mem_cons_self).append (ih fun b member => each b (List.mem_cons_of_mem a member))

/-- A character that is neither a quote nor a backslash closes nothing. -/
theorem quiet_singleton {c : Char} (noQuote : c ≠ '"') (noEscape : c ≠ '\\') : Quiet [c] :=
  fun rest => outside.eq_6 c rest noQuote fun _ _ same _ => noEscape same

/-- An escaped character closes nothing, whatever it is. -/
theorem quiet_escape (c : Char) : Quiet (escape c) := by
  unfold escape
  split
  next => exact fun _ => rfl
  next usual =>
    rw [not_or] at usual
    exact quiet_singleton usual.2 usual.1

/-- An escaped text closes nothing, so that any scope can stand in a label. -/
theorem quiet_escaped (text : String) : Quiet (escaped text).toList := by
  rw [escaped, String.toList_ofList]
  exact Quiet.flatMap fun c _ => quiet_escape c

/-- Escaping is replacing every backslash and then every quote. -/
theorem toList_escaped (text : String) : (escaped text).toList =
    (text.toList.flatMap fun c => if c = '\\' then ['\\', '\\'] else [c]).flatMap fun c =>
      if c = '"' then ['\\', '"'] else [c] := by
  rw [escaped, String.toList_ofList, List.flatMap_assoc]
  refine congrArg (text.toList.flatMap ·) (funext fun c => ?_)
  by_cases backslash : c = '\\'
  · subst backslash
    rfl
  · by_cases quote : c = '"'
    · subst quote
      rfl
    · simp [escape, backslash, quote]

/-- A text without quotes and backslashes needs no escaping. -/
theorem Plain.quiet (plain : Plain cs) : Quiet cs := by
  rw [← List.flatMap_singleton' cs]
  exact Quiet.flatMap fun c member => quiet_singleton (plain c member).1 (plain c member).2.1

/-! ### Texts outside of quoted strings -/

/-- What follows a text outside of its quoted strings is read as if it stood alone. -/
theorem outside_append {inside : Bool} (read : outside inside cs = some shown) (rest : List Char) :
    outside inside (cs ++ rest) = (outside false rest).map (shown ++ ·) := by
  fun_induction outside inside cs generalizing shown with
  | case1 =>
    cases read
    exact (congrFun Option.map_id _).symm
  | case2 => cases read
  | case3 c cs ih =>
    obtain ⟨shown, read', rfl⟩ := Option.map_eq_some_iff.1 read
    rw [List.cons_append, outside, ih read', Option.map_map]
    rfl
  | case4 cs ih =>
    obtain ⟨shown, read', rfl⟩ := Option.map_eq_some_iff.1 read
    rw [List.cons_append, outside, ih read', Option.map_map]
    rfl
  | case5 c cs ih => exact ih read
  | case6 c cs noQuote noEscape ih =>
    -- a backslash could only stand at the end here, where the string is not closed
    cases cs with
    | nil => cases read
    | cons d cs =>
      rw [List.cons_append, outside.eq_6 c _ noQuote fun _ _ same _ => noEscape d cs same rfl]
      exact ih read

/-- Texts with all their strings closed are read one after the other. -/
theorem outside_seq (first : outside false cs = some shown)
    (second : outside false ds = some shown') :
    outside false (cs ++ ds) = some (shown ++ shown') := by
  rw [outside_append first, second, Option.map_some]

/-- So are any number of them. -/
theorem outside_flatMap {α : Type} {f g : α → List Char} {l : List α}
    (each : ∀ a ∈ l, outside false (f a) = some (g a)) :
    outside false (l.flatMap f) = some (l.flatMap g) := by
  induction l with
  | nil => rfl
  | cons a l ih =>
    rw [List.flatMap_cons, List.flatMap_cons]
    exact outside_seq (each a List.mem_cons_self)
      (ih fun b member => each b (List.mem_cons_of_mem a member))

/-- Outside of quoted strings a text without quotes is read as it stands. -/
theorem outside_plain (plain : Plain cs) : outside false cs = some cs := by
  induction cs with
  | nil => rfl
  | cons c cs ih =>
    have usual : (c == '"') = false := beq_false_of_ne (plain c List.mem_cons_self).1
    rw [outside, usual, ih fun d member => plain d (List.mem_cons_of_mem c member), Option.map_some]

/-- Of a quoted string only its quotes are read. -/
theorem outside_quoted (quiet : Quiet cs) : outside false ('"' :: cs ++ ['"']) = some ['"', '"'] := by
  show (outside true (cs ++ ['"'])).map ('"' :: ·) = _
  rw [quiet]
  rfl

/-! ## Labels -/

instance (cs : List Char) : Decidable (Plain cs) := List.decidableBAll _ cs

/-- Plain texts in a row are a plain text. -/
theorem Plain.append (first : Plain cs) (second : Plain ds) : Plain (cs ++ ds) :=
  List.forall_mem_append.2 ⟨first, second⟩

/-- What is made of characters of a plain text is plain. -/
theorem Plain.of_subset (plain : Plain cs) (subset : ds ⊆ cs) : Plain ds := fun c member =>
  plain c (subset member)

/-- The digits of a number are plain. -/
theorem plain_digits (n : Nat) : Plain (Decimal.digits n) := fun c member => by
  have digit := Json.isDigit_of_mem_digits member
  refine ⟨?_, ?_, ?_⟩ <;> rintro rfl <;> exact absurd digit (by decide)

/-- A number is written plainly. -/
theorem plain_toString (n : Nat) : Plain (toString n).toList := by
  rw [toList_position]
  exact plain_digits n

/-- So is one with a decimal point. -/
theorem plain_positional (d : Decimal.Number) : Plain d.positional := by
  have zeros (k : Nat) : Plain (List.replicate k '0') := fun c member => by
    rw [List.eq_of_mem_replicate member]
    decide
  unfold Decimal.Number.positional
  extract_lets ds places padded
  have padding : Plain padded := (zeros _).append (plain_digits _)
  split
  · have point : Plain ['.'] := by decide
    exact (padding.of_subset (List.take_subset _ _)).append
      (point.append (padding.of_subset (List.drop_subset _ _)))
  · exact (plain_digits _).append (zeros _)

/-- So is one with a sign. -/
theorem plain_signed (plain : Plain cs) (negative : Bool) :
    Plain (Decimal.signed negative cs).toList := by
  rw [Decimal.signed, String.toList_ofList]
  cases negative with
  | false => exact plain
  | true =>
    have sign : Plain ['-'] := by decide
    exact sign.append plain

/-- So is a measured value, whatever it is rounded to and also if it is no number. -/
theorem plain_fixedText (places : Nat) (x : Float) : Plain (Decimal.fixedText places x).toList := by
  unfold Decimal.fixedText
  split
  · decide
  · exact plain_signed (by decide) _
  · exact plain_signed (plain_positional _) _

/-- No cost has quotes or backslashes in its text. -/
theorem plain_weight (weight : NodeWeight) : Plain weight.text.toList := by
  cases weight with
  | elements n => exact plain_toString n
  | timing p =>
    simp only [NodeWeight.text, String.toList_append]
    exact ((((show Plain "fwd ".toList by decide).append (plain_fixedText 3 _)).append
      (by decide)).append (plain_fixedText 3 _)).append (by decide)
  | unmeasured => decide

/-- A list of plain entries is written plainly. -/
theorem plain_enumerated {entries : List String} (each : ∀ entry ∈ entries, Plain entry.toList) :
    Plain (Text.enumerated entries).toList := by
  unfold Text.enumerated
  induction entries with
  | nil => decide
  | cons entry entries ih =>
    obtain ⟨first, others⟩ := List.forall_mem_cons.1 each
    cases entries with
    | nil => rwa [String.intercalate_singleton]
    | cons entry' entries =>
      rw [String.intercalate_cons_cons, String.toList_append, String.toList_append]
      exact (first.append (by decide)).append (ih others)

/-- A shape is written plainly. -/
theorem plain_shapeText (shape : Shape) : Plain (shapeText shape).toList := by
  rw [shapeText, String.toList_append, String.toList_append]
  refine ((show Plain "(".toList by decide).append (plain_enumerated ?_)).append (by decide)
  intro entry member
  obtain ⟨n, -, rfl⟩ := List.mem_map.1 member
  exact plain_toString n

/-- A line feed in a label is written as an escape. -/
theorem quiet_linefeed : Quiet "\\n".toList := fun _ => rfl

/-- The line on the cost of a node closes nothing. -/
theorem quiet_weightLine (options : Options) (weight : NodeWeight) :
    Quiet (weightLine options weight).toList := by
  have shown : Quiet (if options.showWeights then "\\n" ++ weight.text else "").toList := by
    split
    · rw [String.toList_append]
      exact quiet_linefeed.append (plain_weight weight).quiet
    · exact fun _ => rfl
  cases weight with
  | elements _ => exact shown
  | timing _ => exact shown
  | unmeasured => exact fun _ => rfl

/-- No label closes the string that it stands in. -/
theorem quiet_label (options : Options) (n : Node) : Quiet (label options n).toList := by
  have heading : Quiet "\\noutput_shape [".toList :=
    quiet_linefeed.append (show Plain "output_shape [".toList by decide).quiet
  have shapes : Plain (Text.enumerated (n.shapes.map shapeText)).toList := by
    refine plain_enumerated fun entry member => ?_
    obtain ⟨shape, -, rfl⟩ := List.mem_map.1 member
    exact plain_shapeText shape
  simp only [label, String.toList_append]
  exact ((((quiet_escaped n.scope).append (quiet_weightLine options n.weight)).append heading).append
    shapes.quiet).append (Plain.quiet (by decide))

/-- The name of a color is plain. -/
theorem plain_color (part : Option Nat) : Plain (color part).toList := by
  have all : ∀ i < 8, Plain (partColors.getD i "white").toList := by decide
  cases part with
  | none => decide
  | some part => exact all (part % 8) (Nat.mod_lt _ (by decide))

end

/-! ## Statements -/

/-- The lines before the first node: the statements on how to draw, with their strings empty. -/
def opening : List String :=
  ["digraph \x7b", "  graph [concentrate=true, rankdir=TB, bgcolor=\"\", fontname=\"\"];",
    "  node [shape=box, style=filled, fontsize=10, fontname=\"\", color=\"\"];"]

/-- The line of a node, with an empty label. -/
def nodeLine (n : Node) : String :=
  "  " ++ toString n.index ++ " [label=\"\", fillcolor=" ++ color n.part ++ "];"

/-- The line of an arrow between two indices. -/
def arrowLine (arrow : Nat × Nat) : String :=
  "  " ++ toString arrow.1 ++ " -> " ++ toString arrow.2 ++ ";"

/-- The text of some lines, each of which is ended. -/
def ended (ls : List String) : List Char := ls.flatMap fun line => line.toList ++ ['\n']

/-- The nodes that are drawn. -/
def drawn (options : Options) (g : Graph) : List Node := g.nodes.filter (isVisible options)

/-- The drawn nodes that a node reads from. -/
def drawnSources (options : Options) (g : Graph) (n : Node) : List Node :=
  (n.sources.toList.filterMap g.node?).filter (isVisible options)

/-- The arrows between the drawn nodes, by the indices of their ends. -/
def arrows (options : Options) (g : Graph) : List (Nat × Nat) :=
  (drawn options g).flatMap fun n => (drawnSources options g n).map fun source =>
    (source.index, n.index)

section

variable {cs ds : List Char}

/-- A drawing has the statements on its nodes, and then those on the arrows between them. -/
theorem statements_eq (options : Options) (g : Graph) : statements options g =
    (drawn options g).map (fun n => .node n.index (label options n) (color n.part))
      ++ (arrows options g).map fun arrow => .edge arrow.1 arrow.2 := by
  rw [arrows, List.map_flatMap]
  simp only [List.map_map]
  rfl

/-- The statement on a node is one line with an empty label. -/
theorem outside_nodeText (options : Options) (n : Node) :
    outside false (Statement.node n.index (label options n) (color n.part)).text.toList =
      some ((nodeLine n).toList ++ ['\n']) := by
  have start : Plain ("  ".toList ++ Decimal.digits n.index ++ " [label=".toList) :=
    (Plain.append (by decide) (plain_digits _)).append (by decide)
  have rest : outside false (", fillcolor=".toList ++ (color n.part).toList ++ "];\n".toList) =
      some (", fillcolor=".toList ++ (color n.part).toList ++ "];\n".toList) :=
    outside_seq (outside_plain (Plain.append (by decide) (plain_color _))) (by decide)
  -- the label alone stands in quotes
  have whole := outside_seq (outside_seq (outside_plain start)
    (outside_quoted (quiet_label options n))) rest
  simpa [Statement.text, nodeLine, Decimal.digits] using whole

/-- The line of an arrow has no quotes. -/
theorem plain_arrowLine (arrow : Nat × Nat) : Plain (arrowLine arrow).toList := by
  simp only [arrowLine, String.toList_append]
  exact (((Plain.append (by decide) (plain_toString _)).append (by decide)).append
    (plain_toString _)).append (by decide)

/-- The statement on an arrow is the line of the arrow. -/
theorem outside_edgeText (arrow : Nat × Nat) :
    outside false (Statement.edge arrow.1 arrow.2).text.toList =
      some ((arrowLine arrow).toList ++ ['\n']) := by
  have text : (Statement.edge arrow.1 arrow.2).text.toList = (arrowLine arrow).toList ++ ['\n'] := by
    simp [Statement.text, arrowLine]
  rw [text]
  exact outside_seq (outside_plain (plain_arrowLine arrow)) rfl

/-- The characters of a literal; to decode it would take much longer. -/
theorem toList_literal {literal : String} (spelled : literal = String.ofList cs) :
    literal.toList = cs := by
  rw [spelled, String.toList_ofList]

/-- A line is read off the characters of a literal. -/
theorem outside_literal {text line : String} (spelled : text = String.ofList cs)
    (spelled' : line = String.ofList ds) (read : outside false cs = some (ds ++ ['\n'])) :
    outside false text.toList = some (line.toList ++ ['\n']) := by
  rw [toList_literal spelled, toList_literal spelled', read]

/-- The statements on how to draw are the opening lines. -/
theorem outside_header :
    outside false ("digraph \x7b\n".toList ++ header.toList) = some (ended opening) := by
  have parts : header.toList = _ := String.toList_append
  rw [parts, ended, opening, List.flatMap_cons, List.flatMap_cons, List.flatMap_singleton]
  exact outside_seq (outside_literal rfl rfl rfl)
    (outside_seq (outside_literal rfl rfl rfl) (outside_literal rfl rfl rfl))

/-- Outside of its quoted strings, a drawing has a line for each of its statements. -/
theorem outside_toDot (options : Options) (g : Graph) : outside false (g.toDot options).toList =
    some (ended (opening ++ (drawn options g).map nodeLine ++ (arrows options g).map arrowLine
      ++ ["\x7d"])) := by
  have nodes := outside_flatMap (l := drawn options g) fun n _ => outside_nodeText options n
  have edges := outside_flatMap (l := arrows options g) fun arrow _ => outside_edgeText arrow
  have last : outside false "\x7d\n".toList = some (ended ["\x7d"]) := by decide
  have whole := outside_seq (outside_seq (outside_seq outside_header nodes) edges) last
  simp only [ended, List.flatMap_append, List.flatMap_map]
  rw [Graph.toDot, statements_eq]
  simp only [String.toList_append, String.toList_join, List.flatMap_append, List.flatMap_map,
    List.map_append, List.append_assoc] at whole ⊢
  exact whole

/-- A text of lines is parted into them, and nothing follows the last one. -/
theorem pieces_ended {ls : List String} (single : ∀ line ∈ ls, '\n' ∉ line.toList) :
    (Text.pieces '\n' (ended ls)).map String.ofList = ls ++ [""] := by
  induction ls with
  | nil => rfl
  | cons line ls ih =>
    obtain ⟨first, others⟩ := List.forall_mem_cons.1 single
    rw [ended, List.flatMap_cons, List.append_assoc, List.singleton_append,
      Text.pieces_append first, List.map_cons, String.ofList_toList]
    exact congrArg (line :: ·) (ih others)

/-- A plain text is a single line. -/
theorem Plain.single (plain : Plain cs) : '\n' ∉ cs := fun member => (plain _ member).2.2 rfl

/-- The opening lines are single lines. -/
theorem single_opening : ∀ line ∈ opening, '\n' ∉ line.toList := by
  simp only [opening, List.forall_mem_cons]
  refine ⟨?_, ?_, ?_, fun _ => nofun⟩ <;> rw [toList_literal rfl] <;> decide

/-- So is the line of a node. -/
theorem single_nodeLine (n : Node) : '\n' ∉ (nodeLine n).toList := by
  simp only [nodeLine, String.toList_append, List.mem_append, not_or]
  exact ⟨⟨⟨⟨by decide, (plain_toString _).single⟩, by decide⟩, (plain_color _).single⟩, by decide⟩

/-- The lines of a drawing outside of its quoted strings. -/
theorem lines_toDot (options : Options) (g : Graph) : lines (g.toDot options) =
    some (opening ++ (drawn options g).map nodeLine ++ (arrows options g).map arrowLine
      ++ ["\x7d", ""]) := by
  rw [lines, outside_toDot, Option.map_some, pieces_ended, List.append_assoc _ _ [""]]
  · rfl
  intro line member
  simp only [List.mem_append, List.mem_map] at member
  rcases member with ((start | ⟨n, -, rfl⟩) | ⟨arrow, -, rfl⟩) | last
  · exact single_opening line start
  · exact single_nodeLine n
  · exact (plain_arrowLine arrow).single
  · cases List.mem_singleton.1 last
    decide

/-! ### Different statements have different lines -/

/-- Two numbers that are followed by a blank are the same if the texts that begin with them are. -/
theorem digits_cancel {a a' : Nat}
    (same : Decimal.digits a ++ ' ' :: cs = Decimal.digits a' ++ ' ' :: ds) : a = a' ∧ cs = ds := by
  have within (n : Nat) : ' ' ∉ Decimal.digits n := fun member =>
    absurd (Json.isDigit_of_mem_digits member) (by decide)
  have parts := congrArg (Text.pieces ' ') same
  rw [Text.pieces_append (within a), Text.pieces_append (within a')] at parts
  obtain rfl := Json.digits_injective (List.cons.inj parts).1
  exact ⟨rfl, (List.cons.inj (List.append_cancel_left same)).2⟩

/-- The line of a node begins with its index and a blank. -/
theorem toList_nodeLine (n : Node) : (nodeLine n).toList = "  ".toList ++
    (Decimal.digits n.index ++ ' ' :: ("[label=\"\", fillcolor=" ++ color n.part ++ "];").toList) := by
  simp [nodeLine, Decimal.digits]

/-- The line of an arrow begins with the index it comes from and a blank. -/
theorem toList_arrowLine (arrow : Nat × Nat) : (arrowLine arrow).toList = "  ".toList ++
    (Decimal.digits arrow.1 ++ ' ' :: ("-> ".toList ++ (Decimal.digits arrow.2 ++ [';']))) := by
  simp [arrowLine, Decimal.digits]

/-- The line of a node tells its index. -/
theorem index_eq_of_nodeLine {n m : Node} (same : nodeLine n = nodeLine m) : n.index = m.index := by
  have texts := congrArg String.toList same
  rw [toList_nodeLine, toList_nodeLine] at texts
  exact (digits_cancel (List.append_cancel_left texts)).1

/-- The line of an arrow tells both of its ends. -/
theorem arrowLine_injective : Function.Injective arrowLine := fun arrow arrow' same => by
  have texts := congrArg String.toList same
  rw [toList_arrowLine, toList_arrowLine] at texts
  obtain ⟨source, rest⟩ := digits_cancel (List.append_cancel_left texts)
  have target := List.append_cancel_right (List.append_cancel_left rest)
  exact Prod.ext source (Json.digits_injective target)

/-- No line of a node is that of an arrow. -/
theorem nodeLine_ne_arrowLine (n : Node) (arrow : Nat × Nat) : nodeLine n ≠ arrowLine arrow := by
  intro same
  have texts := congrArg String.toList same
  rw [toList_nodeLine, toList_arrowLine] at texts
  -- a bracket follows the index of a node, and a dash that of a source
  have rest := (digits_cancel (List.append_cancel_left texts)).2
  simp at rest

end

end Dot

/-! ## What is drawn -/

namespace Graph

/-- The nodes and the arrows that show a graph. -/
structure ShownBy (g : Graph) (options : Dot.Options) (nodes : List Node)
    (arrows : List (Nat × Nat)) : Prop where
  /-- Every node is shown but parameters and buffers, which an option hides. -/
  visible : ∀ n, n ∈ nodes ↔ (∃ h, g.node? h = some n) ∧
    ¬ (n.kind = .parameterOrBuffer ∧ options.showParameters = false)
  /-- The nodes ascend, so each has an index of its own. -/
  ascending : nodes.Pairwise fun n m => n.index < m.index
  /-- The arrows are the edges between nodes that are shown. -/
  edges : ∀ a b, (a, b) ∈ arrows ↔
    ∃ n ∈ nodes, ∃ m ∈ nodes, n.index = a ∧ m.index = b ∧ g.Edge n.handle m.handle
  /-- There is one for each of them. -/
  distinct : arrows.Nodup

section

variable {g : Graph}

/-- What is drawn is the visible live nodes. -/
theorem Stored.mem_drawn (stored : g.Stored) {options : Dot.Options} {n : Node} :
    n ∈ Dot.drawn options g ↔
      g.node? n.handle = some n ∧ Dot.isVisible options n = true := by
  rw [Dot.drawn, List.mem_filter, mem_nodes]
  refine and_congr_left fun _ => ⟨?_, fun found => ⟨n.handle, (stored.listed _).2 ⟨n, found⟩, found⟩⟩
  rintro ⟨h, -, found⟩
  rwa [stored.handle h n found]

/-- The arrows to a node come from those of its sources that are drawn. -/
theorem Stored.mem_drawnSources (stored : g.Stored) {options : Dot.Options} {n m : Node} :
    m ∈ Dot.drawnSources options g n ↔ m ∈ Dot.drawn options g ∧ m.handle ∈ n.sources := by
  rw [stored.mem_drawn, Dot.drawnSources, List.mem_filter, List.mem_filterMap]
  refine ⟨?_, fun ⟨⟨found, visible⟩, source⟩ => ⟨⟨m.handle, source, found⟩, visible⟩⟩
  rintro ⟨⟨h, source, found⟩, visible⟩
  obtain rfl := stored.handle h m found
  exact ⟨⟨found, visible⟩, source⟩

/-- The sources of a node that are drawn have different indices. -/
theorem Stored.drawnSources_distinct (stored : g.Stored) (normalized : g.isNormalized = true)
    (options : Dot.Options) (n : Node) :
    (Dot.drawnSources options g n).Pairwise fun m m' => m.index ≠ m'.index :=
  (stored.pairwise_index normalized n.sources).filter _

/-- A consistent graph whose indices are the positions is shown by what is drawn of it. -/
theorem Stored.shownBy (stored : g.Stored) (consistent : g.IsConsistent)
    (normalized : g.isNormalized = true) (options : Dot.Options) :
    g.ShownBy options (Dot.drawn options g) (Dot.arrows options g) where
  visible n := by
    have shown : Dot.isVisible options n = true ↔
        ¬ (n.kind = .parameterOrBuffer ∧ options.showParameters = false) := by
      rw [Dot.isVisible, Bool.or_eq_true, decide_eq_true_eq, not_and_or, Bool.not_eq_false]
    rw [stored.mem_drawn, shown]
    refine and_congr_left fun _ => ⟨fun found => ⟨n.handle, found⟩, ?_⟩
    rintro ⟨h, found⟩
    rwa [stored.handle h n found]
  ascending := (index_ascending normalized).filter _
  edges a b := by
    have arrow (n m : Node) (drawn : m ∈ Dot.drawn options g) : n ∈ Dot.drawnSources options g m ↔
        n ∈ Dot.drawn options g ∧ g.Edge n.handle m.handle := by
      rw [stored.mem_drawnSources, consistent, back_iff (stored.mem_drawn.1 drawn).1]
    simp only [Dot.arrows, List.mem_flatMap, List.mem_map, Prod.mk.injEq]
    constructor
    · rintro ⟨m, drawn, n, source, rfl, rfl⟩
      obtain ⟨drawn', edge⟩ := (arrow n m drawn).1 source
      exact ⟨n, drawn', m, drawn, rfl, rfl, edge⟩
    · rintro ⟨n, drawn', m, drawn, rfl, rfl, edge⟩
      exact ⟨m, drawn, n, (arrow n m drawn).2 ⟨drawn', edge⟩, rfl, rfl⟩
  distinct := by
    refine List.nodup_flatMap.2 ⟨fun m _ => List.pairwise_map.2 ?_, ?_⟩
    · exact (stored.drawnSources_distinct normalized options m).imp fun different same =>
        different (Prod.mk.inj same).1
    · refine ((index_ascending normalized).filter _).imp fun less arrow left right => ?_
      obtain ⟨_, -, rfl⟩ := List.mem_map.1 left
      obtain ⟨_, -, same⟩ := List.mem_map.1 right
      exact Nat.ne_of_gt less (Prod.mk.inj same).2

/-- Whatever the scopes, costs and shapes are, a drawing of a consistent graph whose indices are the
positions says outside of its quoted strings how to draw, and has a line for each node that is shown
and for each edge between two of them, each of them once, and no other lines. -/
theorem Reachable.toDot_lines (reachable : g.Reachable) (consistent : g.isConsistent = true)
    (normalized : g.isNormalized = true) (options : Dot.Options) :
    ∃ nodes arrows, g.ShownBy options nodes arrows ∧
      (nodes.map Dot.nodeLine ++ arrows.map Dot.arrowLine).Nodup ∧
      Dot.lines (g.toDot options) = some (Dot.opening ++ nodes.map Dot.nodeLine
        ++ arrows.map Dot.arrowLine ++ ["\x7d", ""]) := by
  have stored := reachable.stored
  have shown := stored.shownBy (stored.isConsistent_iff.1 consistent) normalized options
  refine ⟨_, _, shown, List.nodup_append'.2 ⟨?_, ?_, ?_⟩, Dot.lines_toDot options g⟩
  · exact List.pairwise_map.2 (shown.ascending.imp fun less same =>
      Nat.ne_of_lt less (Dot.index_eq_of_nodeLine same))
  · exact shown.distinct.map Dot.arrowLine_injective
  · intro line node arrow
    obtain ⟨n, -, rfl⟩ := List.mem_map.1 node
    obtain ⟨e, -, same⟩ := List.mem_map.1 arrow
    exact Dot.nodeLine_ne_arrowLine n e same.symm

end

/-- Three nodes, the scopes of which try to get out of their labels, and the last of which reads from
the others. -/
def escaping : Graph :=
  let three := ((empty.add "a\"]; 7 -> 8; //" .input [[2, 3]] (.elements 6)).add "\\\n\""
    .parameterOrBuffer [] .unmeasured).add "\\" .rawOp [] .unmeasured
  (three.connect 0 2).connect 1 2

/-- They do not get out of them. -/
theorem escaping_drawn : escaping.Reachable ∧ escaping.isConsistent = true ∧
    escaping.isNormalized = true ∧ (∃ nodes arrows, escaping.ShownBy {} nodes arrows ∧
      (nodes.map Dot.nodeLine ++ arrows.map Dot.arrowLine).Nodup ∧
      Dot.lines (escaping.toDot {}) = some (Dot.opening ++ nodes.map Dot.nodeLine
        ++ arrows.map Dot.arrowLine ++ ["\x7d", ""])) := by
  have reachable : escaping.Reachable :=
    .connect 1 2 (.connect 0 2 (.add _ _ _ _ (.add _ _ _ _ (.add _ _ _ _ .empty))))
  have consistent : escaping.isConsistent = true := by decide
  have normalized : escaping.isNormalized = true := by decide
  exact ⟨reachable, consistent, normalized, reachable.toDot_lines consistent normalized {}⟩

example : Dot.lines (escaping.toDot {}) = some (Dot.opening ++
    ["  0 [label=\"\", fillcolor=white];", "  2 [label=\"\", fillcolor=white];"] ++ ["  0 -> 2;"]
      ++ ["\x7d", ""]) := by
  rw [Dot.lines_toDot]
  rfl

end Graph

end StagePlan
