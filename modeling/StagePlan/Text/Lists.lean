/-!
# Lists in messages

Messages show lists in brackets, with a comma and a blank between the entries.
-/

namespace StagePlan.Text

/-- The entries with a comma and a blank between them. -/
def enumerated (entries : List String) : String := String.intercalate ", " entries

/-- A list of whole numbers in brackets. -/
def bracketed (ns : List Nat) : String := "[" ++ enumerated (ns.map toString) ++ "]"

/-- A list of pairs of whole numbers in brackets, each pair in parentheses. -/
def bracketedPairs (ps : List (Nat × Nat)) : String :=
  "[" ++ enumerated (ps.map fun (a, b) => "(" ++ toString a ++ ", " ++ toString b ++ ")") ++ "]"

/-- A text moved to the right end of a column of the given width; a longer one stays as it is. -/
def padLeft (width : Nat) (text : String) : String :=
  String.ofList (List.replicate (width - text.length) ' ') ++ text

end StagePlan.Text
