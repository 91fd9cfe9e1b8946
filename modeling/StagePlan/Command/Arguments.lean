import StagePlan.Text.Search

/-!
# Arguments

A command takes options only. An option is named by a word behind two dashes or by a letter behind one,
stands at most once, and takes a value or none. The value follows a word behind an equals sign or as the
next argument, which must not begin with a dash then, and a letter at once, behind an equals sign or as
the next argument. Two dashes alone end the options. `Switch.scan` reads a list of arguments by a list of
options, from left to right; the first fault ends it, as does a wish for help or for the version.
-/

namespace StagePlan

/-- Why a list of arguments is refused. -/
inductive UsageCause where
  /-- No option is meant. -/
  | unknown (argument : String)
  /-- An option stands twice. -/
  | repeated (name : String)
  /-- An option lacks its value. -/
  | missingValue (name : String)
  /-- An option is given a value that it does not take. -/
  | unwantedValue (name : String)
  /-- The value of an option is not of its kind. -/
  | badValue (name value : String)
  /-- An option is left out that must not be. -/
  | missing (name : String)

/-- The words for arguments that are refused. -/
def UsageCause.reason : UsageCause → String
  | unknown argument => "unexpected argument " ++ argument
  | repeated name => "option --" ++ name ++ " is given twice"
  | missingValue name => "option --" ++ name ++ " needs a value"
  | unwantedValue name => "option --" ++ name ++ " takes no value"
  | badValue name value => "option --" ++ name ++ " does not take the value " ++ value
  | missing name => "option --" ++ name ++ " is needed"

/-- Why a command is not run. -/
inductive Stop where
  /-- Help is wanted. -/
  | help
  /-- The version is wanted. -/
  | version
  /-- The arguments are refused. -/
  | usage (cause : UsageCause)

/-- What an option does to the options met so far. -/
inductive Effect (σ : Type) where
  /-- It takes no value. -/
  | flag (set : σ → σ)
  /-- It takes a value, which may be refused. -/
  | value (set : σ → String → Option σ)
  /-- It ends the command. -/
  | stop (reason : Stop)

/-- An option of a command. -/
structure Switch (σ : Type) where
  /-- Its word. -/
  name : String
  /-- Its letter. -/
  letter : Option Char := none
  /-- What it is for. -/
  about : String
  /-- Whether it was met before. -/
  isSet : σ → Bool := fun _ => false
  /-- What it does. -/
  effect : Effect σ

/-- The options that every command has. -/
def Switch.general : List (Switch σ) := [
  { name := "help", letter := 'h', about := "Print help", effect := .stop .help },
  { name := "version", letter := 'V', about := "Print the version", effect := .stop .version }]

/-- An argument by its form. -/
inductive Argument where
  /-- The end of the options. -/
  | terminator
  /-- A word with the value behind its equals sign. -/
  | word (name : String) (value : Option String)
  /-- A letter with what follows it. -/
  | letter (letter : Char) (rest : List Char)
  /-- Anything else, be it a value. -/
  | operand

/-- The form of an argument. -/
def Argument.ofText (text : String) : Argument :=
  match text.toList with
  | ['-', '-'] => .terminator
  | '-' :: '-' :: cs =>
    let name := String.ofList (cs.takeWhile (· ≠ '='))
    match cs.dropWhile (· ≠ '=') with
    | _ :: value => .word name (some (String.ofList value))
    | [] => .word name none
  | '-' :: c :: cs => .letter c cs
  | _ => .operand

/-- Whether an argument may be a value. -/
def Argument.isOperand : Argument → Bool
  | operand => true
  | _ => false

/-- The value that follows a letter, without an equals sign before it. -/
def Argument.attached? : List Char → Option String
  | [] => none
  | '=' :: cs => some (String.ofList cs)
  | c :: cs => some (String.ofList (c :: cs))

namespace Switch

variable (switches : List (Switch σ))

/-- Whether an option takes a value. -/
def takesValue (switch : Switch σ) : Bool :=
  match switch.effect with
  | .value _ => true
  | .flag _ | .stop _ => false

/-- The option that an argument names, with the value that it carries. What follows a letter is nothing but
a value. -/
def resolve (text : String) : Except Stop (Switch σ × Option String) :=
  match Argument.ofText text with
  | .word name value =>
    match switches.find? (·.name == name) with
    | some switch => .ok (switch, value)
    | none => .error (.usage (.unknown text))
  | .letter letter rest =>
    match switches.find? (·.letter == some letter) with
    | some switch => .ok (switch, if switch.takesValue then Argument.attached? rest else none)
    | none => .error (.usage (.unknown text))
  | .terminator | .operand => .error (.usage (.unknown text))

/-- The options once one more was met, with a value or without. -/
def apply (switch : Switch σ) (s : σ) (value : Option String) : Except Stop σ :=
  match switch.effect, value with
  | .stop reason, none => .error reason
  | .stop _, some _ | .flag _, some _ => .error (.usage (.unwantedValue switch.name))
  | .value _, none => .error (.usage (.missingValue switch.name))
  | .flag set, none =>
    if switch.isSet s then .error (.usage (.repeated switch.name)) else .ok (set s)
  | .value set, some v =>
    if switch.isSet s then .error (.usage (.repeated switch.name))
    else
      match set s v with
      | some s => .ok s
      | none => .error (.usage (.badValue switch.name v))

/-- The options that a list of arguments sets. -/
def scan (s : σ) : List String → Except Stop σ
  | [] => .ok s
  | ["--"] => .ok s
  | arg :: next :: args => do
    let (switch, value) ← resolve switches arg
    if switch.takesValue && value.isNone && (Argument.ofText next).isOperand then
      scan (← switch.apply s (some next)) args
    else scan (← switch.apply s value) (next :: args)
  | [arg] => do
    let (switch, value) ← resolve switches arg
    switch.apply s value

/-- The lines that say what the options are for. -/
def help : List String :=
  switches.map fun switch =>
    let letter := match switch.letter with
      | some c => "-" ++ String.singleton c ++ ", "
      | none => "    "
    "  " ++ letter ++ "--" ++ switch.name ++ ": " ++ switch.about

end Switch

end StagePlan
