/-!
# Command-line arguments

Reading the arguments of a command against a grammar of options and positional arguments, from left
to right. Asking for help is an answer of its own, but it does not undo an error.
-/

namespace CommandShell

/-- An option of a command. -/
structure OptionSpec where
  /-- The long spelling, without its dashes. -/
  long : String
  /-- The one-letter spelling, if there is one. -/
  short : Option Char
  /-- Whether the option takes the next argument as its value. -/
  takesValue : Bool
  deriving DecidableEq

/-- Whether an argument is a spelling of an option. -/
def OptionSpec.isSpelled (o : OptionSpec) (argument : String) : Bool :=
  argument = "--" ++ o.long || o.short.any fun c => argument = "-" ++ String.singleton c

/-- Which positional arguments a command takes. -/
inductive Positionals
  | none
  /-- At most one, with its name and with the reason, if any, for refusing a text. -/
  | one (name : String) (refusal : String → Option String)
  /-- Any number; the first of them ends the options. -/
  | any

/-- The arguments that a command takes. -/
structure Grammar where
  options : List OptionSpec
  positionals : Positionals

/-- Why arguments are refused. -/
inductive ArgumentFault
  | unrecognized (argument : String)
  | afterHelp
  | missingValue (option : String)
  | duplicateValue (option value : String)
  | badPositional (name value reason : String)
  deriving DecidableEq

/-- The text of an argument fault. -/
def ArgumentFault.message : ArgumentFault → String
  | unrecognized a => "Unrecognized argument: " ++ a
  | afterHelp => "Trailing arguments are not allowed after `help`."
  | missingValue o => "No value provided for option '" ++ o ++ "'."
  | duplicateValue o v =>
    "Error parsing option '" ++ o ++ "' with value '" ++ v ++ "': duplicate values provided"
  | badPositional n v r =>
    "Error parsing positional argument '" ++ n ++ "' with value '" ++ v ++ "': " ++ r

/-- Arguments that were read. -/
structure Arguments where
  /-- Whether help was asked for. -/
  help : Bool
  /-- Whether options may still follow. -/
  optionsOpen : Bool
  /-- The options given, by long spelling, with their values; switches have an empty value. -/
  options : List (String × String)
  positionals : List String
  deriving DecidableEq

namespace Arguments

/-- The value of an option. -/
def value? (a : Arguments) (long : String) : Option String := a.options.lookup long

/-- Records an option. -/
def addOption (a : Arguments) (long value : String) : Arguments :=
  { a with options := a.options ++ [(long, value)] }

/-- Records a positional argument, if the grammar takes one more. -/
def addPositional (a : Arguments) (ps : Positionals) (text : String) :
    Except ArgumentFault Arguments :=
  let extended := { a with positionals := a.positionals ++ [text] }
  match ps with
  | .none => .error (.unrecognized text)
  | .one name refusal =>
    if a.positionals.isEmpty then
      match refusal text with
      | some reason => .error (.badPositional name text reason)
      | none => .ok extended
    else .error (.unrecognized text)
  | .any => .ok { extended with optionsOpen := false }

end Arguments

namespace Grammar

/-- Reads the arguments that follow those read already. -/
def readFrom (g : Grammar) : Arguments → List String → Except ArgumentFault Arguments
  | a, [] => .ok a
  | a, text :: rest =>
    if !a.optionsOpen then
      match a.addPositional g.positionals text with
      | .ok a => readFrom g a rest
      | .error e => .error e
    else if text = "--help" || text = "help" then readFrom g { a with help := true } rest
    else if text = "--" then readFrom g { a with optionsOpen := false } rest
    else if text.toList.head? = some '-' then
      if a.help then .error .afterHelp
      else
        match g.options.find? (·.isSpelled text) with
        | none => .error (.unrecognized text)
        | some o =>
          if !o.takesValue then readFrom g (a.addOption o.long "") rest
          else
            match rest with
            | [] => .error (.missingValue text)
            | value :: rest =>
              if (a.value? o.long).isSome then .error (.duplicateValue text value)
              else readFrom g (a.addOption o.long value) rest
    else
      match a.addPositional g.positionals text with
      | .ok a => readFrom g a rest
      | .error e => .error e

/-- Reads the arguments of a command. -/
def read (g : Grammar) (arguments : List String) : Except ArgumentFault Arguments :=
  g.readFrom ⟨false, true, [], []⟩ arguments

end Grammar

end CommandShell
