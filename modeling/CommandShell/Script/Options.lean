import CommandShell.Script.Command

/-!
# Options of commands

The commands of the language take options of one letter, several of which may stand behind one dash.
A letter may take an argument: the rest of its word, or else the next word.
-/

namespace CommandShell.Script

namespace Options

/-- Why a letter is no option. -/
def unknownFault (c : Char) : Raw := "Illegal option -".toList ++ [c]

/-- Why an option cannot be taken. -/
def missingFault (c : Char) : Raw := "No arg for -".toList ++ [c] ++ " option".toList

/-- Reads options: what is left of the current word, and the arguments behind it. `letters` tells for
each option whether it takes an argument. -/
def readFrom (letters : List (Char × Bool)) (soFar : List (Char × Raw)) (cs : Raw)
    (arguments : List Raw) : Except Raw (List (Char × Raw) × List Raw) :=
  match cs with
  | c :: cs =>
    match letters.lookup c with
    | none => .error (unknownFault c)
    | some false => readFrom letters (soFar ++ [(c, [])]) cs arguments
    | some true =>
      match cs, arguments with
      | [], [] => .error (missingFault c)
      | [], a :: rest => readFrom letters (soFar ++ [(c, a)]) [] rest
      | text, rest => readFrom letters (soFar ++ [(c, text)]) [] rest
  | [] =>
    match arguments with
    | ('-' :: c :: cs) :: rest =>
      if c = '-' && cs.isEmpty then .ok (soFar, rest) else readFrom letters soFar (c :: cs) rest
    | _ => .ok (soFar, arguments)
termination_by (arguments.length, cs.length)

/-- The options at the start of arguments, each with its argument, and the arguments behind them. -/
def read (letters : List (Char × Bool)) (arguments : List Raw) :
    Except Raw (List (Char × Raw) × List Raw) :=
  readFrom letters [] [] arguments

end Options

end CommandShell.Script
