import CommandShell.Line.Piece
import CommandShell.Notice

/-!
# Lines in notices

How notices show the stages of a line, and what was left out of it.
-/

namespace CommandShell

/-- The name of a stream. -/
def Target.name : Target → String
  | output => "Output"
  | error => "Error"
  | unknown => "Unknown"

/-- A list between brackets. -/
def Notice.listed (items : List String) : String := "[" ++ String.intercalate ", " items ++ "]"

/-- A record, by its name and its fields. -/
def Notice.record (name : String) (fields : List (String × String)) : String :=
  let field (f : String × String) : String := f.1 ++ ": " ++ f.2
  name ++ " \x7b " ++ String.intercalate ", " (fields.map field) ++ " \x7d"

/-- A redirection as notices show it. -/
def Redirection.shown (r : Redirection) : String :=
  Notice.record "Redirection"
    [("target", r.target.name), ("path", Notice.quoted r.path), ("append", toString r.append)]

/-- A stage as notices show it. -/
def Stage.shown (s : Stage) : String :=
  Notice.record "Stage"
    [("arguments", Notice.listed (s.arguments.map Notice.quoted)),
      ("redirections", Notice.listed (s.redirections.map Redirection.shown))]

/-- The notice of what was left out of a line. -/
def LineNotice.notice : LineNotice → Notice
  | missingPath target =>
    ⟨"tinysh::parser", .warn, "redirection without a file name ignored", [("target", target.name)]⟩
  | missingCommand => ⟨"tinysh::parser", .warn, "redirections without a command ignored", []⟩

end CommandShell
