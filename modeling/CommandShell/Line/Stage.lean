/-!
# Stages

What a line asks for: the stages of a pipeline, each with its arguments and the redirections of its
streams.
-/

namespace CommandShell

/-- The stream that a redirection applies to. -/
inductive Target
  /-- Standard output. -/
  | output
  /-- Standard error. -/
  | error
  /-- Any other descriptor: accepted on a line and without effect. -/
  | unknown
  deriving DecidableEq

/-- A request to send one of a stage's streams to a file. -/
structure Redirection where
  /-- The stream to send. -/
  target : Target
  /-- The file to send it to. -/
  path : String
  /-- Whether the file keeps what it holds. -/
  append : Bool
  deriving DecidableEq

/-- One command of a pipeline. -/
structure Stage where
  /-- The program name, followed by its arguments. -/
  arguments : List String
  /-- The redirections, in the order of the line. -/
  redirections : List Redirection
  deriving DecidableEq

/-- The name of the program to run, empty if there are no arguments at all. -/
def Stage.program (s : Stage) : String := s.arguments.headD ""

end CommandShell
