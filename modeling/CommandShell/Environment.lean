import CommandShell.Table
import CommandShell.Text

/-!
# The shell's environment

The variables that the shell looks up, the working directory as it shows it, and whether it is about
to leave; and the settings of a session, which start from the variables.
-/

namespace CommandShell

/-- The shell's view of its surroundings. -/
structure Environment where
  /-- The variables, each name once. -/
  bindings : List (String × String)
  /-- The working directory, as an absolute path. -/
  currentDirectory : String
  /-- Whether the session ends after the current line. -/
  leaving : Bool
  deriving DecidableEq

namespace Environment

/-- The environment with the given variables. -/
def ofVariables (bindings : List (String × String)) (currentDirectory : String) : Environment :=
  ⟨bindings.foldl (fun vs v => Table.set v.1 v.2 vs) [], currentDirectory, false⟩

/-- The value of a variable. -/
def get? (e : Environment) (name : String) : Option String := e.bindings.lookup name

/-- Gives a variable a value. -/
def set (e : Environment) (name value : String) : Environment :=
  { e with bindings := Table.set name value e.bindings }

/-- The directories in which programs are looked for, separated by colons. -/
def searchPath (e : Environment) : String := (e.get? "PATH").getD ""

end Environment

/-- The settings of a session. -/
structure Config where
  /-- What is shown before each line that is read from a terminal. -/
  prompt : String
  /-- The file that keeps the history between sessions. -/
  historyFile : Option String
  /-- Whether lines are typed at a terminal. -/
  interactive : Bool
  deriving DecidableEq

/-- The settings that an environment asks for. -/
def Config.ofEnvironment (e : Environment) (interactive : Bool) : Config where
  prompt := "$ "
  historyFile := (e.get? "HISTFILE").filter (· ≠ "")
  interactive := interactive

end CommandShell
