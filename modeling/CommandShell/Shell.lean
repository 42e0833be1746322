import CommandShell.Environment
import CommandShell.History
import CommandShell.Streams
import CommandShell.Program.Search

/-!
# The shell

A shell is a process with an environment and a history, on a host that it shares with the programs
it starts.
-/

namespace CommandShell

/-- How a command ended: zero is success. -/
abbrev Status := Int

/-- The status as another process sees it, which keeps its lowest eight bits. -/
def Status.lowByte (s : Status) : Status := s % 256

/-- A shell and all it can reach. -/
structure Shell where
  environment : Environment
  history : History
  process : Process
  host : Host

namespace Shell

/-- A shell that starts on a host with nothing in its history, in the given working directory. -/
def start (environment : Environment) (directory : Location) (host : Host) : Shell :=
  ⟨environment, .empty, .initial directory, host⟩

/-- The path of the program that a name stands for. -/
def locate (sh : Shell) (name : String) : Option String :=
  CommandShell.locate sh.host.files sh.process.directory sh.environment.searchPath name

/-- Tells a notice, if the shell tells such notices. -/
def tell (sh : Shell) (n : Notice) : Shell := { sh with host := sh.process.tell sh.host n }

end Shell

end CommandShell
