import CommandShell.Session

/-!
# The command line

The shell called with arguments: it runs one line that is given to it, or else the lines on its
standard input.
-/

namespace CommandShell

/-- The arguments of the command line. -/
def Grammar.commandLine : Grammar where
  options := [⟨"command", some 'c', true⟩, ⟨"histfile", none, true⟩, ⟨"prompt", none, true⟩,
    ⟨"verbose", some 'v', false⟩]
  positionals := .none

namespace CommandLine

/-- The variable that holds the filter of notices. -/
def filterVariable : String := "TINYSH_LOG"

/-- What is printed for refused arguments. A refusal after a request for help has no line of its
own. -/
def refusal (f : ArgumentFault) : String :=
  f.message ++ (if f = .afterHelp then "" else "\n") ++
    "\nRun tinysh --help for more information.\n"

/-- The notices that a session tells: those that are asked for, and warnings if nothing else is asked
for in a way that makes sense. -/
def filter (a : Arguments) (e : Environment) : Filter :=
  if (a.value? "verbose").isSome then .upTo .debug
  else ((e.get? filterVariable).bind Filter.parse?).getD (.upTo .warn)

/-- The settings of a session: the arguments override the environment. -/
def config (a : Arguments) (e : Environment) : Config :=
  let asked := Config.ofEnvironment e false
  { asked with
    historyFile := (a.value? "histfile").orElse fun _ => asked.historyFile
    prompt := (a.value? "prompt").getD asked.prompt }

/-- Runs the session that the arguments ask for. Standard output is taken to keep up with what is
written: it is not flushed once more behind a line that was given. -/
def runSession (a : Arguments) (e : Environment) (process : Process) (host : Host) :
    Status × Host :=
  let process := { process with filter := filter a e }
  let s := Session.start ⟨e, .empty, process, host⟩ (config a e)
  match a.value? "command" with
  | some line =>
    let (status, s) := s.evaluate line
    (status.lowByte, s.shell.host)
  | none =>
    match s.run with
    | (.ok (), s) => (0, s.shell.host)
    | (.error f, s) =>
      (1, process.complain s.shell.host ("Error: " ++ Session.readFaultMessage f))

/-- Runs the shell with arguments, in an environment that has the exported variables of the host. -/
def run (arguments : List String) (process : Process) (host : Host) : Status × Host :=
  match Grammar.commandLine.read arguments with
  | .error f =>
    (1, host.orElseWritten (process.write 2 host (Text.encode (refusal f))))
  | .ok a =>
    if a.help then
      (0, host.orElseWritten (process.write 1 host (Text.encode (Help.commandLine ++ "\n\n"))))
    else runSession a (Environment.ofVariables host.exported process.directory.path) process host

end CommandLine

end CommandShell
