/-!
# Help texts

What the builtins and the command line print when they are asked for help.
-/

namespace CommandShell.Help

/-- The line that every help text ends with. -/
def helpOption : String := "  --help, help      display usage information"

/-- A help text from its lines. -/
def ofLines (lines : List String) : String := String.intercalate "\n" (lines ++ [helpOption])

/-- Help on `pwd`. -/
def pwd : String := ofLines [
  "Usage: pwd",
  "",
  "Print the current working directory to standard output.",
  "",
  "Options:"]

/-- Help on `cd`. -/
def cd : String := ofLines [
  "Usage: cd [--] [<target>]",
  "",
  "Change the current working directory. If no target is provided, changes to the directory " ++
    "specified by the HOME environment variable.",
  "",
  "Positional Arguments:",
  "  target            directory to switch to; absolute, relative to the current",
  "                    directory, or starting with ~. Defaults to $HOME when",
  "                    omitted.",
  "",
  "Options:"]

/-- Help on `exit`. -/
def exit : String := ofLines [
  "Usage: exit [args...]",
  "",
  "Leave the shell once the current line has finished.",
  "",
  "Options:"]

/-- Help on `type`. -/
def type : String := ofLines [
  "Usage: type [names...]",
  "",
  "Describe how each name would be interpreted as a command.",
  "",
  "Options:"]

/-- Help on `history`. -/
def history : String := ofLines [
  "Usage: history [-r <read>] [-w <write>] [-a <append>] [--] [<count>]",
  "",
  "Display the command history, or load it from and save it to files.",
  "",
  "Positional Arguments:",
  "  count             show only the last N entries.",
  "",
  "Options:",
  "  -r, --read        append the lines of the given file to the history list.",
  "  -w, --write       overwrite the given file with the whole history list.",
  "  -a, --append      append entries added since the last append to the given",
  "                    file."]

/-- Help on the command line of the shell. -/
def commandLine : String := ofLines [
  "Usage: tinysh [-c <command>] [--histfile <histfile>] [--prompt <prompt>] [-v]",
  "",
  "A small interactive shell with pipelines, redirections, history and tab completion.",
  "",
  "Options:",
  "  -c, --command     run the given line, then exit with its status.",
  "  --histfile        history file to load at startup and save at exit; overrides",
  "                    $HISTFILE.",
  "  --prompt          prompt printed before each line when reading from a",
  "                    terminal.",
  "  -v, --verbose     log debugging details to standard error."]

end CommandShell.Help
