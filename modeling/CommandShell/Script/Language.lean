import CommandShell.Script.Condition
import CommandShell.Script.Format
import CommandShell.Script.Input
import CommandShell.Script.Limits
import CommandShell.Script.Naming
import CommandShell.Script.Place
import CommandShell.Script.Reaction
import CommandShell.Script.Setting

/-!
# The commands of the language

The commands that are part of the language of scripts, by name: those that tell something, those that
run other commands, and those that leave loops, functions or the script.
-/

namespace CommandShell.Script.Machine

/-! ## Telling -/

/-- Writes arguments, formatted. -/
def runPrintf (m : Machine) (h : Host) (arguments : List Raw) : Outcome :=
  m.withOptions h [] arguments fun _ rest =>
    match rest with
    | [] => m.fails h "usage: printf format [arg ...]".toList
    | format :: arguments =>
      let p := printed format arguments
      let h := p.complaints.foldl m.complain h
      match p.failure with
      | some message => .failed m h p.text message
      | none => .done m h p.text (if p.complaints.isEmpty then 0 else 1)

/-- Tells by its status whether a condition holds. -/
def runTest (m : Machine) (h : Host) (arguments : List Raw) : Outcome :=
  match Condition.truth h.files m.process.directory arguments with
  | .ok holds => m.done h (if holds then 0 else 1)
  | .error message => m.fails h message

/-- Tells by its status whether a condition between brackets holds. -/
def runBracket (m : Machine) (h : Host) (arguments : List Raw) : Outcome :=
  if arguments.getLast? = some [']'] then m.runTest h arguments.dropLast
  else m.fails h "missing ]".toList

/-! ## Running commands -/

/-- Runs arguments as commands. -/
def runEval (m : Machine) (h : Host) (tested : Bool) (arguments : List Raw) : Outcome :=
  if arguments.isEmpty then m.done h 0
  else
    let text := List.intercalate [' '] arguments
    .goesOn (m.push (.commands (.ofText text .argument tested))) h

/-- The file that a name stands for, if it is to be read from: a name without slashes is looked for
on the search path. -/
def commandFile (m : Machine) (h : Host) (name : Raw) : Except Raw Raw :=
  let isFile (path : Raw) : Bool :=
    match h.files.lookup m.process.directory (Raw.toText path) with
    | .ok node => node.isRegular
    | .error _ => false
  if name.contains '/' then .ok name
  else
    let paths := (cutAt ':' m.searchPath).map fun directory => inDirectory directory name
    match paths.find? isFile with
    | some path => .ok path
    | none => .error (name ++ ": not found".toList)

/-- Opens a file of commands, at a descriptor that no script names. -/
def openCommands (m : Machine) (h : Host) (path : Raw) (role : Role) :
    Except Raw (Machine × Host) := do
  let (handle, h) ← m.openFile h .input path
  let (place, d) := m.process.descriptors.addFrom firstKept handle
  return ((m.withDescriptors d).push (.commands (.ofDescriptor place role)), h)

/-- Runs the commands in a file. -/
def runDot (m : Machine) (h : Host) (arguments : List Raw) : Outcome :=
  m.withOptions h [] arguments fun _ rest =>
    match rest with
    | [] => m.done h 0
    | name :: _ =>
      match m.commandFile h name with
      | .error message => m.fails h message
      | .ok path =>
        match { m with command := some path }.openCommands h path .file with
        | .error message => m.fails h message
        | .ok (m, h) => .goesOn m h

/-- Puts a program in the place of the script. -/
def runExec (m : Machine) (h : Host) (arguments : List Raw) : Outcome :=
  if arguments.isEmpty then m.done h 0 else .becomes m h arguments

/-! ## Leaving -/

/-- The number that the first argument has to be, if there is one. -/
def firstNumber (arguments : List Raw) : Except Raw (Option Nat) :=
  match arguments with
  | [] => .ok none
  | text :: _ => (numberArgument text).map some

/-- Goes on with the number that the first argument has to be. -/
def withNumber (m : Machine) (h : Host) (arguments : List Raw) (body : Option Nat → Outcome) :
    Outcome :=
  match firstNumber arguments with
  | .error message => m.fails h message
  | .ok n => body n

/-- Ends the script. -/
def runExit (m : Machine) (h : Host) (arguments : List Raw) : Outcome :=
  m.withNumber h arguments fun n =>
    .quits { m with savedStatus := n.orElse fun _ => m.savedStatus } h .exit

/-- Goes back to where a function was called. -/
def runReturn (m : Machine) (h : Host) (arguments : List Raw) : Outcome :=
  m.withNumber h arguments fun n =>
    { m with skip := some (.back n.isSome) }.done h (n.getD m.scope.status)

/-- Leaves loops, or starts one again. -/
def runLeave (m : Machine) (h : Host) (skip : Nat → Skip) (arguments : List Raw) : Outcome :=
  m.withNumber h arguments fun n =>
    match n.getD 1 with
    | 0 => m.fails h (Scope.numberFault (arguments.headD []))
    | n =>
      let loops := min n m.loopDepth
      (if loops = 0 then m else { m with skip := some (skip loops) }).done h 0

/-! ## All commands -/

/-- Runs a command of the language. `tested` says that its failure is looked at. -/
def runNamed (m : Machine) (h : Host) (tested : Bool) (name : Raw) (arguments : List Raw) :
    Outcome :=
  match String.ofList name with
  | "." => m.runDot h arguments
  | "[" => m.runBracket h arguments
  | "alias" => m.runAlias h arguments
  | "bg" | "fg" => m.runResume h arguments
  | "break" => m.runLeave h .leave arguments
  | "cd" | "chdir" => m.runCd h arguments
  | "command" => m.runCommand h arguments
  | "continue" => m.runLeave h .again arguments
  | "echo" => m.shows h (echoed arguments)
  | "eval" => m.runEval h tested arguments
  | "exec" => m.runExec h arguments
  | "exit" => m.runExit h arguments
  | "export" => m.runExport h arguments
  | "false" => m.done h 1
  | "getopts" => m.runGetopts h arguments
  | "hash" => m.runHash h arguments
  | "jobs" => m.runJobs h arguments
  | "kill" => m.runKill h arguments
  | "local" => m.runLocal h arguments
  | "printf" => m.runPrintf h arguments
  | "pwd" => m.runPwd h arguments
  | "read" => m.runRead h arguments
  | "readonly" => m.runReadonly h arguments
  | "return" => m.runReturn h arguments
  | "set" => m.runSet h arguments
  | "shift" => m.runShift h arguments
  | "test" => m.runTest h arguments
  | "times" => m.runTimes h
  | "trap" => m.runTrap h arguments
  | "type" => m.runType h arguments
  | "ulimit" => m.runUlimit h arguments
  | "umask" => m.runUmask h arguments
  | "unalias" => m.runUnalias h arguments
  | "unset" => m.runUnset h arguments
  | "wait" => m.runWait h arguments
  | _ => m.done h 0

end CommandShell.Script.Machine
