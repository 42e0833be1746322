import CommandShell.Process
import CommandShell.Script.Expansion
import CommandShell.Script.Reader
import CommandShell.Script.Signal

/-!
# Machines

A script is run in small steps, so that several programs can take turns. A machine is a script that
is running; what is still to be done is a stack of frames. A script that gives up takes frames off
until one of them holds it, and each frame on the way puts back what it has kept.
-/

namespace CommandShell.Script

/-- What commands are passed over for. -/
inductive Skip
  /-- To leave some number of loops. -/
  | leave (loops : Nat)
  /-- To start a loop again, after leaving those within it. -/
  | again (loops : Nat)
  /-- To go back to where a function was called, with a status that is given or not. -/
  | back (given : Bool)
  deriving DecidableEq

/-- How a script gives up what it is doing. -/
inductive Quitting
  /-- Something failed. -/
  | failure
  /-- It was told to exit. -/
  | exit
  /-- It has come to its end. -/
  | finish
  deriving DecidableEq

/-- What the commands of a text are for. -/
inductive Role
  /-- They are the script itself. -/
  | script
  /-- They are the script itself, whose last command may take the place of its process. -/
  | line
  /-- They are an argument. -/
  | argument
  /-- They are a file that the script reads. -/
  | file
  /-- They are what is done about a signal, or at the end of the script. -/
  | reaction
  deriving DecidableEq

/-- A text of commands that is being read and run. -/
structure Source where
  text : Raw
  line : Nat
  /-- The descriptor that the text is read from. -/
  descriptor : Option Nat
  /-- Whether there is no more of the text to be read. -/
  complete : Bool
  role : Role
  /-- Whether failures of the commands are looked at. -/
  tested : Bool
  /-- The status of the commands so far. -/
  status : Nat
  /-- Whether a command was just run. -/
  ran : Bool

namespace Source

/-- The source of a text. -/
def ofText (text : Raw) (role : Role) (tested : Bool) : Source :=
  ⟨text, 1, none, true, role, tested, 0, false⟩

/-- The source of a text that is still to be read. -/
def ofDescriptor (n : Nat) (role : Role) : Source :=
  ⟨[], 1, some n, false, role, false, 0, false⟩

end Source

/-- A line that is being read into variables. -/
structure Entry where
  /-- Whether backslashes have no meaning. -/
  raw : Bool
  /-- The variables. -/
  names : List Raw
  /-- Whether the last character was a backslash with a meaning. -/
  escaped : Bool
  cells : Array Cell
  /-- The regions in which fields are split, and where the next one starts. -/
  regions : List Region
  first : Nat

/-- A command that commands are being made for. -/
structure Preparing where
  line : Nat
  /-- The fields so far. -/
  fields : List Raw
  /-- The words that are left. -/
  words : List Word
  assignments : List Word
  redirects : List Redirect
  /-- Whether a failure of the command is looked at. -/
  tested : Bool
  /-- Whether nothing follows the command in its process. -/
  last : Bool

/-- What is known about a command before it is run. -/
structure Prepared where
  /-- All the fields that its words became. -/
  shown : List Raw
  /-- The fields without the words that say how the command is looked up. -/
  arguments : List Raw
  /-- Whether functions are passed over. -/
  noFunction : Bool
  /-- Whether the usual directories are searched. -/
  usualPath : Bool
  /-- Whether a failure before the command is run ends the script. -/
  special : Bool
  /-- Whether assignments are for the command only. -/
  keeps : Bool
  /-- Whether the redirections stay. -/
  stays : Bool
  tested : Bool
  last : Bool

/-- A redirection whose words are expanded. -/
inductive Rerouting
  | file (descriptor : Nat) (opening : Opening) (path : Raw)
  | same (descriptor : Nat) (other : Option Nat)
  | document (descriptor : Nat) (number : Nat)

/-- What stood at the descriptors that were redirected: nothing, or what is kept at another. -/
abbrev Saved := List (Nat × Option Nat)

/-- What a loop repeats. -/
structure Loop where
  negated : Bool
  condition : Command
  body : Command
  tested : Bool

/-- Something still to be done. -/
inductive Frame
  /-- Runs a command. -/
  | run (c : Command) (tested last : Bool)
  /-- Looks at the status of a command, if `checked`, and ends the process after the last one. -/
  | settle (checked last : Bool)
  | negate
  /-- Goes on with a command, if the last one succeeded or failed as wanted. -/
  | follow (wanted : Option Bool) (c : Command) (tested last : Bool)
  | choose (consequent : Command) (alternative : Option Command) (tested last : Bool)
  /-- Decides whether a loop goes on, behind its condition. -/
  | decide (l : Loop) (status : Nat)
  /-- Starts a loop again, behind its body. -/
  | repeated (l : Loop)
  /-- Gives a variable the fields that were expanded, one after the other. -/
  | each (name : Raw) (words : List Word) (values : List Raw) (body : Command) (tested : Bool)
  /-- Runs the body for each value that is left. -/
  | eachValue (name : Raw) (values : List Raw) (body : Command) (tested running : Bool)
  /-- Looks for the clause that the text fits which was expanded. -/
  | select (clauses : List Clause) (tested last : Bool)
  /-- Goes on to the clauses behind a pattern that was expanded. -/
  | fit (text : Raw) (patterns : List Word) (body : Option Command) (clauses : List Clause)
      (tested last : Bool)
  /-- Expands a word, given the outputs of the first commands in it. -/
  | expand (purpose : Purpose) (w : Word) (outputs : List Raw)
  /-- Expands a word again, with one more output. -/
  | expandOn (purpose : Purpose) (w : Word) (outputs : List Raw)
  /-- Reads what a process writes to a pipe, as long as it is open, and waits for its end. -/
  | collect (descriptor : Option Nat) (process : Nat) (pieces : List Raw)
  /-- Adds fields to a command that is being prepared. -/
  | words (p : Preparing)
  /-- Expands the words of redirections, before a command or the commands of another frame. -/
  | routes (left : List Redirect) (done : List Rerouting)
  /-- Takes a path that was expanded. -/
  | routePath (descriptor : Nat) (opening : Opening) (left : List Redirect) (done : List Rerouting)
  /-- Takes the name of a descriptor that was expanded. -/
  | routeName (descriptor : Nat) (left : List Redirect) (done : List Rerouting)
  /-- Makes redirections for the next frame, which is passed over after a failure, unless the failure
  is `special` and goes on. -/
  | redirect (left : List Rerouting) (saved : Saved) (special stays : Bool)
  /-- Takes input from a document that was expanded. -/
  | document (descriptor : Nat) (left : List Rerouting) (saved : Saved) (special stays : Bool)
  /-- Puts back what was redirected. -/
  | putBack (saved : Saved) (stays : Bool)
  /-- Takes up the redirections of a command. -/
  | redirected (p : Prepared) (assignments : List Word)
  /-- Takes up the redirections of commands. -/
  | redirectedBody (body : Command) (tested : Bool)
  /-- Takes up the redirections of a process of its own. -/
  | subshellBody (body : Command) (background tested last : Bool)
  /-- Makes processes for the commands of a pipeline that are left. `previous` is the descriptor for
  what the one before writes, and `made` are the processes so far. -/
  | stages (left : List Command) (previous : Option Nat) (made : List Nat)
      (background tested : Bool)
  /-- Makes the assignments that are left. `shown` are those that were made. -/
  | assign (p : Prepared) (left : List Word) (shown : List Raw)
  /-- Makes an assignment whose value was expanded. -/
  | assigned (p : Prepared) (left : List Word) (shown : List Raw)
  /-- Shows a command behind the text that was expanded. -/
  | trace (p : Prepared) (shown : List Raw)
  /-- Runs a command. -/
  | launch (p : Prepared)
  /-- Gives up the variables that were for a command only. -/
  | forget
  /-- Ends a function, with the parameters of its caller. -/
  | endFunction (parameters : List Raw) (place : Nat × Nat)
  /-- Ends a command of the language, with the command that the messages before were about. A failure
  goes no further unless it is `special`. -/
  | endBuiltin (before : Option Raw) (special : Bool)
  /-- Writes the output of a command of the language. -/
  | write (text : Raw) (status : Nat)
  /-- Fails behind the output of a command of the language. -/
  | writeFailing (text : Raw)
  /-- Waits for processes of which some have ended. -/
  | await (processes : List (Nat × Option Ending))
  /-- Waits for processes in the background: all, or those that are named. -/
  | awaitJobs (named : Option (List Raw)) (status : Nat)
  /-- Reads a line into variables. -/
  | readLine (e : Entry)
  /-- Reads and runs commands. -/
  | commands (s : Source)
  /-- Ends what was done about a signal. -/
  | endReaction (status : Nat) (before : Option Nat)
  /-- Ends the process. -/
  | endScript
  /-- Opens the file of the script, with the name that a failure is told by. -/
  | openScript (path name : Raw)
  /-- Gives up with a message. -/
  | giveUp (message : Raw)
  /-- Shows all options as set. -/
  | listOptions
  /-- Takes back the option for jobs with a terminal. -/
  | noTerminal

namespace Frame

/-- Whether a frame belongs to a loop that can be left or started again. -/
def isLoop : Frame → Bool
  | decide .. | repeated .. => true
  | eachValue _ _ _ _ running => running
  | _ => false

/-- Whether a frame belongs to a function. -/
def isFunction : Frame → Bool
  | endFunction .. => true
  | _ => false

/-- Whether a failure goes no further than a frame. -/
def holdsFailure : Frame → Bool
  | endBuiltin _ special => !special
  | redirect _ _ special _ => !special
  | document _ _ _ special _ => !special
  | _ => false

end Frame

/-- Processes that were started together in the background. -/
structure Job where
  number : Nat
  /-- The processes, with how they ended. -/
  processes : List (Nat × Option Ending)
  /-- Whether the job was waited for. -/
  waited : Bool

namespace Job

/-- Whether all processes have ended. -/
def isDone (j : Job) : Bool := j.processes.all fun p => p.2.isSome

end Job

/-- Where a program was found. -/
structure FoundPlace where
  /-- The place of its directory on the search path. -/
  directory : Nat
  /-- Whether the working directory has changed since. -/
  doubtful : Bool
  deriving DecidableEq

/-- The programs that were found on a search path. -/
structure Found where
  path : Raw
  /-- The names of the programs, each with where it was found. -/
  places : List (Raw × FoundPlace)

/-- A script that is running. -/
structure Machine where
  scope : Scope
  process : Process
  frames : List Frame
  /-- The line of the command that is being run. -/
  line : Nat
  /-- The command of the language that messages are about. -/
  command : Option Raw
  skip : Option Skip
  /-- What was expanded last. -/
  fields : List Raw
  /-- The status of the last command whose output stood for a word. -/
  outputStatus : Nat
  /-- The status to go back to at the end of what is done about a signal. -/
  savedStatus : Option Nat
  functions : List (Raw × Command)
  aliases : List (Raw × Raw)
  documents : List (Nat × Word)
  nextDocument : Nat
  /-- What is done about signals, and at the end of the script; nothing if it is empty. -/
  traps : List (Nat × Raw)
  /-- The signals that something is still to be done about. -/
  pending : List Nat
  found : Found
  /-- The jobs, the current one first. -/
  jobs : List Job
  /-- Whether the words of a trace are being expanded. -/
  tracing : Bool
  /-- The signals that are ignored whatever the script does about them. -/
  deaf : List Nat
  /-- The path of the working directory, by the names that the script has used. -/
  here : Raw
  /-- The loops around the command that the process was made for. -/
  outerLoops : Nat
  /-- The line that the script had come to when the process was made. -/
  outerLine : Nat
  /-- The functions that are being run, those around the process included. -/
  calls : Nat
  /-- Whether the script has come to its end. -/
  atEnd : Bool

namespace Machine

/-- The machine with a status. -/
def withStatus (m : Machine) (status : Nat) : Machine :=
  { m with scope := { m.scope with status := status } }

/-- The machine with another frame on top. -/
def push (m : Machine) (f : Frame) : Machine := { m with frames := f :: m.frames }

/-- The machine with other frames on top, the first of them topmost. -/
def pushAll (m : Machine) (fs : List Frame) : Machine := { m with frames := fs ++ m.frames }

/-- The machine with other descriptors. -/
def withDescriptors (m : Machine) (d : Descriptors) : Machine :=
  { m with process := { m.process with descriptors := d } }

/-- The machine with another scope. -/
def withScope (m : Machine) (s : Scope) : Machine := { m with scope := s }

/-- Writes to standard error, with nothing to be done about a failure. -/
def report (m : Machine) (h : Host) (text : Raw) : Host :=
  match m.process.descriptors.get? 2 with
  | some handle => h.tryWrite handle (Raw.toBytes text)
  | none => h

/-- Writes a message that tells the script, the line and the command. -/
def complain (m : Machine) (h : Host) (text : Raw) : Host :=
  let start := m.scope.name ++ ": ".toList ++ Raw.ofInt m.line ++ ": ".toList
  let about := match m.command with
    | some name => name ++ ": ".toList
    | none => []
  m.report h (start ++ about ++ text ++ ['\n'])

/-- The number of loops that can be left. -/
def loopDepth (m : Machine) : Nat :=
  let own := (m.frames.takeWhile fun f => !f.isFunction).countP Frame.isLoop
  if m.frames.any Frame.isFunction then own else own + m.outerLoops

/-- The line that the text has come to whose commands are being run. -/
def sourceLine (m : Machine) : Nat :=
  (m.frames.findSome? fun
    | .commands s => some s.line
    | _ => none).getD m.outerLine

/-- The line that the script itself has come to. -/
def scriptLine (m : Machine) : Nat :=
  (m.frames.findSome? fun
    | .commands s => if s.role = .script then some s.line else none
    | _ => none).getD m.outerLine

/-- Ends a function, with the parameters of its caller. -/
def leaveFunction (m : Machine) (parameters : List Raw) (place : Nat × Nat) : Machine :=
  { m with
    scope := { m.scope with parameters := parameters, optionPlace := place }
    calls := m.calls - 1 }

/-- Whether something is done about signals, or at the end of the script. -/
def hasTraps (m : Machine) : Bool := m.traps.any fun t => !t.2.isEmpty

/-! ## Descriptors -/

/-- Puts back what was redirected, unless it stays. -/
def undo (m : Machine) (saved : Saved) (stays : Bool) : Machine :=
  let back (d : Descriptors) (s : Nat × Option Nat) : Descriptors :=
    match s.2 with
    | some n => if stays then d.close n else (d.duplicate n s.1).close n
    | none => if stays then d else d.close s.1
  m.withDescriptors (saved.foldl back m.process.descriptors)

/-- Closes the descriptor of a text. -/
def closeSource (m : Machine) (s : Source) : Machine :=
  match s.descriptor with
  | some n => if n = 0 then m else m.withDescriptors (m.process.descriptors.close n)
  | none => m

/-! ## Giving up -/

/-- Takes the frames off that do not hold a failure. -/
def unwind (q : Quitting) : List Frame → Machine → Machine
  | [], m =>
    let status := if q = .exit then m.savedStatus.getD m.scope.status else m.scope.status
    { m.withStatus status with frames := [], savedStatus := none, skip := none, command := none }
  | f :: fs, m =>
    let held := q = .failure && (f :: fs).any Frame.holdsFailure
    match f with
    | .putBack saved stays => unwind q fs (m.undo saved stays)
    | .forget => unwind q fs (if held then m.withScope m.scope.restore else m)
    | .endFunction parameters place => unwind q fs (m.leaveFunction parameters place)
    | .commands s =>
      if q = .failure && s.role = .script && m.scope.has "interactive" then
        { m with frames := f :: fs, skip := none, command := none }
      else unwind q fs (m.closeSource s)
    | .endBuiltin before special =>
      let m := { m with command := before }
      if q = .failure && !special then { m with frames := fs } else unwind q fs m
    | .redirect _ saved special _ | .document _ _ saved special _ =>
      let m := m.undo saved false
      if q = .failure && !special then { m with frames := fs.drop 1 } else unwind q fs m
    | _ => unwind q fs m

end Machine

end CommandShell.Script
