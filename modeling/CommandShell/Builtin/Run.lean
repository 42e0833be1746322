import CommandShell.Arguments
import CommandShell.Number
import CommandShell.Builtin.Help
import CommandShell.Builtin.Registry

/-!
# Running builtins

What each builtin does to the shell, and what it writes to the streams of its stage. Except for
`echo`, which takes its arguments as they are, a builtin reads its arguments against a grammar,
answers a request for help on standard output, and reports refused arguments and its own failures on
standard error.
-/

namespace CommandShell

/-- Why a builtin fails. -/
inductive BuiltinFault
  /-- There is no home directory to change to. -/
  | homeNotSet
  /-- The directory, given as it was asked for, cannot be changed to. -/
  | cannotChange (shown : String) (cause : Fault)
  | history (fault : HistoryFault)
  deriving DecidableEq

/-- The text of a builtin's failure. -/
def BuiltinFault.message : BuiltinFault → String
  | homeNotSet => "cd: $HOME is not set"
  | cannotChange shown cause => "cd: " ++ shown ++ ": " ++ cause.brief
  | history fault => "history: " ++ fault.message

/-- What a builtin that succeeds writes, in order, and its status. -/
structure Report where
  texts : List (Channel × String)
  status : Status
  deriving DecidableEq

namespace Report

/-- Success without a word. -/
def silent : Report := ⟨[], 0⟩

/-- Success, with texts on standard output. -/
def shown (texts : List String) : Report := ⟨texts.map (Channel.output, ·), 0⟩

end Report

/-- What a builtin gives back: its report or its failure, and the shell after it. -/
abbrev BuiltinResult := Except BuiltinFault Report × Shell

namespace Shell

/-! ## The working directory -/

/-- Shows the working directory. -/
def runPwd (sh : Shell) : BuiltinResult :=
  (.ok (.shown [sh.environment.currentDirectory ++ "\n"]), sh)

/-- The directory that `cd` is asked to change to: a tilde alone, nothing, or an empty text is the
home directory, and a tilde and a slash start a path from there. -/
def cdTarget (e : Environment) (target : Option String) : Except BuiltinFault String :=
  let home := match e.get? "HOME" with
    | some home => .ok home
    | none => .error .homeNotSet
  match target with
  | none => home
  | some t =>
    if t = "" ∨ t = "~" then home
    else
      match t.toList with
      | '~' :: '/' :: rest => home.map (Path.join · (String.ofList rest))
      | _ => .ok t

/-- Changes the working directory of the process and of the environment together. -/
def runCd (sh : Shell) (target : Option String) : BuiltinResult :=
  match cdTarget sh.environment target with
  | .error e => (.error e, sh)
  | .ok path =>
    let path := Path.join sh.environment.currentDirectory path
    match sh.host.files.canonicalDirectory path with
    | .error e => (.error (.cannotChange (target.getD "~") e), sh)
    | .ok l =>
      (.ok .silent, { sh with
        environment := { sh.environment with currentDirectory := l.path }
        process := { sh.process with directory := l } })

/-! ## Names of commands -/

/-- What is told about a name: what it stands for, or that it stands for nothing. -/
def typeText (sh : Shell) (registry : Registry) (name : String) : Channel × String :=
  if registry.contains name then (.output, name ++ " is a shell builtin\n")
  else
    match sh.locate name with
    | some path => (.output, name ++ " is " ++ path ++ "\n")
    | none => (.error, name ++ ": not found\n")

/-- Tells what each name stands for. The status is one if a name stands for nothing. -/
def runType (sh : Shell) (registry : Registry) (names : List String) : BuiltinResult :=
  let texts := names.map (sh.typeText registry)
  (.ok ⟨texts, if texts.any (·.1 = .error) then 1 else 0⟩, sh)

/-! ## The history -/

/-- A line of the history listing. -/
def listingLine (number : Nat) (entry : String) : String :=
  Text.padLeft 5 ' ' (toString number) ++ "  " ++ entry ++ "\n"

/-- The lines of the history listing, numbered from one. -/
def listing (entries : List String) : List String :=
  entries.mapIdx fun i entry => listingLine (i + 1) entry

/-- Lists the last entries of the history, or all. -/
def listHistory (sh : Shell) (count : Option Nat) : BuiltinResult :=
  let skipped := match count with
    | some n => sh.history.entries.length - n
    | none => 0
  (.ok (.shown ((listing sh.history.entries).drop skipped)), sh)

/-- Reads a file onto the end of the history, if one is given. -/
def readHistory (sh : Shell) : Option String → BuiltinResult
  | none => (.ok .silent, sh)
  | some path =>
    match sh.history.read sh.host sh.process.directory path with
    | .ok (_, history) => (.ok .silent, { sh with history := history })
    | .error e => (.error (.history e), sh)

/-- Writes the history to a file, if one is given. -/
def writeHistory (sh : Shell) : Option String → BuiltinResult
  | none => (.ok .silent, sh)
  | some path =>
    match sh.history.write sh.host sh.process.directory path with
    | (.ok (), host) => (.ok .silent, { sh with host := host })
    | (.error e, host) => (.error (.history e), { sh with host := host })

/-- Appends the pending entries of the history to a file, if one is given. -/
def appendHistory (sh : Shell) : Option String → BuiltinResult
  | none => (.ok .silent, sh)
  | some path =>
    match sh.history.append sh.host sh.process.directory path with
    | (.ok _, history, host) => (.ok .silent, { sh with history := history, host := host })
    | (.error e, history, host) =>
      (.error (.history e), { sh with history := history, host := host })

/-- Goes on with a second step if the first succeeded. -/
def andThen (first : BuiltinResult) (second : Shell → BuiltinResult) : BuiltinResult :=
  match first with
  | (.ok _, sh) => second sh
  | (.error e, sh) => (.error e, sh)

/-- Reads, writes and appends the given files in this order, or lists the history if there is
none. -/
def runHistory (sh : Shell) (read write append : Option String) (count : Option Nat) :
    BuiltinResult :=
  if read.isNone && write.isNone && append.isNone then sh.listHistory count
  else
    andThen (sh.readHistory read) fun sh =>
      andThen (sh.writeHistory write) fun sh => sh.appendHistory append

end Shell

/-! ## Grammars -/

namespace Grammar

/-- The arguments of `pwd`. -/
def pwd : Grammar := ⟨[], .none⟩

/-- The arguments of `cd`. -/
def cd : Grammar := ⟨[], .one "target" fun _ => none⟩

/-- The arguments of `exit`. -/
def exit : Grammar := ⟨[], .any⟩

/-- The arguments of `type`. -/
def type : Grammar := ⟨[], .any⟩

/-- The arguments of `history`. -/
def history : Grammar where
  options := [⟨"read", some 'r', true⟩, ⟨"write", some 'w', true⟩, ⟨"append", some 'a', true⟩]
  positionals := .one "count" fun text =>
    match readNumber text with
    | .ok _ => none
    | .error e => some e.message

end Grammar

/-- What a builtin comes to: the shell after it, what it has still to write, and its status, if it
tells one. -/
structure Answer where
  shell : Shell
  emissions : List Emission
  status : Option Status

namespace Builtin

/-- The emission of a text. What goes to the standard output that a stage inherits is kept by the
builtin of the given name until it is written. -/
def emission (sh : Shell) (streams : Streams) (keeper : Option String) (care : Care)
    (text : Channel × String) : Emission :=
  let bytes := Text.encode text.2
  match text.1 with
  | .output =>
    ⟨streams.outputHandle sh.process, bytes, care, if streams.output.isNone then keeper else none⟩
  | .error => ⟨streams.errorHandle sh.process, bytes, care, none⟩

/-- Runs a builtin on arguments that were read against its grammar, unless help is asked for or the
arguments are refused. -/
def withArguments (name : String) (grammar : Grammar) (help : String) (arguments : List String)
    (streams : Streams) (sh : Shell) (body : Arguments → BuiltinResult) : Answer :=
  let answer (sh : Shell) (care : Care) (texts : List (Channel × String)) (status : Status) :
      Answer :=
    ⟨sh, texts.map (emission sh streams (some name) care), some status⟩
  match grammar.read arguments with
  | .error e => answer sh .ignore [(.error, Text.trimEnd e.message ++ "\n")] 1
  | .ok read =>
    if read.help then answer sh .ignore [(.output, help ++ "\n")] 0
    else
      match body read with
      | (.ok report, sh) => answer sh .tell report.texts report.status
      | (.error e, sh) => answer sh .ignore [(.error, e.message ++ "\n")] 1

/-- Writes the arguments, separated by blanks. -/
def runEcho (arguments : List String) (streams : Streams) (sh : Shell) : Answer :=
  let text := String.intercalate " " arguments ++ "\n"
  ⟨sh, [emission sh streams none .stop (.output, text)], some 0⟩

/-- Does what a command supplied from outside does when it is given what it gets to see. -/
def runAdded (conduct : Invocation → Conduct) (registry : Registry) (arguments : List String)
    (streams : Streams) (sh : Shell) : Answer :=
  let c := conduct ⟨arguments, sh.environment, sh.history, streams.output.isSome,
    streams.error.isSome, registry.names⟩
  ⟨{ sh with environment := c.environment, history := c.history },
    c.texts.map fun text => emission sh streams none text.1 text.2, c.status⟩

/-- What a builtin comes to. The first of the arguments is the name that it was called by. -/
def answer (b : Builtin) (registry : Registry) (arguments : List String) (streams : Streams)
    (sh : Shell) : Answer :=
  let given := arguments.drop 1
  match b with
  | echo => runEcho given streams sh
  | pwd => withArguments "pwd" .pwd Help.pwd given streams sh fun _ => sh.runPwd
  | cd => withArguments "cd" .cd Help.cd given streams sh fun a => sh.runCd a.positionals.head?
  | exit =>
    withArguments "exit" .exit Help.exit given streams sh fun _ =>
      (.ok .silent, { sh with environment := { sh.environment with leaving := true } })
  | type =>
    withArguments "type" .type Help.type given streams sh fun a =>
      sh.runType registry a.positionals
  | history =>
    withArguments "history" .history Help.history given streams sh fun a =>
      sh.runHistory (a.value? "read") (a.value? "write") (a.value? "append")
        (a.positionals.head?.bind fun text => (readNumber text).toOption)
  | added conduct => runAdded conduct registry arguments streams sh

/-- Runs a builtin, with all that it writes. -/
def run (b : Builtin) (registry : Registry) (arguments : List String) (streams : Streams)
    (sh : Shell) : Option Status × Shell :=
  let a := b.answer registry arguments streams sh
  let (written, host) :=
    Emission.writeAll a.shell.process (streams.errorHandle a.shell.process) a.emissions a.shell.host
  (if written then a.status else some 1, { a.shell with host := host })

end Builtin

end CommandShell
