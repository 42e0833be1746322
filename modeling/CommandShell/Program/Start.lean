import CommandShell.Program.Running
import CommandShell.Script.Decimal

/-!
# Starting programs

What a file runs as. A file that begins with `#!` names the program that interprets it, which may be
such a file again; in the end stands a program of the system, called with a list of arguments. Other
files are in no known format.
-/

namespace CommandShell

open Script

/-- The number of bytes from which on one argument is too long. -/
def argumentLimit : Nat := 131072

/-- The most bytes that all arguments and variables may take up. -/
def totalLimit : Nat := 2097152

/-- How many interpreters of interpreters there may be. -/
def maxInterpreters : Nat := 5

/-! ## Interpreters -/

namespace Interpreter

/-- How much of a file is looked at to find its interpreter. -/
def headLength : Nat := 256

/-- Whether a character is a blank in the line that names an interpreter. -/
def isBlank (c : Char) : Bool := c = ' ' || c = '\t'

/-- Whether a character ends a name in that line. -/
def endsName (c : Char) : Bool := isBlank c || c = '\x00'

/-- The line that names an interpreter, behind the first two characters of a file. A line that is cut
off has to hold all of the interpreter's name. -/
def line? (cs : Raw) : Option Raw :=
  let upToNul := cs.takeWhile (· ≠ '\x00')
  if upToNul.contains '\n' then some (upToNul.takeWhile (· ≠ '\n'))
  else if (cs.dropWhile isBlank).any endsName then some cs.dropLast
  else none

/-- The interpreter that a file names, and the one argument that may follow it. -/
def ofContent? (content : Bytes) : Option (Raw × Option Raw) :=
  let head := Raw.ofBytes (content.take headLength)
  match head ++ List.replicate (headLength - head.length) '\x00' with
  | '#' :: '!' :: cs =>
    (line? cs).bind fun line =>
      let text := (line.dropWhile isBlank).reverse.dropWhile isBlank |>.reverse
      let name := text.takeWhile fun c => !endsName c
      if text.isEmpty then none
      else
        match text.drop name.length with
        | c :: rest =>
          if isBlank c then some (name, some ((rest.dropWhile isBlank).takeWhile (· ≠ '\x00')))
          else some (name, none)
        | [] => some (name, none)
  | _ => none

end Interpreter

namespace Program

/-- What the file of a program runs as: a program of the system, or an interpreter with the argument
that may follow its name. `own` are the handles of the process. -/
def examine (h : Host) (own : List Handle) (directory : Location) (path : String) (tooLong : Bool) :
    Except Fault (Tool ⊕ Raw × Option Raw) := do
  let l ← h.files.resolve directory path
  match h.files.get? l with
  | some (.tool t) => if tooLong then .error .argumentsTooLong else .ok (.inl t)
  | some (.file mode content) =>
    if !(Node.file mode content).mayRun then .error .permissionDenied
    else if h.isWritten own l then .error .textBusy
    else if tooLong then .error .argumentsTooLong
    else
      match Interpreter.ofContent? content with
      | some interpreter => .ok (.inr interpreter)
      | none => .error .execFormat
  | _ => .error .permissionDenied

/-- The program of the system that runs a file, and the arguments that it is called with. `depth` is
the number of interpreters that may still be looked up. -/
def tool (h : Host) (own : List Handle) (directory : Location) (depth : Nat) (path : String)
    (arguments : List Raw) (tooLong : Bool) : Except Fault (Tool × List Raw) :=
  match examine h own directory path tooLong with
  | .error f => .error f
  | .ok (.inl t) => .ok (t, arguments)
  | .ok (.inr (name, argument)) =>
    match depth with
    | 0 => .error .linkLoop
    | depth + 1 =>
      tool h own directory depth (Raw.toText name)
        (name :: argument.toList ++ Raw.ofText path :: arguments.drop 1) false

/-- Whether arguments and variables take up too much room. -/
def isTooLong (arguments : List Raw) (inherited : List (Raw × Raw)) : Bool :=
  let texts := arguments ++ inherited.map fun v => v.1 ++ '=' :: v.2
  texts.any (fun t => argumentLimit ≤ t.length + 1) ||
    totalLimit < texts.foldl (fun n t => n + t.length + 9) 0

/-! ## The script runner -/

/-- The variables that a script starts with: those that it inherits, and some that have a value in
any case. -/
def initialBindings (files : FileSystem) (p : Process) (inherited : List (Raw × Raw)) :
    List (Raw × Variable) :=
  let preset : List (Raw × Variable) :=
    [("PATH", "/usr/local/sbin:/usr/local/bin:/usr/sbin:/usr/bin:/sbin:/bin"), ("PS1", "$ "),
      ("PS2", "> "), ("PS4", "+ ")].map
      fun v => (Raw.ofText v.1, ⟨some (Raw.ofText v.2), false, false⟩)
  let taken := inherited.foldl
    (fun (vs : List (Raw × Variable)) v =>
      if isName v.1 then Table.set v.1 ⟨some v.2, true, false⟩ vs else vs)
    preset
  let put (vs : List (Raw × Variable)) (v : String × String) : List (Raw × Variable) :=
    let name := Raw.ofText v.1
    let exported := ((vs.lookup name).map Variable.exported).getD (v.1 = "PWD")
    Table.set name ⟨some (Raw.ofText v.2), exported, false⟩ vs
  let here := match (inherited.lookup (Raw.ofText "PWD")).map Raw.toText with
    | some path =>
      if Path.isAbsolute path && (files.resolve [] path).toOption = some p.directory then path
      else p.directory.path
    | none => p.directory.path
  [("IFS", " \t\n"), ("OPTIND", "1"), ("PPID", toString p.parent), ("PWD", here)].foldl put taken

/-- What the words of a script refer to at its start. -/
def initialScope (files : FileSystem) (p : Process) (name : Raw) (inherited : List (Raw × Raw)) :
    Scope where
  name := name
  parameters := []
  bindings := initialBindings files p inherited
  status := 0
  options := []
  number := p.number
  background := 0
  kept := []
  optionPlace := (1, 0)

/-- The machine of a process that runs a script, without anything to do. -/
def machine (p : Process) (scope : Scope) : Machine where
  scope := scope
  process := { p with descriptors := p.descriptors.below 10 }
  frames := []
  line := 0
  command := none
  skip := none
  fields := []
  outputStatus := 0
  savedStatus := none
  functions := []
  aliases := []
  documents := []
  nextDocument := 0
  traps := []
  pending := []
  found := ⟨[], []⟩
  jobs := []
  tracing := false
  deaf := p.ignored
  here := (scope.value? "PWD".toList).getD []
  outerLoops := 0
  outerLine := 1
  calls := 0
  atEnd := false

/-- What the options of the script runner ask for. -/
structure Request where
  scope : Scope
  /-- Whether the first argument behind the options is the text of the script. -/
  isText : Bool
  arguments : List Raw
  /-- Whether all options are to be listed. -/
  lists : Bool

namespace Request

/-- Takes the letters of options. -/
def letters (on : Bool) : Raw → Request → Except Raw Request
  | [], r => .ok r
  | 'c' :: cs, r => letters on cs { r with isText := true }
  | 'l' :: cs, r => letters on cs r
  | 'o' :: cs, r =>
    match r.arguments with
    | [] => letters on cs { r with lists := true }
    | name :: rest =>
      match optionTable.find? fun o => o.1.toList = name with
      | none => .error ("Illegal option -o ".toList ++ name)
      | some o =>
        letters on cs { r with scope := r.scope.setOption o.1 on, arguments := rest }
  | c :: cs, r =>
    match optionTable.find? fun o => o.2 = some c with
    | none => .error ("Illegal option -".toList ++ [c])
    | some o => letters on cs { r with scope := r.scope.setOption o.1 on }

/-- Takes the options at the start of arguments. `fuel` bounds their number. -/
def options : Nat → Request → Except Raw Request
  | 0, r => .ok r
  | fuel + 1, r =>
    match r.arguments with
    | ['-'] :: rest | ['-', '-'] :: rest => .ok { r with arguments := rest }
    | ('-' :: cs) :: rest => do options fuel (← letters true cs { r with arguments := rest })
    | ('+' :: cs) :: rest => do options fuel (← letters false cs { r with arguments := rest })
    | _ => .ok r

end Request

/-- The script runner called with arguments. -/
def callRunner (files : FileSystem) (p : Process) (arguments : List Raw)
    (inherited : List (Raw × Raw)) : Machine :=
  let name := arguments.headD "sh".toList
  let m := machine p (initialScope files p name inherited)
  let given := arguments.drop 1
  match Request.options (given.length + 1) ⟨m.scope, false, given, false⟩ with
  | .error message => m.push (.giveUp message)
  | .ok r =>
    let scope (name : Raw) (parameters : List Raw) (onInput : Bool) : Scope :=
      { (if onInput then r.scope.setOption "stdin" true else r.scope) with
        name := name
        parameters := parameters }
    let onInput : Frame := .commands (.ofDescriptor 0 .script)
    let scope (name : Raw) (parameters : List Raw) (onInput : Bool) : Scope :=
      let s := scope name parameters onInput
      if s.has "interactive" then s.setOption "monitor" true else s
    let start (m : Machine) (frames : List Frame) : Machine :=
      m.pushAll ((if r.lists then [.listOptions] else []) ++
        (if m.scope.has "monitor" then [.noTerminal] else []) ++ frames)
    match r.isText, r.arguments with
    | true, [] => m.push (.giveUp "-c requires an argument".toList)
    | true, text :: rest =>
      let more := r.scope.has "stdin"
      let m := m.withScope (scope (rest.headD name) (rest.drop 1) false)
      let source := Source.ofText text (if more then .script else .line) false
      start m (.commands source :: if more then [onInput] else [])
    | false, [] => start (m.withScope (scope name [] true)) [onInput]
    | false, file :: rest =>
      if r.scope.has "stdin" then start (m.withScope (scope name (file :: rest) true)) [onInput]
      else start (m.withScope (scope file rest false)) [.openScript file name]

/-! ## Time -/

/-- The thousandths of a second that a text stands for. -/
def duration? (text : String) : Option Nat :=
  match Fraction.read? text.toList with
  | some (x, rest) =>
    let scale? : Option Nat := match rest with
      | [] | ['s'] => some 1000
      | ['m'] => some 60000
      | ['h'] => some 3600000
      | ['d'] => some 86400000
      | _ => none
    scale?.bind fun scale =>
      match Fraction.ofFloat x with
      | .finite d => if d.negative then none else some (d.digits * scale / Nat.pow 10 d.places)
      | _ => none
  | none => none

/-- The program that lets time pass, called with arguments. -/
def callSleeper (h : Host) (p : Process) (arguments : List String) : Running × Host :=
  let refuse (text : String) : Running × Host :=
    let help := "Try 'sleep --help' for more information."
    (.ending p (.exited 1), p.complain (p.complain h ("sleep: " ++ text)) help)
  let given := arguments.filter (· ≠ "--")
  if given.isEmpty then refuse "missing operand"
  else
    match given.find? fun a => (duration? a).isNone with
    | some a => refuse ("invalid time interval '" ++ a ++ "'")
    | none =>
      (.sleeper p (h.clock + (given.filterMap duration?).foldl (· + ·) 0), h)

/-! ## Starting -/

/-- The path of the script runner. -/
def runnerPath : String := "/bin/sh"

/-- How the file of a program is turned into a running program. -/
inductive Manner
  /-- A new process is made for it. -/
  | spawn
  /-- It takes the place of the process. A file in no known format is run as a script. -/
  | replace
  deriving DecidableEq

/-- The signals that a new process ignores. -/
def spawnIgnored : List Nat := [32, 33]

/-- A program of the system, called with arguments in a process. -/
def call (h : Host) (p : Process) (t : Tool) (arguments : List Raw) (inherited : List (Raw × Raw)) :
    Running × Host :=
  match t with
  | .scriptRunner => (.script (callRunner h.files p arguments inherited), h)
  | .copier => Copier.ofFiles p h ((arguments.drop 1).map Raw.toText)
  | .sleeper => callSleeper h p ((arguments.drop 1).map Raw.toText)
  | .teller => (Copier.ofTexts p (arguments.drop 1), h)
  | .constant status => (.ending p (.exited status), h)

/-- The process as its program finds it. -/
def enter (manner : Manner) (p : Process) : Process :=
  { p with
    descriptors := p.descriptors.below 10
    filter := .silent
    ignored := if manner = .spawn then spawnIgnored ++ p.ignored else p.ignored }

/-- Starts a program in a process, with arguments and the variables that it inherits. -/
def start (manner : Manner) (h : Host) (p : Process) (path : String) (arguments : List Raw)
    (inherited : List (Raw × Raw)) : Except Fault (Running × Host) := do
  let own := p.descriptors.handles
  let tooLong := isTooLong arguments inherited
  let find (path : String) (arguments : List Raw) : Except Fault (Tool × List Raw) :=
    tool h own p.directory maxInterpreters path arguments tooLong
  let (t, arguments) ←
    match manner, find path arguments with
    | .replace, .error .execFormat =>
      find runnerPath (Raw.ofText runnerPath :: Raw.ofText path :: arguments.drop 1)
    | _, result => result
  return call h (enter manner p) t arguments inherited

end Program

end CommandShell
