import CommandShell.Script.Outcome
import CommandShell.Script.Pattern
import CommandShell.Script.Quote

/-!
# Settings of scripts

The commands of the language that set the variables, the parameters and the options of a script.
-/

namespace CommandShell.Script

namespace Scope

/-- Changes a scope by each of some arguments, up to the first that cannot be taken. -/
def each (change : Scope → Raw → Except Raw Scope) (s : Scope) : List Raw → Scope × Option Raw
  | [] => (s, none)
  | a :: rest =>
    match change s a with
    | .error message => (s, some message)
    | .ok s => each change s rest

/-- The name in front of an equals sign, and the value behind it. -/
def nameAndValue (a : Raw) : Raw × Option Raw :=
  let name := a.takeWhile (· ≠ '=')
  (name, (a.drop name.length).tail?)

/-- Marks a variable, after giving it a value if there is one. -/
def markNamed (change : Variable → Variable) (s : Scope) (a : Raw) : Except Raw Scope :=
  match nameAndValue a with
  | (name, some value) => (s.assignNamed name value).map fun s => s.mark name change
  | (name, none) =>
    if isName name then .ok (s.mark name change)
    else .error (name ++ ": bad variable name".toList)

/-- Takes away the variable that an argument names. -/
def unsetNamed (s : Scope) (a : Raw) : Except Raw Scope :=
  let name := a.takeWhile (· ≠ '=')
  if isName name then s.unset name else .error (name ++ ": bad variable name".toList)

/-- Lets a variable, or the options, be changed for a while only. -/
def localNamed (s : Scope) (a : Raw) : Except Raw Scope :=
  if a = ['-'] then .ok (s.note (.options s.options))
  else
    let (name, value) := nameAndValue a
    s.assignLocal name value false

/-- The lines that show variables, in the order of their names. -/
def listing (s : Scope) (label : Raw) (shown : Variable → Bool) : Raw :=
  let entries := s.bindings.filter fun e => shown e.2
  let names := (entries.map Prod.fst).foldr Pattern.insertSorted []
  names.flatMap fun name =>
    let value := match s.value? name with
      | some value => '=' :: Quote.quoted value
      | none => []
    label ++ name ++ value ++ ['\n']

/-- The scope with other parameters. -/
def withParameters (s : Scope) (parameters : List Raw) : Scope :=
  { s with parameters := parameters, optionPlace := (1, 0) }

/-! ## Options -/

/-- Sets an option by its name. The two ways of editing exclude each other if they are given by
their letters. -/
def setLetter (s : Scope) (on : Bool) (c : Char) : Except Raw Scope :=
  match optionTable.find? fun o => o.2 = some c with
  | none => .error (Options.unknownFault c)
  | some o =>
    let s := s.setOption o.1 on
    .ok (if on && c = 'V' then s.setOption "emacs" false
      else if on && c = 'E' then s.setOption "vi" false else s)

/-- The table of all options, with their settings. -/
def optionListing (s : Scope) : Raw :=
  "Current option settings\n".toList ++ optionTable.flatMap fun o =>
    let name := o.1.toList
    name ++ List.replicate (16 - name.length) ' ' ++ (if s.has o.1 then "on" else "off").toList ++
      ['\n']

/-- The commands that set all options as they are. -/
def optionCommands (s : Scope) : Raw :=
  optionTable.flatMap fun o =>
    "set ".toList ++ (if s.has o.1 then "-o " else "+o ").toList ++ o.1.toList ++ ['\n']

end Scope

/-- How far the arguments of `set` are read. -/
structure Setting where
  scope : Scope
  /-- What is to be shown. -/
  output : Raw
  arguments : List Raw

namespace Setting

/-- Takes the letters of an option, up to one that is not known. -/
def letters (on : Bool) : Raw → Setting → Setting × Option Raw
  | [], s => (s, none)
  | 'o' :: cs, s =>
    match s.arguments with
    | [] =>
      let shown := if on then s.scope.optionListing else s.scope.optionCommands
      letters on cs { s with output := s.output ++ shown }
    | name :: rest =>
      match optionTable.find? fun o => o.1.toList = name with
      | none => (s, some ("Illegal option -o ".toList ++ name))
      | some o =>
        letters on cs { s with scope := s.scope.setOption o.1 on, arguments := rest }
  | c :: cs, s =>
    match s.scope.setLetter on c with
    | .error message => (s, some message)
    | .ok scope => letters on cs { s with scope := scope }

/-- Takes options. `fuel` bounds their number. -/
def options : Nat → Setting → Setting × Option Raw
  | 0, s => (s, none)
  | fuel + 1, s =>
    match s.arguments with
    | ['-'] :: rest =>
      let scope := (s.scope.setOption "xtrace" false).setOption "verbose" false
      ({ s with scope := scope, arguments := rest }, none)
    | ['-', '-'] :: rest =>
      let scope := if rest.isEmpty then s.scope.withParameters [] else s.scope
      ({ s with scope := scope, arguments := rest }, none)
    | (sign :: cs) :: rest =>
      if sign = '-' || sign = '+' then
        match letters (sign = '-') cs { s with arguments := rest } with
        | (s, none) => options fuel s
        | failed => failed
      else (s, none)
    | _ => (s, none)

end Setting

namespace Machine

/-- Takes back the option for jobs with a terminal, of which there is none. -/
def withoutMonitor (m : Machine) (h : Host) : Machine × Host :=
  if m.scope.has "monitor" && m.process.number = m.scope.number then
    (m.withScope (m.scope.setOption "monitor" false),
      m.complain h "can't access tty; job control turned off".toList)
  else (m, h)

/-- Shows the variables, or sets options and parameters. -/
def runSet (m : Machine) (h : Host) (arguments : List Raw) : Outcome :=
  if arguments.isEmpty then m.shows h (m.scope.listing [] fun v => v.value.isSome)
  else
    let (s, fault) := Setting.options (arguments.length + 1) ⟨m.scope, [], arguments⟩
    match fault with
    | some message => .failed (m.withScope s.scope) h s.output message
    | none =>
      let scope := if s.arguments.isEmpty then s.scope else s.scope.withParameters s.arguments
      let (m, h) := (m.withScope scope).withoutMonitor h
      m.shows h s.output

/-- Marks variables, or shows those with the mark. -/
def runMark (m : Machine) (h : Host) (name : Raw) (change : Variable → Variable)
    (marked : Variable → Bool) (arguments : List Raw) : Outcome :=
  m.withOptions h [('p', false)] arguments fun given rest =>
    if given.isEmpty && !rest.isEmpty then
      let (s, fault) := m.scope.each (Scope.markNamed change) rest
      m.takes h s fault
    else m.shows h (m.scope.listing (name ++ [' ']) marked)

/-- Lets programs inherit variables. -/
def runExport (m : Machine) (h : Host) (arguments : List Raw) : Outcome :=
  m.runMark h "export".toList (fun v => { v with exported := true }) Variable.exported arguments

/-- Makes variables constant. -/
def runReadonly (m : Machine) (h : Host) (arguments : List Raw) : Outcome :=
  m.runMark h "readonly".toList (fun v => { v with constant := true }) Variable.constant arguments

/-- Takes variables or functions away. -/
def runUnset (m : Machine) (h : Host) (arguments : List Raw) : Outcome :=
  m.withOptions h [('v', false), ('f', false)] arguments fun given rest =>
    if (given.getLast?).map Prod.fst = some 'f' then
      { m with functions := m.functions.filter fun f => !rest.contains f.1 }.done h 0
    else
      let (s, fault) := m.scope.each Scope.unsetNamed rest
      m.takes h s fault

/-- Lets variables be changed until the function ends. -/
def runLocal (m : Machine) (h : Host) (arguments : List Raw) : Outcome :=
  if m.scope.kept.isEmpty then m.fails h "not in a function".toList
  else
    let (s, fault) := m.scope.each Scope.localNamed arguments
    m.takes h s fault

/-- Drops parameters. -/
def runShift (m : Machine) (h : Host) (arguments : List Raw) : Outcome :=
  match (arguments.head?.map numberArgument).getD (.ok 1) with
  | .error message => m.fails h message
  | .ok n =>
    if m.scope.parameters.length < n then m.fails h "can't shift that many".toList
    else (m.withScope (m.scope.withParameters (m.scope.parameters.drop n))).done h 0

/-! ## Reading options in scripts -/

/-- What `getopts` finds. -/
structure FoundOption where
  letter : Char
  /-- Its argument; no value at all behind an option that is not known. -/
  argument : Option Raw
  /-- The next parameter, and the letters of the one before it that are done. -/
  place : Nat × Nat
  complaint : Option Raw
  /-- Whether there are no more options. -/
  finished : Bool

/-- Finds the next option. `letters` are the options, a colon behind those that take an argument; a
colon in front of all lets the script report what is wrong. -/
def nextOption (letters : Raw) (parameters : List Raw) (place : Nat × Nat) : FoundOption :=
  let (next, taken) := place
  let current := if next ≤ 1 || taken = 0 then [] else (parameters.getD (next - 2) []).drop taken
  let quiet : Bool := letters.head? = some ':'
  let known := if quiet then letters.drop 1 else letters
  let finished (next : Nat) : FoundOption := ⟨'?', some [], (next, 0), none, true⟩
  let found (c : Char) (rest : Raw) (next taken : Nat) : FoundOption :=
    let here := if rest.isEmpty then (next, 0) else (next, taken)
    let behind := known.dropWhile (· ≠ c)
    if behind.isEmpty || c = ':' then
      if quiet then ⟨'?', some [c], here, none, false⟩
      else ⟨'?', none, here, some (Options.unknownFault c), false⟩
    else if behind.drop 1 |>.head? |>.any (· = ':') then
      if !rest.isEmpty then ⟨c, some rest, (next, 0), none, false⟩
      else
        match parameters[next - 1]? with
        | some argument => ⟨c, some argument, (next + 1, 0), none, false⟩
        | none =>
          if quiet then ⟨':', some [c], (next, 0), none, false⟩
          else ⟨'?', none, (next, 0), some (Options.missingFault c), false⟩
    else ⟨c, some [], here, none, false⟩
  match current with
  | c :: rest => found c rest next (taken + 1)
  | [] =>
    match parameters[next - 1]? with
    | some ['-', '-'] => finished (next + 1)
    | some ('-' :: c :: rest) => found c rest (next + 1) 2
    | _ => finished next

/-- Puts what was found into variables. -/
def FoundOption.assign (f : FoundOption) (s : Scope) (name : Raw) : Scope × Option Raw :=
  let argument := "OPTARG".toList
  let steps : List (Scope → Except Raw Scope) :=
    [fun s => match f.argument with
        | none => s.unset argument
        | some text => if f.finished then .ok s else s.assign argument text,
      fun s => s.assign Scope.placeName (Raw.ofInt f.place.1),
      fun s => s.assignNamed name [f.letter]]
  let (s, fault) := steps.foldl
    (fun (s, fault) (step : Scope → Except Raw Scope) =>
      match fault with
      | some _ => (s, fault)
      | none =>
        match step s with
        | .ok s => (s, none)
        | .error message => (s, some message))
    (s, (none : Option Raw))
  ({ s with optionPlace := f.place }, fault)

/-- Reads the next option of the parameters, or of the arguments that are given. -/
def runGetopts (m : Machine) (h : Host) (arguments : List Raw) : Outcome :=
  match arguments with
  | letters :: name :: given =>
    let parameters := if given.isEmpty then m.scope.parameters else given
    let place :=
      if parameters.length + 1 < m.scope.optionPlace.1 then (1, 0) else m.scope.optionPlace
    let found := nextOption letters parameters place
    let h := match found.complaint with
      | some text => m.report h (text ++ ['\n'])
      | none => h
    let (s, fault) := found.assign m.scope name
    match fault with
    | some message => (m.withScope s).fails h message
    | none => (m.withScope s).done h (if found.finished then 1 else 0)
  | _ => m.fails h "Usage: getopts optstring var [arg]".toList

end Machine

end CommandShell.Script
