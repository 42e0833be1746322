import CommandShell.Script.Lookup
import CommandShell.Script.Outcome

/-!
# The place of a script

The working directory of a script. A script knows it by the names that led there: the directory above
is the one that the name was found in, even if the name is that of a link.
-/

namespace CommandShell.Script.Machine

/-! ## Paths by name -/

/-- The text in front of the names of an absolute path: a slash, or two but not more. -/
def pathStart (path : Raw) : Raw :=
  match path with
  | ['/', '/'] => ['/', '/']
  | '/' :: '/' :: c :: _ => if c = '/' then ['/'] else ['/', '/']
  | _ => ['/']

/-- Goes along a name: a dot says nothing, and two lead back. -/
def alongName (names : List Raw) (name : Raw) : List Raw :=
  if name.isEmpty || name = ['.'] then names
  else if name = ['.', '.'] then names.dropLast
  else names ++ [name]

/-- The path that names lead to. -/
def pathOf (start : Raw) (names : List Raw) : Raw := start ++ List.intercalate ['/'] names

/-- The absolute path that another leads to from the working directory, by its names. -/
def namedPath (m : Machine) (path : Raw) : Raw :=
  if path.head? = some '/' then
    pathOf (pathStart path) ((cutAt '/' path).foldl alongName [])
  else
    let names := (cutAt '/' m.here).filter fun name => !name.isEmpty
    pathOf (pathStart m.here) ((cutAt '/' path).foldl alongName names)

/-- The canonical path of the working directory. -/
def physicalPath (m : Machine) : Raw := Raw.ofText m.process.directory.path

/-! ## Commands -/

/-- Whether the last of the options asks for canonical paths. -/
def isPhysical (given : List (Char × Raw)) : Bool := (given.getLast?).map Prod.fst = some 'P'

/-- The options for the two kinds of path. -/
def pathLetters : List (Char × Bool) := [('L', false), ('P', false)]

/-- Changes the working directory, if the path leads to one. -/
def changeDirectory? (m : Machine) (h : Host) (physical : Bool) (path : Raw) :
    Option (Machine × Option Raw) :=
  let target := if physical then path else m.namedPath path
  match h.files.resolveDirectory m.process.directory (Raw.toText target) with
  | .error _ => none
  | .ok l =>
    let m := { m with process := { m.process with directory := l } }.doubtFound
    let put (s : Scope) (name : String) (value : Raw) : Except Raw Scope :=
      (s.assign name.toList value).map fun s =>
        s.mark name.toList fun v => { v with exported := true }
    let here := if physical then m.physicalPath else target
    match put m.scope "OLDPWD" m.here with
    | .error message => some (m, some message)
    | .ok s =>
      match put s "PWD" here with
      | .error message => some ({ m.withScope s with here := here }, some message)
      | .ok s => some ({ m.withScope s with here := here }, none)

/-- Whether a path is looked for in the directories that the script names for that. -/
def isSought (path : Raw) : Bool :=
  match path with
  | '/' :: _ => false
  | ['.'] | ['.', '.'] | '.' :: '/' :: _ | '.' :: '.' :: '/' :: _ => false
  | _ => true

/-- Changes the working directory. -/
def runCd (m : Machine) (h : Host) (arguments : List Raw) : Outcome :=
  m.withOptions h pathLetters arguments fun given rest =>
    let physical := isPhysical given
    let (asked, shows) := match rest with
      | [] => ((m.scope.value? "HOME".toList).getD [], false)
      | ['-'] :: _ => ((m.scope.value? "OLDPWD".toList).getD [], true)
      | path :: _ => (path, false)
    let target := if asked.isEmpty then ['.'] else asked
    let directories := match m.scope.value? "CDPATH".toList with
      | some path => if isSought asked then cutAt ':' path else []
      | none => []
    let isThere (directory : Raw) : Bool :=
      (h.files.resolveDirectory m.process.directory
        (Raw.toText (inDirectory directory target))).toOption.isSome
    let (path, shows) := match directories.find? isThere with
      | some directory => (inDirectory directory target, shows || !directory.isEmpty)
      | none => (target, shows)
    match m.changeDirectory? h physical path with
    | none => m.fails h ("can't cd to ".toList ++ target)
    | some (m, some message) => m.fails h message
    | some (m, none) => m.shows h (if shows then m.here ++ ['\n'] else [])

/-- Shows the working directory. -/
def runPwd (m : Machine) (h : Host) (arguments : List Raw) : Outcome :=
  m.withOptions h pathLetters arguments fun given _ =>
    m.shows h ((if isPhysical given then m.physicalPath else m.here) ++ ['\n'])

end CommandShell.Script.Machine
