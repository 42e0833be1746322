import CommandShell.Script.Grammar
import CommandShell.Script.Quote
import CommandShell.Script.Redirection

/-!
# Finding the commands of scripts

What the name of a command stands for: a command of the language, a function of the script, or a
program, which is looked for in the directories of the search path and remembered once it was found.
-/

namespace CommandShell.Script

/-- The commands of the language that scripts may not redefine, whose failures end a script. -/
def isSpecial (name : Raw) : Bool := (specialNames.map String.toList).contains name

/-- The commands of the language besides the special ones. -/
def regularNames : List String :=
  ["[", "alias", "bg", "cd", "chdir", "command", "echo", "false", "fg", "getopts", "hash", "jobs",
    "kill", "printf", "pwd", "read", "test", "true", "type", "ulimit", "umask", "unalias", "wait"]

/-- Whether a name is that of a command of the language. -/
def isBuiltin (name : Raw) : Bool :=
  isSpecial name || (regularNames.map String.toList).contains name

/-- The commands of the language whose arguments may be assignments. -/
def takesAssignments (name : Raw) : Bool :=
  (["alias", "export", "local", "readonly"].map String.toList).contains name

/-- The search path that is used if the script's own is not to be. -/
def usualPath : Raw := "/usr/local/sbin:/usr/local/bin:/usr/sbin:/usr/bin:/sbin:/bin".toList

/-- Cuts a text at each of some character. -/
def cutAt (c : Char) (cs : Raw) : List Raw :=
  cs.foldr
    (fun x parts =>
      if x = c then [] :: parts
      else
        match parts with
        | p :: rest => (x :: p) :: rest
        | [] => [[x]])
    [[]]

/-- The path of a name in a directory; the empty directory is the working directory. -/
def inDirectory (directory name : Raw) : Raw :=
  if directory.isEmpty then name else directory ++ ['/'] ++ name

/-- What the name of a command stands for. -/
inductive Meaning
  | builtin
  | function (body : Command)
  /-- A program, by the places on the search path from which on it may be. -/
  | program (place : Nat)
  /-- A program, by its path. -/
  | path
  | unknown (e : Fault)

namespace Machine

/-- The script's search path. -/
def searchPath (m : Machine) : Raw := (m.scope.value? "PATH".toList).getD []

/-- The first directory of a path, counted from a number on, that has a program of a name; otherwise
why there is none. `known` is the place of the program before the working directory was changed,
which only those directories before it depend on that are relative. -/
def searchFrom (m : Machine) (h : Host) (name : Raw) (known : Option Nat) :
    Nat → Fault → List Raw → Except Fault Nat
  | _, e, [] => .error e
  | place, e, directory :: rest =>
    if directory.head? = some '/' && known = some place then .ok place
    else if directory.head? = some '/' && known.any (place < ·) then
      searchFrom m h name known (place + 1) e rest
    else
      match h.files.lookup m.process.directory (Raw.toText (inDirectory directory name)) with
      | .error f =>
        searchFrom m h name known (place + 1)
          (if f = .noEntry ∨ f = .notDirectory then e else f) rest
      | .ok node =>
        if node.isRegular && node.mayRun then .ok place
        else searchFrom m h name known (place + 1) .permissionDenied rest

/-- The programs that were found on the script's search path. -/
def foundPlaces (m : Machine) : List (Raw × FoundPlace) :=
  if m.found.path = m.searchPath then m.found.places else []

/-- Forgets the programs that were found, or one of them. -/
def forgetFound (m : Machine) (name : Option Raw) : Machine :=
  let places := match name with
    | some name => m.foundPlaces.filter (·.1 ≠ name)
    | none => []
  { m with found := ⟨m.searchPath, places⟩ }

/-- Doubts the places of the programs that were found, as the working directory has changed. -/
def doubtFound (m : Machine) : Machine :=
  let places := m.found.places.map fun p => (p.1, { p.2 with doubtful := true })
  { m with found := { m.found with places := places } }

/-- Looks for a program on the search path and remembers its place. -/
def searchProgram (m : Machine) (h : Host) (name : Raw) : Meaning × Machine :=
  match m.foundPlaces.lookup name with
  | some ⟨place, false⟩ => (.program place, m)
  | known =>
    let before := known.map FoundPlace.directory
    match m.searchFrom h name before 0 .noEntry (cutAt ':' m.searchPath) with
    | .ok place =>
      let found := ⟨m.searchPath, Table.set name ⟨place, false⟩ m.foundPlaces⟩
      (.program place, { m with found := found })
    | .error e => (.unknown e, m.forgetFound (some name))

/-- What the name of a command stands for. -/
def meaning (m : Machine) (h : Host) (name : Raw) (noFunction usual : Bool) : Meaning × Machine :=
  if name.contains '/' then (.path, m)
  else
    match if noFunction then none else m.functions.lookup name with
    | some body => (.function body, m)
    | none =>
      if isBuiltin name then (.builtin, m)
      else if usual then
        match m.searchFrom h name none 0 .noEntry (cutAt ':' usualPath) with
        | .ok place => (.program place, m)
        | .error e => (.unknown e, m)
      else m.searchProgram h name

/-! ## Words that say how a command is looked up -/

/-- What is known of a command by its first fields. -/
structure Heading where
  /-- The fields without those that say how the command is looked up. -/
  arguments : List Raw
  noFunction : Bool
  usualPath : Bool
  /-- Whether the first command of the language among them is special, if there is one. -/
  special : Option Bool
  /-- Whether further words may be assignments. -/
  assigns : Bool
  /-- Whether a command of the language is called. -/
  builtin : Bool

/-- The fields behind those that say how `command` looks a command up; nothing if it is to do
something else. A missing result means that more fields have to be known. -/
def behindCommand (complete : Bool) (usual : Bool) :
    List Raw → Option (Option (List Raw × Bool))
  | [] => if complete then some none else none
  | text :: rest =>
    match text with
    | ['-', '-'] =>
      if rest.isEmpty then (if complete then some none else none) else some (some (rest, usual))
    | '-' :: c :: cs =>
      if (c :: cs).all (· = 'p') then behindCommand complete true rest else some none
    | _ => some (some (text :: rest, usual))

/-- Reads the first fields of a command. `complete` says that there are no more; a missing result
means that more have to be known. `fuel` bounds their number. -/
def heading (m : Machine) (complete : Bool) : Nat → Heading → Option Heading
  | 0, d => some d
  | fuel + 1, d =>
    match d.arguments with
    | [] => some d
    | name :: rest =>
      let isFunction := !d.noFunction && (m.functions.lookup name).isSome
      if name.contains '/' || isFunction || !isBuiltin name then
        some { d with assigns := false, builtin := false }
      else
        let d := { d with
          special := some (d.special.getD (isSpecial name))
          assigns := takesAssignments name
          builtin := true }
        if name ≠ "command".toList then some d
        else
          match behindCommand complete d.usualPath rest with
          | none => none
          | some none => some d
          | some (some (arguments, usual)) =>
            heading m complete fuel
              { d with arguments := arguments, noFunction := true, usualPath := usual }

/-! ## Descriptions -/

/-- Tells what a name stands for, in many words if `verbose`; the status says whether it stands for
anything. -/
def describe (m : Machine) (h : Host) (name : Raw) (verbose usual : Bool) : Raw × Nat × Machine :=
  let is (text : Raw) : Raw := name ++ " is ".toList ++ text ++ ['\n']
  let told (text : String) (m : Machine) : Raw × Nat × Machine :=
    (if verbose then is text.toList else name ++ ['\n'], 0, m)
  if reservedWords.contains (String.ofList name) then told "a shell keyword" m
  else
    match m.aliases.lookup name with
    | some value =>
      (if verbose then is ("an alias for ".toList ++ value)
        else "alias ".toList ++ name ++ ['='] ++ Quote.quoted value ++ ['\n'], 0, m)
    | none =>
      let tracked := !usual && !name.contains '/' && (m.foundPlaces.lookup name).isSome
      let unknown : Raw × Nat × Machine :=
        (if verbose then name ++ ": not found\n".toList else [], 127, m)
      match m.meaning h name false usual with
      | (.builtin, m) =>
        told (if isSpecial name then "a special shell builtin" else "a shell builtin") m
      | (.function _, m) => told "a shell function" m
      | (.unknown _, _) => unknown
      | (.path, m) =>
        if h.files.pathExists m.process.directory (Raw.toText name) then
          (if verbose then is name else name ++ ['\n'], 0, m)
        else unknown
      | (.program place, m) =>
        let directories := cutAt ':' (if usual then usualPath else m.searchPath)
        let path := inDirectory (directories.getD place []) name
        (if verbose then is ((if tracked then "a tracked alias for ".toList else []) ++ path)
          else path ++ ['\n'], 0, m)

/-! ## Order of tables -/

/-- The number by which a name is put into one of some rows of a table. -/
def rowOf (rows : Nat) (name : Raw) : Nat :=
  (name.foldl (fun n c => n + c.toNat) ((name.headD '\x00').toNat * 16)) % rows

/-- The entries of a table in the order of its rows. -/
def byRow {α : Type} (rows : Nat) (entries : List (Raw × α)) : List (Raw × α) :=
  (List.range rows).flatMap fun row => entries.filter fun e => rowOf rows e.1 = row

end Machine

end CommandShell.Script
