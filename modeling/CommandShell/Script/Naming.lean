import CommandShell.Script.Lookup
import CommandShell.Script.Outcome

/-!
# Names of commands

The commands of the language that deal with what names stand for: aliases, descriptions of names, and
the programs that were found on the search path.
-/

namespace CommandShell.Script.Machine

/-- The number of rows of the table of aliases. -/
def aliasRows : Nat := 39

/-- The number of rows of the table of commands. -/
def commandRows : Nat := 31

/-- The line that shows an alias. -/
def aliasLine (entry : Raw × Raw) : Raw := entry.1 ++ ['='] ++ Quote.quoted entry.2 ++ ['\n']

/-- Sets aliases, or shows them. -/
def aliasEach (h : Host) (output : Raw) (status : Nat) (m : Machine) : List Raw → Outcome
  | [] => .done m h output status
  | a :: rest =>
    let name := a.take 1 ++ (a.drop 1).takeWhile (· ≠ '=')
    match a.drop name.length with
    | _ :: value =>
      aliasEach h output status { m with aliases := Table.set name value m.aliases } rest
    | [] =>
      match m.aliases.lookup name with
      | some value => aliasEach h (output ++ aliasLine (name, value)) status m rest
      | none =>
        aliasEach (m.report h ("alias: ".toList ++ name ++ " not found\n".toList)) output 1 m rest

/-- Sets aliases, or shows those that are named, or all. -/
def runAlias (m : Machine) (h : Host) (arguments : List Raw) : Outcome :=
  if arguments.isEmpty then m.shows h ((byRow aliasRows m.aliases).flatMap aliasLine)
  else aliasEach h [] 0 m arguments

/-- Takes aliases away. -/
def unaliasEach (h : Host) (status : Nat) (m : Machine) : List Raw → Outcome
  | [] => m.done h status
  | name :: rest =>
    if (m.aliases.lookup name).isSome then
      unaliasEach h status { m with aliases := m.aliases.filter (·.1 ≠ name) } rest
    else unaliasEach (m.report h ("unalias: ".toList ++ name ++ " not found\n".toList)) 1 m rest

/-- Takes aliases away: those that are named, or all. -/
def runUnalias (m : Machine) (h : Host) (arguments : List Raw) : Outcome :=
  m.withOptions h [('a', false)] arguments fun given rest =>
    if given.isEmpty then unaliasEach h 0 m rest else { m with aliases := [] }.done h 0

/-- Describes names. -/
def typeEach (h : Host) (output : Raw) (status : Nat) (m : Machine) : List Raw → Outcome
  | [] => .done m h output status
  | name :: rest =>
    let (text, own, m) := m.describe h name true false
    typeEach h (output ++ text) (status ||| own) m rest

/-- Describes names in many words. -/
def runType (m : Machine) (h : Host) (arguments : List Raw) : Outcome := typeEach h [] 0 m arguments

/-- Describes a name; without an option for that it does nothing. -/
def runCommand (m : Machine) (h : Host) (arguments : List Raw) : Outcome :=
  m.withOptions h [('p', false), ('v', false), ('V', false)] arguments fun given rest =>
    let asked (c : Char) : Bool := given.any (·.1 = c)
    match rest with
    | name :: _ =>
      if asked 'v' || asked 'V' then
        let (text, status, m) := m.describe h name (asked 'V') (asked 'p')
        .done m h text status
      else m.done h 0
    | [] => m.done h 0

/-- The line that shows where a program was found. -/
def foundLine (m : Machine) (entry : Raw × FoundPlace) : Raw :=
  inDirectory ((cutAt ':' m.searchPath).getD entry.2.directory []) entry.1 ++
    (if entry.2.doubtful then ['*'] else []) ++ ['\n']

/-- Looks for programs again. -/
def findEach (h : Host) (status : Nat) (m : Machine) : List Raw → Outcome
  | [] => m.done h status
  | name :: rest =>
    match (m.forgetFound (some name)).meaning h name false false with
    | (.unknown e, m) =>
      findEach (m.complain h (name ++ ": ".toList ++ faultText "not found" e)) 1 m rest
    | (_, m) => findEach h status m rest

/-- Shows the programs that were found, forgets them, or looks for some. -/
def runHash (m : Machine) (h : Host) (arguments : List Raw) : Outcome :=
  m.withOptions h [('r', false)] arguments fun given rest =>
    if !given.isEmpty then (m.forgetFound none).done h 0
    else if rest.isEmpty then
      m.shows h ((byRow commandRows m.foundPlaces).flatMap m.foundLine)
    else findEach h 0 m rest

end CommandShell.Script.Machine
