import CommandShell.Text

/-!
# Paths

A path is a text in which `/` separates names. `Route` is a path taken apart for walking a file
system; `Path.join` and `Path.searchName?` work on the text alone.
-/

namespace CommandShell

/-- A path taken apart. -/
structure Route where
  /-- Whether the path starts at the root. -/
  absolute : Bool
  /-- The names along the path, empty ones left out. -/
  names : List String
  /-- Whether the path ends in a slash, and so can only lead to a directory. -/
  slash : Bool
  deriving DecidableEq

/-- Takes a path apart. -/
def Route.ofPath (path : String) : Route where
  absolute := path.toList.head? = some '/'
  names := (Text.splitOn '/' path).filter (· ≠ "")
  slash := path.toList.getLast? = some '/'

namespace Path

/-- Whether a path starts at the root. -/
def isAbsolute (path : String) : Bool := path.toList.head? = some '/'

/-- The path `path` as seen from the directory `base`: an absolute path stands for itself. -/
def join (base path : String) : String :=
  if isAbsolute path ∨ base = "" then path
  else if base.toList.getLast? = some '/' then base ++ path
  else base ++ "/" ++ path

/-- The names along a relative path: empty ones and a dot behind the first slash say nothing. -/
def components (path : String) : List String :=
  match Text.splitOn '/' path with
  | [] => []
  | first :: rest =>
    (if first = "" then [] else [first]) ++ rest.filter (fun n => n ≠ "" && n ≠ ".")

/-- The name to look for along the search path: the only name of a relative path, other than a
dot. -/
def searchName? (path : String) : Option String :=
  if isAbsolute path then none
  else
    match components path with
    | [name] => if name = "." then none else some name
    | _ => none

end Path

end CommandShell
