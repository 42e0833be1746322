import CommandShell.Fault
import CommandShell.File.Path
import CommandShell.File.Tree

/-!
# Following paths

`FileSystem.walk` follows the names of a path from a directory, through symbolic links, to a
location. A path that is to be created may end in a name that does not exist yet.
-/

namespace CommandShell

/-- The most symbolic links that one path may lead through. -/
def maxLinks : Nat := 40

/-- The most bytes that one name may have. -/
def maxNameLength : Nat := 255

/-- The number of bytes from which on a path is too long. -/
def pathLimit : Nat := 4096

namespace FileSystem

/-- Follows names from the location `here`. `links` is the number of links that may still be
followed, and `slash` says that the last name has to be a directory. When `creating`, the last name
may be missing, unless it has to be a directory. -/
def walk (fs : FileSystem) (creating : Bool) (links : Nat) (here : Location) (names : List String)
    (slash : Bool) : Except Fault Location :=
  match names with
  | [] => if slash && !fs.isDirectory here then .error .notDirectory else .ok here
  | name :: rest =>
    if !fs.isDirectory here then .error .notDirectory
    else if creating && rest.isEmpty && slash then .error .isDirectory
    else if name = "." then fs.walk creating links here rest slash
    else if name = ".." then fs.walk creating links here.dropLast rest slash
    else if maxNameLength < name.utf8ByteSize then .error .nameTooLong
    else
      match fs.get? (here ++ [name]), links with
      | none, _ => if creating && rest.isEmpty then .ok (here ++ [name]) else .error .noEntry
      | some (.link _), 0 => .error .linkLoop
      | some (.link path), links + 1 =>
        if path = "" then .error .noEntry
        else
          let route := Route.ofPath path
          fs.walk creating links (if route.absolute then [] else here) (route.names ++ rest)
            (slash || (rest.isEmpty && route.slash))
      | some _, links => fs.walk creating links (here ++ [name]) rest slash
termination_by (links, names.length)

/-- Follows a path from a directory, after looking at the path as a whole. -/
def follow (fs : FileSystem) (creating : Bool) (directory : Location) (path : String) :
    Except Fault Location :=
  if Text.hasNul path then .error .nulInPath
  else if path = "" then .error .noEntry
  else if pathLimit ≤ path.utf8ByteSize then .error .nameTooLong
  else
    let route := Route.ofPath path
    fs.walk creating maxLinks (if route.absolute then [] else directory) route.names route.slash

/-- The location that a path leads to. -/
def resolve (fs : FileSystem) (directory : Location) (path : String) : Except Fault Location :=
  fs.follow false directory path

/-- The location of the file that a path names, be it there or yet to be created. -/
def resolveNew (fs : FileSystem) (directory : Location) (path : String) : Except Fault Location :=
  fs.follow true directory path

/-- What a path leads to. -/
def lookup (fs : FileSystem) (directory : Location) (path : String) : Except Fault Node := do
  let l ← fs.resolve directory path
  match fs.get? l with
  | some n => .ok n
  | none => .error .noEntry

/-- Whether a path leads to something. -/
def pathExists (fs : FileSystem) (directory : Location) (path : String) : Bool :=
  (fs.lookup directory path).toOption.isSome

/-- Whether a path names something, be it a link that leads nowhere. -/
def entryExists (fs : FileSystem) (directory : Location) (path : String) : Bool :=
  let route := Route.ofPath path
  match route.slash, route.names.getLast? with
  | false, some name =>
    if name = "." || name = ".." || pathLimit ≤ path.utf8ByteSize then
      fs.pathExists directory path
    else
      match fs.walk false maxLinks (if route.absolute then [] else directory)
        route.names.dropLast true with
      | .ok l => (fs.get? (l ++ [name])).isSome
      | .error _ => false
  | _, _ => fs.pathExists directory path

/-- Whether a path leads to a regular file with an execute permission. -/
def isProgram (fs : FileSystem) (directory : Location) (path : String) : Bool :=
  match fs.lookup directory path with
  | .ok n => n.isProgram
  | .error _ => false

/-- The location of the directory that a path leads to. -/
def resolveDirectory (fs : FileSystem) (directory : Location) (path : String) :
    Except Fault Location := do
  let l ← fs.resolve directory path
  if fs.isDirectory l then .ok l else .error .notDirectory

/-- The names in the directory that a path leads to. -/
def list (fs : FileSystem) (directory : Location) (path : String) : Except Fault (List String) :=
  (fs.resolveDirectory directory path).map fs.names

/-- The bytes in the file that a path leads to. A device that has no space can be read from, but
there is no end of its zeros, so that memory runs out. -/
def read (fs : FileSystem) (directory : Location) (path : String) : Except Fault Bytes := do
  match ← fs.lookup directory path with
  | .directory => .error .isDirectory
  | .device .terminal => .error .noDevice
  | .device .full => .error (.reported .other "out of memory")
  | n => if n.mayRead then .ok n.bytes else .error .permissionDenied

/-! ## Canonical paths -/

/-- Follows names from the location `here` one at a time, each by its canonical path, which must not
be too long. -/
def walkByPath (fs : FileSystem) (links : Nat) (here : Location) (names : List String)
    (slash : Bool) : Except Fault Location :=
  match names with
  | [] => if slash && !fs.isDirectory here then .error .notDirectory else .ok here
  | name :: rest =>
    if name = "." || name = ".." then
      if fs.isDirectory here then
        fs.walkByPath links (if name = "." then here else here.dropLast) rest slash
      else .error .notDirectory
    else if pathLimit ≤ (Location.path (here ++ [name])).utf8ByteSize then .error .nameTooLong
    else if !fs.isDirectory here then .error .notDirectory
    else if maxNameLength < name.utf8ByteSize then .error .nameTooLong
    else
      match fs.get? (here ++ [name]), links with
      | none, _ => .error .noEntry
      | some (.link _), 0 => .error .linkLoop
      | some (.link path), links + 1 =>
        let route := Route.ofPath path
        fs.walkByPath links (if route.absolute then [] else here) (route.names ++ rest)
          (slash || (rest.isEmpty && route.slash))
      | some _, links => fs.walkByPath links (here ++ [name]) rest slash
termination_by (links, names.length)

/-- The location of the directory that an absolute path of any length leads to. -/
def canonicalDirectory (fs : FileSystem) (path : String) : Except Fault Location := do
  if Text.hasNul path then throw .nulInPath
  if path = "" then throw .noEntry
  let route := Route.ofPath path
  let l ← fs.walkByPath maxLinks [] route.names route.slash
  if fs.isDirectory l then .ok l else .error .notDirectory

end FileSystem

end CommandShell
