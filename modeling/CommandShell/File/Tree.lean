import CommandShell.Table
import CommandShell.Text

/-!
# File systems

A file system says what stands at each location. A location is the list of names that leads to it
from the root, so it is canonical: it goes through no link and no dots. The root is always a
directory.
-/

namespace CommandShell

/-- A place in the file system, as the names that lead to it from the root. -/
abbrev Location := List String

/-- The location as an absolute path. -/
def Location.path (l : Location) : String := "/" ++ String.intercalate "/" l

/-- Files that are not kept on a disk. -/
inductive Device
  /-- Takes everything and holds nothing. -/
  | null
  /-- Has no space for anything. -/
  | full
  /-- The terminal, which no process here has. -/
  | terminal
  deriving DecidableEq

/-- Programs that belong to the system. -/
inductive Tool
  /-- Runs scripts. -/
  | scriptRunner
  /-- Copies files to standard output. -/
  | copier
  /-- Lets time pass. -/
  | sleeper
  /-- Writes its arguments to standard output. -/
  | teller
  /-- Does nothing and ends with a status. -/
  | constant (status : Nat)
  deriving DecidableEq

/-- What stands at a location. -/
inductive Node
  | directory
  /-- A regular file with its permission bits and its contents. -/
  | file (mode : Nat) (content : Bytes)
  /-- A symbolic link with the path that it stands for. -/
  | link (path : String)
  | device (device : Device)
  /-- A program of the system, a regular file that anyone may run. -/
  | tool (tool : Tool)
  deriving DecidableEq

/-- The bytes of the file of such a program. They are no text, and nothing else about them matters
here. -/
def Tool.image : Bytes := [0x7f, 0x45, 0x4c, 0x46, 0xff]

namespace Node

/-- The bytes that are there to be read from the node. -/
def bytes : Node → Bytes
  | file _ content => content
  | tool _ => Tool.image
  | _ => []

/-- Whether the node is a regular file with an execute permission. -/
def isProgram : Node → Bool
  | file mode _ => mode &&& 0o111 ≠ 0
  | tool _ => true
  | _ => false

/-- Whether the node is a regular file. -/
def isRegular : Node → Bool
  | file .. | tool _ => true
  | _ => false

/-- Whether its owner may run the node. -/
def mayRun : Node → Bool
  | file mode _ => mode &&& 0o100 ≠ 0
  | tool _ => true
  | _ => false

/-- Whether its owner may read the node. -/
def mayRead : Node → Bool
  | file mode _ => mode &&& 0o400 ≠ 0
  | _ => true

/-- Whether its owner may write to the node. Nobody writes to the programs of the system. -/
def mayWrite : Node → Bool
  | file mode _ => mode &&& 0o200 ≠ 0
  | tool _ => false
  | _ => true

end Node

/-- A file system, as the nodes at its locations below the root and the permissions of its
directories. -/
structure FileSystem where
  /-- The nodes, in no particular order, each location once. -/
  entries : List (Location × Node)
  /-- The directories in which nothing may be made. -/
  closed : List Location

namespace FileSystem

/-- The file system that holds the root directory alone, in which things may be made. -/
def empty : FileSystem := ⟨[], []⟩

/-- What stands at a location. -/
def get? (fs : FileSystem) (l : Location) : Option Node :=
  if l = [] then some .directory else fs.entries.lookup l

/-- Puts a node at a location. -/
def put (fs : FileSystem) (l : Location) (n : Node) : FileSystem :=
  { fs with entries := Table.set l n fs.entries }

/-- Whether a directory stands at a location. -/
def isDirectory (fs : FileSystem) (l : Location) : Bool := fs.get? l = some .directory

/-- Whether files may be made in a directory. -/
def isOpen (fs : FileSystem) (l : Location) : Bool := !fs.closed.contains l

/-- The names in a directory. -/
def names (fs : FileSystem) (l : Location) : List String :=
  fs.entries.filterMap fun e =>
    match e.1.getLast? with
    | some name => if e.1.dropLast = l then some name else none
    | none => none

/-- The directories of the system. -/
def systemDirectories : List Location :=
  [["dev"], ["etc"], ["home"], ["opt"], ["root"], ["run"], ["srv"], ["tmp"], ["usr"], ["var"],
    ["usr", "bin"], ["usr", "lib"], ["usr", "local"], ["usr", "sbin"], ["usr", "share"],
    ["usr", "local", "bin"], ["usr", "local", "sbin"], ["var", "tmp"]]

/-- What else the system puts in its usual places. -/
def systemFiles : List (Location × Node) :=
  [(["bin"], .link "usr/bin"), (["sbin"], .link "usr/sbin"), (["lib"], .link "usr/lib"),
    (["usr", "bin", "sh"], .tool .scriptRunner), (["usr", "bin", "cat"], .tool .copier),
    (["usr", "bin", "sleep"], .tool .sleeper), (["usr", "bin", "echo"], .tool .teller),
    (["usr", "bin", "true"], .tool (.constant 0)), (["usr", "bin", "false"], .tool (.constant 1)),
    (["dev", "null"], .device .null), (["dev", "full"], .device .full),
    (["dev", "tty"], .device .terminal)]

/-- The directories of the system in which anyone may make files. -/
def sharedDirectories : List Location := [["tmp"], ["var", "tmp"]]

/-- The file system that holds only what belongs to the system. -/
def standard : FileSystem :=
  systemFiles.foldl (fun (fs : FileSystem) e => fs.put e.1 e.2)
    (systemDirectories.foldl (fun (fs : FileSystem) l => fs.put l .directory)
      ⟨[], [] :: systemDirectories.filter (· ∉ sharedDirectories)⟩)

/-- After putting a node at a location below the root, it stands there and the rest is as before. -/
theorem get?_put (fs : FileSystem) {l : Location} (hl : l ≠ []) (n : Node) (m : Location) :
    (fs.put l n).get? m = if m = l then some n else fs.get? m := by
  by_cases hm : m = []
  · subst hm
    simp [get?, Ne.symm hl]
  · simp [get?, hm, put, Table.lookup_set]

/-- Putting a node somewhere opens no directory and closes none. -/
@[simp] theorem closed_put (fs : FileSystem) (l : Location) (n : Node) :
    (fs.put l n).closed = fs.closed := rfl

end FileSystem

end CommandShell
