import CommandShell.File.Lookup

/-!
# Finding programs

Which file a program name stands for. A name that is a single word is looked for in the directories
of the search path, in order; any other name is a path.
-/

namespace CommandShell

/-- The directories of a search path, empty ones left out. -/
def searchDirectories (searchPath : String) : List String :=
  (Text.splitOn ':' searchPath).filter (· ≠ "")

/-- The first program of a name in the directories of a search path. -/
def findProgram? (fs : FileSystem) (directory : Location) (searchPath name : String) :
    Option String :=
  ((searchDirectories searchPath).map (Path.join · name)).find? (fs.isProgram directory)

/-- The path of the program that a name stands for. -/
def locate (fs : FileSystem) (directory : Location) (searchPath name : String) : Option String :=
  match Path.searchName? name with
  | some word => findProgram? fs directory searchPath word
  | none => if fs.isProgram directory name then some name else none

end CommandShell
