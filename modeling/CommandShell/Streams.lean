import CommandShell.Line.Stage
import CommandShell.Process

/-!
# Streams of a stage

Where a stage writes: to the files that its redirections name, and otherwise to the descriptors of
its process. The redirections are opened in order; the first that cannot be opened is reported and
stops the stage.
-/

namespace CommandShell

/-- The streams of a stage. -/
structure Streams where
  /-- The file that standard output goes to. -/
  output : Option Handle
  /-- The file that standard error goes to. -/
  error : Option Handle
  /-- Whether all redirections could be opened. -/
  valid : Bool
  deriving DecidableEq

namespace Streams

/-- The streams of a stage without redirections. -/
def inherited : Streams := ⟨none, none, true⟩

/-- The streams with one of them going to a file. -/
def redirect (s : Streams) (target : Target) (file : Handle) : Streams :=
  match target with
  | .output => { s with output := some file }
  | .error => { s with error := some file }
  | .unknown => s

/-- The notice of a redirection of a descriptor that stands for no stream. -/
def skipped (r : Redirection) : Notice where
  part := "tinysh::streams"
  level := .debug
  message := "skipping redirection of unknown descriptor"
  fields := [("path", r.path)]

/-- Opens redirections in order, on top of the streams so far. -/
def openFrom (p : Process) : Streams → Host → List Redirection → Streams × Host
  | s, h, [] => (s, h)
  | s, h, r :: rs =>
    if r.target = .unknown then openFrom p s (p.tell h (skipped r)) rs
    else
      match h.openFile p.directory r.path r.append with
      | .ok (file, h) => openFrom p (s.redirect r.target file) h rs
      | .error e => ({ s with valid := false }, p.complain h (r.path ++ ": " ++ e.brief))

/-- Opens the redirections of a stage. -/
def ofRedirections (p : Process) (h : Host) (rs : List Redirection) : Streams × Host :=
  openFrom p inherited h rs

/-- Lets go of the files. -/
def close (s : Streams) : Streams := { s with output := none, error := none }

/-- Writes to standard output. -/
def writeOutput (s : Streams) (p : Process) (h : Host) (text : String) : Except Fault Host :=
  match s.output with
  | some file => h.write file (Text.encode text)
  | none => p.write 1 h (Text.encode text)

/-- Writes to standard error. -/
def writeError (s : Streams) (p : Process) (h : Host) (text : String) : Except Fault Host :=
  match s.error with
  | some file => h.write file (Text.encode text)
  | none => p.write 2 h (Text.encode text)

/-- Where standard output goes. -/
def outputHandle (s : Streams) (p : Process) : Option Handle :=
  s.output.orElse fun _ => p.descriptors.get? 1

/-- Where standard error goes. -/
def errorHandle (s : Streams) (p : Process) : Option Handle :=
  s.error.orElse fun _ => p.descriptors.get? 2

/-- The handles of the files. -/
def handles (s : Streams) : List Handle := s.output.toList ++ s.error.toList

/-- The descriptors of a program that is started with the streams. -/
def descriptors (s : Streams) (d : Descriptors) : Descriptors :=
  let d := match s.output with
    | some file => d.put 1 file
    | none => d
  match s.error with
  | some file => d.put 2 file
  | none => d

end Streams

end CommandShell
