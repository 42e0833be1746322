import CommandShell.File.Lookup
import CommandShell.Pipe

/-!
# The host

What the processes of a session share: the files, the open files with their positions, the pipes,
the standard streams of the session, the variables that programs inherit, and what processes let
each other know. A process reaches files and streams through handles.
-/

namespace CommandShell

/-- How a program ended. -/
inductive Ending
  | exited (code : Nat)
  | signalled (number : Nat)
  deriving DecidableEq

/-- The status that an ending amounts to. -/
def Ending.code : Ending → Nat
  | .exited code => code
  | .signalled number => 128 + number

/-- An open file, with the position of the next read or write. -/
structure OpenFile where
  location : Location
  position : Nat
  /-- Whether every write goes to the end of the file. -/
  append : Bool
  readable : Bool
  writable : Bool
  deriving DecidableEq

/-- What a descriptor stands for. -/
inductive Handle
  /-- The session's standard input. -/
  | input
  /-- The session's standard output. -/
  | output
  /-- The session's standard error. -/
  | error
  /-- An open file, by number. -/
  | file (id : Nat)
  /-- The read end of a pipe, by number. -/
  | pipeReader (id : Nat)
  /-- The write end of a pipe, by number. -/
  | pipeWriter (id : Nat)
  deriving DecidableEq

/-- What a stream of the session received, in pieces. -/
structure Received where
  /-- The pieces, the last one first. -/
  pieces : List Bytes
  deriving DecidableEq

namespace Received

/-- What a stream received that received nothing. -/
def nothing : Received := ⟨[]⟩

/-- The bytes received, in order. -/
def bytes (r : Received) : Bytes := r.pieces.reverse.flatten

/-- Receives bytes. -/
def add (r : Received) (bs : Bytes) : Received := ⟨bs :: r.pieces⟩

@[simp] theorem bytes_nothing : nothing.bytes = [] := rfl

@[simp] theorem bytes_add (r : Received) (bs : Bytes) : (r.add bs).bytes = r.bytes ++ bs := by
  simp [add, bytes]

end Received

/-- What the processes of a session share. -/
structure Host where
  files : FileSystem
  /-- The open files, by number. -/
  openFiles : List OpenFile
  /-- The pipes, by number. -/
  pipes : List Pipe
  /-- What is left to read of standard input. -/
  input : Bytes
  /-- What standard output received. -/
  output : Received
  /-- What standard error received. -/
  error : Received
  /-- The variables that programs inherit. -/
  exported : List (String × String)
  /-- The handles that processes hold. -/
  held : List Handle
  /-- The processes that were made and not yet waited for. -/
  alive : List Nat
  /-- The number of the next process. -/
  nextProcess : Nat
  /-- The processes that have ended and were not waited for. -/
  endings : List (Nat × Ending)
  /-- The signals on their way, each with the process that it is sent to. -/
  signals : List (Nat × Nat)
  /-- The time, in thousandths of a second. -/
  clock : Nat

namespace Host

/-- The number of the process that a session starts with. -/
def firstProcess : Nat := 2

/-- A host with files, standard input and variables, on which nothing has happened yet. -/
def start (files : FileSystem) (input : Bytes) (exported : List (String × String)) : Host where
  files := files
  openFiles := []
  pipes := []
  input := input
  output := .nothing
  error := .nothing
  exported := exported
  held := []
  alive := [firstProcess]
  nextProcess := firstProcess + 1
  endings := []
  signals := []
  clock := 0

/-! ## Opening files -/

/-- What a file is opened for. -/
inductive Access
  | read
  /-- To be written, emptied before. -/
  | replace
  /-- To be written, if it is not a regular file that is there already. -/
  | create
  /-- To be written at its end. -/
  | append
  /-- To be read and written, from its start. -/
  | update
  deriving DecidableEq

namespace Access

/-- Whether the file is to be written. -/
def writes : Access → Bool
  | read => false
  | _ => true

/-- Whether the file is to be read. -/
def reads : Access → Bool
  | read | update => true
  | _ => false

end Access

/-- Adds an open file. -/
def addOpen (h : Host) (l : Location) (access : Access) : Handle × Host :=
  (.file h.openFiles.length, { h with
    openFiles := h.openFiles ++ [⟨l, 0, access = .append, access.reads, access.writes⟩] })

/-- Opens a file. A file that is to be written is created with the given permission bits if it is
not there. -/
def openFor (h : Host) (directory : Location) (path : String) (access : Access) (mode : Nat) :
    Except Fault (Handle × Host) := do
  let l ← if access = .read then h.files.resolve directory path
    else h.files.resolveNew directory path
  match h.files.get? l with
  | none =>
    if h.files.isOpen l.dropLast then
      .ok ({ h with files := h.files.put l (.file mode []) }.addOpen l access)
    else .error .permissionDenied
  | some .directory => if access.writes then .error .isDirectory else .ok (h.addOpen l access)
  | some (.device .terminal) => .error .noDevice
  | some node =>
    if access = .create && node.isRegular then .error .alreadyExists
    else if (access.reads && !node.mayRead) || (access.writes && !node.mayWrite) then
      .error .permissionDenied
    else
      match access, node with
      | .replace, .file mode _ =>
        .ok ({ h with files := h.files.put l (.file mode []) }.addOpen l access)
      | _, _ => .ok (h.addOpen l access)

/-- The permission bits of the files that the shell creates. -/
def newFileMode : Nat := 0o644

/-- Opens a file for writing, creating it if it is not there and emptying it unless `append`. -/
def openFile (h : Host) (directory : Location) (path : String) (append : Bool) :
    Except Fault (Handle × Host) :=
  h.openFor directory path (if append then .append else .replace) newFileMode

/-! ## Writing -/

/-- The bytes of a file after a write at a position. A gap is filled with zeros. -/
def overwrite (content : Bytes) (position : Nat) (bytes : Bytes) : Bytes :=
  content.take position ++ List.replicate (position - content.length) 0 ++ bytes ++
    content.drop (position + bytes.length)

/-- Writes to an open file. -/
def writeFile (h : Host) (id : Nat) (bytes : Bytes) : Except Fault Host :=
  match h.openFiles[id]? with
  | none => .error .badDescriptor
  | some f =>
    if !f.writable then .error .badDescriptor
    else
      match h.files.get? f.location with
      | some (.file mode content) =>
        let position := if f.append then content.length else f.position
        .ok { h with
          files := h.files.put f.location (.file mode (overwrite content position bytes))
          openFiles := h.openFiles.set id { f with position := position + bytes.length } }
      | some (.device .full) => .error .noSpace
      | _ => .ok h

/-- Whether some process holds the read end of a pipe. -/
def hasReader (h : Host) (id : Nat) : Bool := h.held.contains (.pipeReader id)

/-- Whether some process holds the write end of a pipe. -/
def hasWriter (h : Host) (id : Nat) : Bool := h.held.contains (.pipeWriter id)

/-- Writes as much to a handle as there is room for, and gives the bytes that have to wait. Only
pipes let bytes wait. -/
def send (h : Host) (handle : Handle) (bytes : Bytes) : Except Fault (Host × Bytes) :=
  if bytes.isEmpty then .ok (h, [])
  else
    match handle with
    | .output => .ok ({ h with output := h.output.add bytes }, [])
    | .error => .ok ({ h with error := h.error.add bytes }, [])
    | .file id => (h.writeFile id bytes).map fun h => (h, [])
    | .pipeWriter id =>
      match h.pipes[id]? with
      | none => .error .badDescriptor
      | some p =>
        if h.hasReader id then
          let filled := p.fill bytes
          .ok ({ h with pipes := h.pipes.set id filled.1 }, filled.2)
        else .error .brokenPipe
    | .input | .pipeReader _ => .error .badDescriptor

/-- Writes to a handle, to a pipe also beyond its room. Writing nothing always succeeds and changes
nothing. -/
def write (h : Host) (handle : Handle) (bytes : Bytes) : Except Fault Host :=
  if bytes.isEmpty then .ok h
  else
    match handle with
    | .output => .ok { h with output := h.output.add bytes }
    | .error => .ok { h with error := h.error.add bytes }
    | .file id => h.writeFile id bytes
    | .pipeWriter id =>
      match h.pipes[id]? with
      | none => .error .badDescriptor
      | some p =>
        if h.hasReader id then .ok { h with pipes := h.pipes.set id (p.push bytes) }
        else .error .brokenPipe
    | .input | .pipeReader _ => .error .badDescriptor

/-- Writing nothing changes nothing. -/
@[simp] theorem write_nil (h : Host) (handle : Handle) : h.write handle [] = .ok h := rfl

/-- The host after a write, unchanged if the write failed. -/
def orElseWritten (h : Host) (written : Except Fault Host) : Host :=
  match written with
  | .ok h => h
  | .error _ => h

/-- Writes to a handle, with nothing to be done about a failure. -/
def tryWrite (h : Host) (handle : Handle) (bytes : Bytes) : Host :=
  h.orElseWritten (h.write handle bytes)

/-- Writes a line of text to a handle, with nothing to be done about a failure. -/
def tryWriteLine (h : Host) (handle : Handle) (line : String) : Host :=
  h.tryWrite handle (Text.encode (line ++ "\n"))

/-! ## Pipes and reading -/

/-- Makes a new pipe, and gives its number. Nobody holds its ends yet. -/
def newPipe (h : Host) : Nat × Host :=
  (h.pipes.length, { h with pipes := h.pipes ++ [.empty] })

/-- Makes a pipe that holds bytes and takes no more, and gives the handle to read them. -/
def document (h : Host) (bytes : Bytes) : Handle × Host :=
  (.pipeReader h.pipes.length, { h with pipes := h.pipes ++ [Pipe.empty.push bytes] })

/-- What there is to read from a handle, and whether no more can follow. -/
def available (h : Host) (handle : Handle) : Bytes × Bool :=
  match handle with
  | .input => (h.input, true)
  | .pipeReader id =>
    match h.pipes[id]? with
    | some p => (p.bytes, !h.hasWriter id)
    | none => ([], true)
  | .file id =>
    match h.openFiles[id]? with
    | some f =>
      match h.files.get? f.location with
      | some n => (n.bytes.drop f.position, true)
      | none => ([], true)
    | none => ([], true)
  | _ => ([], true)

/-- What comes first of what there is to read from a handle, and whether no more can follow. -/
def front (h : Host) (handle : Handle) : Bytes × Bool :=
  match handle with
  | .pipeReader id =>
    match (h.pipes[id]?).map Pipe.pages with
    | some (page :: pages) => (page.bytes, pages.isEmpty && !h.hasWriter id)
    | _ => h.available handle
  | _ => h.available handle

/-- Takes the first `n` bytes off what there is to read from a handle. -/
def consume (h : Host) (handle : Handle) (n : Nat) : Host :=
  match handle with
  | .input => { h with input := h.input.drop n }
  | .pipeReader id =>
    match h.pipes[id]? with
    | some p => { h with pipes := h.pipes.set id (p.drop n) }
    | none => h
  | .file id =>
    match h.openFiles[id]? with
    | some f => { h with openFiles := h.openFiles.set id { f with position := f.position + n } }
    | none => h
  | _ => h

/-- Whether a handle can be read from. A directory can be opened for reading, but not read. -/
def mayRead (h : Host) (handle : Handle) : Bool :=
  match handle with
  | .input | .pipeReader _ => true
  | .file id =>
    match h.openFiles[id]? with
    | some f => f.readable && h.files.get? f.location ≠ some .directory
    | none => false
  | _ => false

/-- What a read of at most the given number of bytes gives. -/
inductive Reading
  /-- There is nothing to read yet. -/
  | waits
  /-- The bytes; none at the end. -/
  | bytes (bs : Bytes)

/-- Reads at most the given number of bytes from a handle. -/
def read (h : Host) (handle : Handle) (limit : Nat) : Reading × Host :=
  let (bytes, ended) := h.available handle
  if bytes.isEmpty && !ended then (.waits, h)
  else
    let taken := bytes.take limit
    (.bytes taken, h.consume handle taken.length)

/-! ## Processes -/

/-- Whether a process holds the file at a location open for writing. `own` are handles besides those
that are known to be held. -/
def isWritten (h : Host) (own : List Handle) (l : Location) : Bool :=
  (own ++ h.held).any fun
    | .file id => (h.openFiles[id]?).any fun f => f.writable && f.location = l
    | _ => false

/-- Makes the number of a new process. -/
def newProcess (h : Host) : Nat × Host :=
  (h.nextProcess, { h with
    nextProcess := h.nextProcess + 1
    alive := h.nextProcess :: h.alive })

/-- Notes that a process has ended. -/
def noteEnding (h : Host) (number : Nat) (e : Ending) : Host :=
  { h with endings := h.endings ++ [(number, e)] }

/-- How a process has ended, if it has; it is not known any more afterwards. -/
def takeEnding (h : Host) (number : Nat) : Option Ending × Host :=
  match h.endings.lookup number with
  | none => (none, h)
  | some e =>
    (some e, { h with
      endings := h.endings.filter (·.1 ≠ number)
      alive := h.alive.filter (· ≠ number) })

/-- Sends a signal to a process. -/
def signal (h : Host) (number signal : Nat) : Host :=
  { h with signals := h.signals ++ [(number, signal)] }

end Host

end CommandShell
