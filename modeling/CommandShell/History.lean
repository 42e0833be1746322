import CommandShell.Host

/-!
# History

The lines entered so far, and the files that keep them. A file holds one line per entry. Appending
writes the entries that no earlier append has written, so that each is appended once.
-/

namespace CommandShell

/-- The lines entered so far. -/
structure History where
  /-- The lines, in the order they were entered. -/
  entries : List String
  /-- How many of them were written by appending. -/
  appended : Nat
  deriving DecidableEq

/-- What was being done to a history file. -/
inductive HistoryTask
  | read
  | write
  | append
  deriving DecidableEq

/-- Why a history file could not be used. -/
structure HistoryFault where
  task : HistoryTask
  path : String
  cause : Fault
  deriving DecidableEq

/-- The text of a history fault. -/
def HistoryFault.message (f : HistoryFault) : String :=
  (match f.task with
    | .read => "can't read history from "
    | .write => "can't write history to "
    | .append => "can't append history to ") ++ f.path ++ ": " ++ f.cause.message

namespace History

/-- The history of a session that starts. -/
def empty : History := ⟨[], 0⟩

/-- Records a line. -/
def add (h : History) (line : String) : History := { h with entries := h.entries ++ [line] }

/-- The entries that no append has written. -/
def pending (h : History) : List String := h.entries.drop h.appended

/-- The entries in a text: its lines without the carriage returns at their ends, empty ones left
out. -/
def entriesOf (text : String) : List String :=
  ((text.toList.splitOn '\n').map fun line =>
    String.ofList (line.reverse.dropWhile (· = '\r')).reverse).filter (· ≠ "")

/-- The text of entries: each followed by a newline. -/
def textOf (entries : List String) : String := String.join (entries.map (· ++ "\n"))

/-- Reads a file's entries onto the end of the history, and gives their number. -/
def read (h : History) (host : Host) (directory : Location) (path : String) :
    Except HistoryFault (Nat × History) :=
  match host.files.read directory path with
  | .error e => .error ⟨.read, path, e⟩
  | .ok bytes =>
    match Text.decode? bytes with
    | none => .error ⟨.read, path, .notText⟩
    | some text =>
      let new := entriesOf text
      .ok (new.length, { h with entries := h.entries ++ new })

/-- Writes entries to a file that is opened for it. Also when the writing fails, the opening may
have created or emptied the file. -/
def save (entries : List String) (host : Host) (directory : Location) (path : String)
    (append : Bool) : Except Fault Unit × Host :=
  match host.openFile directory path append with
  | .error e => (.error e, host)
  | .ok (handle, host) =>
    match host.write handle (Text.encode (textOf entries)) with
    | .error e => (.error e, host)
    | .ok host => (.ok (), host)

/-- Replaces what a file holds by the whole history. -/
def write (h : History) (host : Host) (directory : Location) (path : String) :
    Except HistoryFault Unit × Host :=
  let saved := save h.entries host directory path false
  (saved.1.mapError fun e => ⟨.write, path, e⟩, saved.2)

/-- Appends the pending entries to a file, and gives their number. -/
def append (h : History) (host : Host) (directory : Location) (path : String) :
    Except HistoryFault Nat × History × Host :=
  match save h.pending host directory path true with
  | (.error e, host) => (.error ⟨.append, path, e⟩, h, host)
  | (.ok (), host) => (.ok h.pending.length, { h with appended := h.entries.length }, host)

end History

end CommandShell
