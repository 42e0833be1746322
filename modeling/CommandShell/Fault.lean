/-!
# Faults

Why an operation on files, streams or programs fails. A fault is a cause; its wording is chosen in
one place: `Fault.message` is the long text, with the number of the system error, and
`Fault.brief` the bare text.
-/

namespace CommandShell

/-- The broad kinds of fault. -/
inductive FaultKind
  | notFound
  | notADirectory
  | isADirectory
  | filesystemLoop
  | invalidFilename
  | storageFull
  | invalidInput
  | invalidData
  | interrupted
  | brokenPipe
  | wouldBlock
  | unexpectedEof
  | permissionDenied
  | argumentListTooLong
  | other
  deriving DecidableEq

/-- The cause of a failed operation. -/
inductive Fault
  /-- No file or directory has the name. -/
  | noEntry
  /-- A name leads through a file that is no directory. -/
  | notDirectory
  /-- A directory stands where a file is wanted. -/
  | isDirectory
  /-- Following a name meets too many symbolic links. -/
  | linkLoop
  /-- A name is longer than names may be. -/
  | nameTooLong
  /-- The device has no space left. -/
  | noSpace
  /-- The pipe has no reader. -/
  | brokenPipe
  /-- The file is no program in a known format. -/
  | execFormat
  /-- A program argument is too long. -/
  | argumentsTooLong
  /-- The file may not be run. -/
  | permissionDenied
  /-- The descriptor is not open. -/
  | badDescriptor
  /-- The program is being written to. -/
  | textBusy
  /-- No device is behind the name. -/
  | noDevice
  /-- A file that was to be new is there. -/
  | alreadyExists
  /-- A path holds the character of code zero. -/
  | nulInPath
  /-- A program argument holds the character of code zero. -/
  | nulInArgument
  /-- A text file is not UTF-8. -/
  | notText
  /-- A failure that a stream reports with a text of its own. -/
  | reported (kind : FaultKind) (text : String)
  deriving DecidableEq

namespace Fault

/-- The kind that a fault belongs to. -/
def kind : Fault → FaultKind
  | noEntry => .notFound
  | notDirectory => .notADirectory
  | isDirectory => .isADirectory
  | linkLoop => .filesystemLoop
  | nameTooLong => .invalidFilename
  | noSpace => .storageFull
  | brokenPipe => .brokenPipe
  | execFormat => .other
  | argumentsTooLong => .argumentListTooLong
  | permissionDenied => .permissionDenied
  | badDescriptor => .other
  | textBusy => .other
  | noDevice => .other
  | alreadyExists => .other
  | nulInPath => .invalidInput
  | nulInArgument => .invalidInput
  | notText => .invalidData
  | reported k _ => k

/-- The number and the usual text of a fault that the system reports. -/
def system? : Fault → Option (Nat × String)
  | noEntry => some (2, "No such file or directory")
  | notDirectory => some (20, "Not a directory")
  | isDirectory => some (21, "Is a directory")
  | linkLoop => some (40, "Too many levels of symbolic links")
  | nameTooLong => some (36, "File name too long")
  | noSpace => some (28, "No space left on device")
  | brokenPipe => some (32, "Broken pipe")
  | execFormat => some (8, "Exec format error")
  | argumentsTooLong => some (7, "Argument list too long")
  | permissionDenied => some (13, "Permission denied")
  | badDescriptor => some (9, "Bad file descriptor")
  | textBusy => some (26, "Text file busy")
  | noDevice => some (6, "No such device or address")
  | alreadyExists => some (17, "File exists")
  | _ => none

/-- The text of a fault that has no number. -/
def ownText : Fault → String
  | nulInPath => "file name contained an unexpected NUL byte"
  | nulInArgument => "nul byte found in provided data"
  | notText => "stream did not contain valid UTF-8"
  | reported _ text => text
  | _ => ""

/-- The long text: the usual text followed by the number, or the fault's own text. -/
def message (f : Fault) : String :=
  match f.system? with
  | some (number, text) => text ++ " (os error " ++ toString number ++ ")"
  | none => f.ownText

/-- The bare text, without a number. Loops of links are worded in a way of their own here. -/
def brief (f : Fault) : String :=
  match f with
  | linkLoop => "Too many symbolic links encountered"
  | _ =>
    match f.system? with
    | some (_, text) => text
    | none => f.ownText

end Fault

end CommandShell
