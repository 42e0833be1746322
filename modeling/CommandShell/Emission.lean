import CommandShell.Process

/-!
# Emissions

The texts that a builtin writes, one by one, and what becomes of it when one of them cannot be
written.
-/

namespace CommandShell

/-- What a builtin does when a text cannot be written. -/
inductive Care
  /-- It goes on with the next. -/
  | ignore
  /-- It leaves out the rest and fails. -/
  | stop
  /-- It leaves out the rest, tells the failure on standard error, and fails. -/
  | tell
  deriving DecidableEq

/-- A text that is to be written. -/
structure Emission where
  /-- Where it goes; nowhere if the descriptor is closed. -/
  handle : Option Handle
  bytes : Bytes
  care : Care
  /-- The builtin that keeps what could not be written and tries again in the end, if it does. -/
  keeper : Option String
  deriving DecidableEq

namespace Emission

/-- The notice that a builtin has tried again in vain. -/
def keptNotice (command : String) (f : Fault) : Notice where
  part := "tinysh::command"
  level := .warn
  message := "failed to flush builtin output"
  fields := [("command", Notice.quoted command), ("error", f.message)]

/-- Writes a text at once. -/
def write (e : Emission) (h : Host) : Except Fault Host :=
  match e.handle with
  | some handle => h.write handle e.bytes
  | none => if e.bytes.isEmpty then .ok h else .error .badDescriptor

/-- Tells that a text could not be written: on `error`, as far as the builtin tells it, and in a
notice. -/
def tellFault (e : Emission) (p : Process) (error : Option Handle) (h : Host) (f : Fault) : Host :=
  let h :=
    match e.care, error with
    | .tell, some handle => h.tryWriteLine handle f.message
    | _, _ => h
  match e.keeper with
  | some command => p.tell h (keptNotice command f)
  | none => h

/-- Writes texts at once, up to the first that ends the builtin because it cannot be written. The
first value says that there was none such. -/
def writeAll (p : Process) (error : Option Handle) : List Emission → Host → Bool × Host
  | [], h => (true, h)
  | e :: es, h =>
    match e.write h with
    | .ok h => writeAll p error es h
    | .error f =>
      let h := e.tellFault p error h f
      if e.care = .ignore then writeAll p error es h else (false, h)

end Emission

end CommandShell
