import CommandShell.Program.Start
import CommandShell.Script.Language

/-!
# Processes that scripts make

A process that is made for a command starts with all that its script has, but what is done about
signals, the jobs, and the text that is being read. A program takes the place of such a process, or of
the script itself.
-/

namespace CommandShell.Script.Machine

/-! ## New processes -/

/-- The signals that a terminal sends, which processes in the background ignore. -/
def terminalSignals : List Nat := [Signal.interrupt, Signal.quit]

/-- The machine of a process that is made from this one, with nothing to do yet. -/
def offspring (m : Machine) (number : Nat) : Machine :=
  let source? : Frame → Option Nat
    | .commands s => s.descriptor.filter (· ≠ 0)
    | _ => none
  let d := (m.frames.filterMap source?).foldl Descriptors.close m.process.descriptors
  { m with
    process := { m.process with
      number := number
      parent := m.process.number
      descriptors := d }
    frames := []
    skip := none
    savedStatus := none
    traps := m.traps.filter fun t => t.2.isEmpty
    pending := []
    jobs := []
    outerLoops := m.loopDepth
    outerLine := m.scriptLine
    atEnd := false }

/-- Makes a process in the background, the first of its job without any input. -/
def detached (m : Machine) (h : Host) (first : Bool) : Machine × Host :=
  let ignored := terminalSignals.filter fun n => !m.process.ignored.contains n
  let m := { m with
    process := { m.process with ignored := ignored ++ m.process.ignored }
    deaf := terminalSignals ++ m.deaf }
  match if first then h.openFor [] "/dev/null" .read 0 else .error .noEntry with
  | .ok (handle, h) => (m.withDescriptors (m.process.descriptors.put 0 handle), h)
  | .error _ => (m, h)

/-- Makes a process from a machine. -/
def fork (m : Machine) (h : Host) : Machine × Nat × Host :=
  let (number, h) := h.newProcess
  (m.offspring number, number, h)

/-! ## Programs -/

/-- Starts a program from the first of some paths that has it. -/
def startFirst (m : Machine) (h : Host) (arguments : List Raw) :
    Fault → List Raw → Except Fault (Running × Host)
  | e, [] => .error e
  | e, path :: rest =>
    match Program.start .replace h m.process (Raw.toText path) arguments m.scope.exported with
    | .ok started => .ok started
    | .error f => startFirst m h arguments (if f = .noEntry ∨ f = .notDirectory then e else f) rest

/-- The status of a process that was to become a program and could not. -/
def failureStatus (e : Fault) : Nat :=
  if e = .noEntry ∨ e = .notDirectory ∨ e = .linkLoop ∨ e = .nameTooLong then 127 else 126

/-- Puts a program in the place of a machine. `place` is the directory of the search path from which
on the program is looked for. Otherwise the failure is told, and the status that it amounts to is
given. -/
def become (m : Machine) (h : Host) (arguments : List Raw) (usual : Bool) (place : Nat) :
    Except (Nat × Host) (Running × Host) :=
  let name := arguments.headD []
  let paths := if name.contains '/' then [name]
    else
      ((cutAt ':' (if usual then usualPath else m.searchPath)).drop place).map fun directory =>
        inDirectory directory name
  (m.startFirst h arguments .noEntry paths).mapError fun e =>
    (failureStatus e, m.complain h (name ++ ": ".toList ++ faultText "not found" e))

end CommandShell.Script.Machine
