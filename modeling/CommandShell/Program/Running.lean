import CommandShell.Emission
import CommandShell.Script.Machine
import CommandShell.Script.Quote

/-!
# Running programs

What a process can be doing: running a script, copying files, letting time pass, or writing what a
builtin left it to write. Programs run in small steps, and what a step leads to is a turn.
-/

namespace CommandShell

open Script

/-- A program that copies texts and files to standard output. -/
structure Copier where
  process : Process
  /-- The name that failures are told by. -/
  name : String
  /-- The files that are still to be opened; a dash is standard input. -/
  sources : List String
  /-- The file that is being copied, by its name. -/
  current : Option (String × Handle)
  /-- What was read and not yet written. -/
  unwritten : Bytes
  status : Nat

/-- A process that writes texts and then ends. -/
structure Writer where
  process : Process
  /-- Where failures are told. -/
  error : Option Handle
  emissions : List Emission
  status : Nat

/-- What a process is doing. -/
inductive Running
  | script (m : Machine)
  | copier (c : Copier)
  /-- Waits until a time has come. -/
  | sleeper (process : Process) (time : Nat)
  | writer (w : Writer)
  /-- Has not begun. -/
  | idle (process : Process) (begin : Host → Running × Host)
  /-- Is about to end. -/
  | ending (process : Process) (e : Ending)

namespace Running

/-- The process. -/
def process : Running → Process
  | script m => m.process
  | copier c => c.process
  | sleeper p _ => p
  | writer w => w.process
  | idle p _ => p
  | ending p _ => p

/-- The handles that the process holds. -/
def handles : Running → List Handle
  | copier c => c.process.descriptors.handles ++ (c.current.map Prod.snd).toList
  | writer w => w.process.descriptors.handles ++ w.emissions.filterMap Emission.handle
  | ending .. => []
  | r => r.process.descriptors.handles

end Running

/-- What a step leads to. -/
inductive Turn
  | goOn (r : Running) (h : Host)
  /-- Nothing can be done yet. -/
  | waits
  /-- There is one more process. -/
  | forks (r child : Running) (h : Host)
  | ended (e : Ending) (h : Host)

/-! ## Copying -/

namespace Copier

/-- The most bytes that are copied at once. -/
def blockSize : Nat := 131072

/-- Tells a failure. -/
def complain (c : Copier) (h : Host) (text : String) : Copier × Host :=
  ({ c with status := 1 }, c.process.complain h (c.name ++ ": " ++ text))

/-- Writes what was read. -/
def write (c : Copier) (h : Host) : Turn :=
  let failed (e : Fault) : Turn :=
    .ended (.exited 1) (c.process.complain h (c.name ++ ": write error: " ++ e.brief))
  match c.process.descriptors.get? 1 with
  | none => failed .badDescriptor
  | some handle =>
    match h.send handle c.unwritten with
    | .ok (h, rest) =>
      if rest.length = c.unwritten.length then .waits
      else .goOn (.copier { c with unwritten := rest }) h
    | .error .brokenPipe =>
      if c.process.ignored.contains Signal.pipe then failed .brokenPipe
      else .ended (.signalled Signal.pipe) h
    | .error e => failed e

/-- Opens the next file. -/
def openNext (c : Copier) (h : Host) (name : String) : Turn :=
  let opened : Except Fault (Handle × Host) :=
    if name = "-" then
      match c.process.descriptors.get? 0 with
      | some handle => .ok (handle, h)
      | none => .error .badDescriptor
    else h.openFor c.process.directory name .read 0
  let refuse (e : Fault) : Turn :=
    let shown := Raw.toText (Quote.shownName (Raw.ofText name))
    let (c, h) := c.complain h (shown ++ ": " ++ e.brief)
    .goOn (.copier c) h
  match opened with
  | .error e => refuse e
  | .ok (handle, h) =>
    if h.mayRead handle then .goOn (.copier { c with current := some (name, handle) }) h
    else
      match handle with
      | .file _ => refuse .isDirectory
      | _ => refuse .badDescriptor

/-- Does one thing. -/
def step (c : Copier) (h : Host) : Turn :=
  if !c.unwritten.isEmpty then c.write h
  else
    match c.current, c.sources with
    | some (_, handle), _ =>
      match h.read handle blockSize with
      | (.waits, _) => .waits
      | (.bytes [], h) => .goOn (.copier { c with current := none }) h
      | (.bytes bs, h) => .goOn (.copier { c with unwritten := bs }) h
    | none, name :: rest => { c with sources := rest }.openNext h name
    | none, [] => .ended (.exited c.status) h

/-- The program that copies files, called with arguments. -/
def ofFiles (p : Process) (h : Host) (arguments : List String) : Running × Host :=
  if (p.descriptors.get? 1).isSome then
    let names := arguments.filter fun a => a ≠ "-u" && a ≠ "--"
    (.copier ⟨p, "cat", if names.isEmpty then ["-"] else names, none, [], 0⟩, h)
  else
    let text := "cat: standard output: " ++ Fault.badDescriptor.brief
    (.ending p (.exited 1), p.complain h text)

/-- The program that writes its arguments, called with them. A first one may say that no newline is
to follow. -/
def ofTexts (p : Process) (arguments : List Raw) : Running :=
  let (shown, ending) : List Raw × Raw := match arguments with
    | ['-', 'n'] :: rest => (rest, [])
    | _ => (arguments, ['\n'])
  .copier ⟨p, "echo", [], none, Raw.toBytes (List.intercalate [' '] shown ++ ending), 0⟩

end Copier

/-! ## Writing -/

namespace Writer

/-- The process with the emissions that are left. -/
def goOn (w : Writer) (left : List Emission) (h : Host) : Turn :=
  .goOn (.writer { w with emissions := left }) h

/-- Goes on after a text could not be written. -/
def fail (w : Writer) (h : Host) (f : Fault) (e : Emission) (left : List Emission) : Turn :=
  let h := e.tellFault w.process w.error h f
  if e.care = .ignore then w.goOn left h else { w with status := 1 }.goOn [] h

/-- Writes a piece of a text. -/
def step (w : Writer) (h : Host) : Turn :=
  match w.emissions with
  | [] => .ended (.exited w.status) h
  | e :: left =>
    match e.handle with
    | none => if e.bytes.isEmpty then w.goOn left h else w.fail h .badDescriptor e left
    | some handle =>
      match h.send handle e.bytes with
      | .error f => w.fail h f e left
      | .ok (h, rest) =>
        if rest.isEmpty then w.goOn left h
        else if rest.length = e.bytes.length then .waits
        else w.goOn ({ e with bytes := rest } :: left) h

end Writer

end CommandShell
