import CommandShell.Script.Job
import CommandShell.Script.Outcome
import CommandShell.Script.Quote

/-!
# Reactions to signals

What a script does about signals. It may ignore a signal, or name commands that are run when the
signal has come; otherwise most signals end it. Zero stands for the end of the script.
-/

namespace CommandShell.Script.Machine

/-- The machine after a signal has come; nothing if it ends by it. -/
def receive (m : Machine) (n : Nat) : Option Machine :=
  if n = Signal.kill then none
  else if m.process.ignored.contains n then some m
  else
    match m.traps.lookup n with
    | some _ => some { m with pending := m.pending.filter (· ≠ n) ++ [n] }
    | none => if Signal.isHarmless n then some m else none

/-- Whether a signal can be ignored. -/
def canIgnore (m : Machine) (n : Nat) : Bool :=
  n ≠ 0 && n ≠ Signal.kill && n ≠ Signal.stop && !m.deaf.contains n

/-- Sets what is done about a signal; without anything to do the signal has its usual effect. -/
def react (m : Machine) (n : Nat) (action : Option Raw) : Machine :=
  let others := m.process.ignored.filter (· ≠ n)
  let ignored := if !m.canIgnore n then m.process.ignored
    else if action = some [] then n :: others
    else others
  { m with
    traps := match action with
      | some action => Table.set n action m.traps
      | none => m.traps.filter (·.1 ≠ n)
    process := { m.process with ignored := ignored } }

/-- Starts what is done about the first signal that has come. -/
def startReaction (m : Machine) : Option Machine :=
  if m.pending.isEmpty || m.skip.isSome then none
  else
    let action? (n : Nat) : Option Raw := m.traps.lookup n
    match (List.range (Signal.greatest + 1)).find? fun n =>
      m.pending.contains n && (action? n).isSome with
    | none => some { m with pending := [] }
    | some n =>
      let status := m.savedStatus.getD m.scope.status
      let m := { m with pending := m.pending.filter (· ≠ n) }
      some ({ m with savedStatus := some status }.pushAll
        [.commands (.ofText ((action? n).getD []) .reaction false),
          .endReaction status m.savedStatus])

/-! ## Commands -/

/-- The lines that show what is done about signals. -/
def reactionListing (m : Machine) : Raw :=
  (List.range (Signal.greatest + 1)).flatMap fun n =>
    match m.traps.lookup n with
    | some action =>
      let name := if n = 0 then "EXIT" else Signal.name n
      "trap -- ".toList ++ Quote.quoted action ++ [' '] ++ name.toList ++ ['\n']
    | none => []

/-- Sets what is done about each of some signals. -/
def reactEach (h : Host) (action : Option Raw) (m : Machine) : List Raw → Outcome
  | [] => m.done h 0
  | name :: rest =>
    match Signal.ofText? true name with
    | none => m.done (m.report h ("trap: ".toList ++ name ++ ": bad trap\n".toList)) 1
    | some n => reactEach h action (m.react n action) rest

/-- Shows or sets what is done about signals. -/
def runTrap (m : Machine) (h : Host) (arguments : List Raw) : Outcome :=
  m.withOptions h [] arguments fun _ rest =>
    match rest with
    | [] => m.shows h m.reactionListing
    | [name] => reactEach h none m [name]
    | action :: names =>
      if (Signal.ofNumber? action).isSome then reactEach h none m rest
      else reactEach h (if action = ['-'] then none else some action) m names

/-- How `kill` is called. -/
def killUsage : Raw :=
  ("Usage: kill [-s sigspec | -signum | -sigspec] [pid | job]... or\n" ++
    "kill -l [exitstatus]").toList

/-- The names of all signals. -/
def signalListing : Raw :=
  "0\n".toList ++ ((List.range (Signal.greatest + 1)).drop 1).flatMap fun n =>
    (Signal.name n).toList ++ ['\n']

/-- Shows the names of signals: of all, or of the one that a status stands for. -/
def showSignals (m : Machine) (h : Host) (arguments : List Raw) : Outcome :=
  match arguments with
  | [] => m.shows h signalListing
  | text :: _ =>
    match numberArgument text with
    | .error message => m.fails h message
    | .ok status =>
      let n := if 128 < status then status - 128 else status
      if 0 < n && n ≤ Signal.greatest then m.shows h ((Signal.name n).toList ++ ['\n'])
      else m.fails h ("invalid signal number or exit status: ".toList ++ text)

/-- The process that an argument of `kill` names, if there is one. -/
def killTarget (m : Machine) (h : Host) (text : Raw) : Except Raw (Except Raw Nat) :=
  let gone : Except Raw Nat := .error "No such process".toList
  match text with
  | '%' :: _ => (m.findJob (some text)).map fun _ => gone
  | '-' :: digits => (numberArgument digits).map fun _ => gone
  | _ =>
    (numberArgument text).map fun n =>
      if n = 1 then .error "Operation not permitted".toList
      else if n = 0 then .ok m.process.number
      else if h.alive.contains n then .ok n
      else gone

/-- Sends a signal to each of some processes. -/
def killEach (m : Machine) (signal status : Nat) (h : Host) : List Raw → Outcome
  | [] => m.done h status
  | text :: rest =>
    match m.killTarget h text with
    | .error message => m.fails h message
    | .ok (.error message) => killEach m signal 1 (m.complain h (message ++ ['\n'])) rest
    | .ok (.ok n) => killEach m signal status (if signal = 0 then h else h.signal n signal) rest

/-- Sends a signal to processes, or shows the names of signals. -/
def runKill (m : Machine) (h : Host) (arguments : List Raw) : Outcome :=
  let send (signal : Nat) (rest : List Raw) : Outcome :=
    if rest.isEmpty then m.fails h killUsage else m.killEach signal 0 h rest
  let first := arguments.headD []
  match if first.head? = some '-' then Signal.ofText? false (first.drop 1) else none with
  | some signal => send signal (arguments.drop 1)
  | none =>
    if arguments.isEmpty then m.fails h killUsage
    else
      m.withOptions h [('l', false), ('s', true)] arguments fun given rest =>
        let named := (given.filter (·.1 = 's')).map Prod.snd
        match named.find? fun text => (Signal.ofText? false text).isNone with
        | some text => m.fails h ("invalid signal number or name: ".toList ++ text)
        | none =>
          let signal := (named.getLast?).bind (Signal.ofText? false)
          if given.any (·.1 = 'l') then
            if signal.isSome && !rest.isEmpty then m.fails h killUsage else m.showSignals h rest
          else send (signal.getD Signal.terminate) rest

end CommandShell.Script.Machine
