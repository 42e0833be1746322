import CommandShell.Script.Machine
import CommandShell.Script.Options

/-!
# Outcomes

What a command of the language leads to. Most are done at once, with a status and a text that is
written behind them; others give the machine something more to do, or end what it does.
-/

namespace CommandShell.Script

/-- What a command of the language leads to. -/
inductive Outcome
  /-- It is done, with a text to be written and a status. -/
  | done (m : Machine) (h : Host) (output : Raw) (status : Nat)
  /-- It fails with a message, behind which a text is written. -/
  | failed (m : Machine) (h : Host) (output message : Raw)
  /-- The machine has more to do. -/
  | goesOn (m : Machine) (h : Host)
  /-- The machine gives up what it is doing. -/
  | quits (m : Machine) (h : Host) (q : Quitting)
  /-- A program takes the place of the machine. -/
  | becomes (m : Machine) (h : Host) (arguments : List Raw)

namespace Machine

/-- Done, with nothing to be written. -/
def done (m : Machine) (h : Host) (status : Nat) : Outcome := .done m h [] status

/-- Done with success, and a text to be written. -/
def shows (m : Machine) (h : Host) (text : Raw) : Outcome := .done m h text 0

/-- Failed with a message. -/
def fails (m : Machine) (h : Host) (message : Raw) : Outcome := .failed m h [] message

/-- Done with another scope, or failed. -/
def takes (m : Machine) (h : Host) (s : Scope) (fault : Option Raw) : Outcome :=
  let m := m.withScope s
  match fault with
  | none => m.done h 0
  | some message => m.fails h message

/-- Goes on behind the options of a command. -/
def withOptions (m : Machine) (h : Host) (letters : List (Char × Bool)) (arguments : List Raw)
    (body : List (Char × Raw) → List Raw → Outcome) : Outcome :=
  match Options.read letters arguments with
  | .error message => m.fails h message
  | .ok (given, rest) => body given rest

end Machine

/-- The number that an argument has to be. -/
def numberArgument (text : Raw) : Except Raw Nat :=
  match number? text with
  | some n => .ok n
  | none => .error (Scope.numberFault text)

end CommandShell.Script
