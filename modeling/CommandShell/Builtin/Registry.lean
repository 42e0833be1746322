import CommandShell.Emission
import CommandShell.Shell

/-!
# Builtins by name

The commands that the shell runs by itself, and the registry that gives them their names. A registry
lists its names in ascending order.
-/

namespace CommandShell

/-- The streams that a builtin writes to. -/
inductive Channel
  | output
  | error
  deriving DecidableEq

/-- What a command supplied from outside is given. -/
structure Invocation where
  /-- The arguments, the first of which is the name that the command was called by. -/
  arguments : List String
  environment : Environment
  history : History
  /-- Whether standard output goes to a file that a redirection names. -/
  outputRedirected : Bool
  /-- Whether standard error goes to such a file. -/
  errorRedirected : Bool
  /-- The names in the registry that the command is in. -/
  names : List String

/-- What a command supplied from outside does. -/
structure Conduct where
  /-- The environment that it leaves. -/
  environment : Environment
  /-- The history that it leaves. -/
  history : History
  /-- What it writes, in order, and what it does about each text that cannot be written. -/
  texts : List (Care × Channel × String)
  /-- How it ends, if it tells. -/
  status : Option Status

/-- A command that the shell runs by itself. -/
inductive Builtin
  | echo
  | pwd
  | cd
  | exit
  | type
  | history
  /-- A command supplied from outside. -/
  | added (conduct : Invocation → Conduct)

/-- What a command has to say whose arguments are all that matters to it. -/
structure Reply where
  /-- What it writes to standard output. -/
  output : String
  /-- What it writes to standard error. -/
  error : String
  /-- How it ends, if it tells. -/
  status : Option Status

/-- A command supplied from outside that replies to its arguments and does nothing else. -/
def Builtin.supplied (reply : List String → Reply) : Builtin :=
  .added fun i =>
    let r := reply i.arguments
    ⟨i.environment, i.history, [(.ignore, .output, r.output), (.ignore, .error, r.error)], r.status⟩

/-- The names of the builtins. -/
structure Registry where
  /-- The names, in ascending order and each once, with their builtins. -/
  entries : List (String × Builtin)

namespace Registry

/-- The registry without names. -/
def empty : Registry := ⟨[]⟩

/-- Gives a name a builtin in an ascending list. -/
def insertEntry (name : String) (b : Builtin) : List (String × Builtin) → List (String × Builtin)
  | [] => [(name, b)]
  | e :: es =>
    if name < e.1 then (name, b) :: e :: es
    else if e.1 = name then (name, b) :: es
    else e :: insertEntry name b es

/-- Gives a name a builtin, in place of the one it had. -/
def register (r : Registry) (name : String) (b : Builtin) : Registry :=
  ⟨insertEntry name b r.entries⟩

/-- The builtin of a name. -/
def lookup (r : Registry) (name : String) : Option Builtin := r.entries.lookup name

/-- What a name stands for after one was given a builtin. -/
theorem lookup_register (r : Registry) (name other : String) (b : Builtin) :
    (r.register name b).lookup other = if other = name then some b else r.lookup other := by
  obtain ⟨es⟩ := r
  simp only [register, lookup]
  induction es with
  | nil =>
    by_cases h : other = name
    · simp [insertEntry, h]
    · simp [insertEntry, List.lookup_cons, h, beq_eq_false_iff_ne.2 h]
  | cons e es ih =>
    obtain ⟨n, c⟩ := e
    simp only [insertEntry]
    split
    · by_cases h : other = name
      · simp [h]
      · simp [List.lookup_cons, h, beq_eq_false_iff_ne.2 h]
    split
    · next hn =>
      subst hn
      by_cases h : other = n
      · simp [h]
      · simp [List.lookup_cons, h, beq_eq_false_iff_ne.2 h]
    · next hn =>
      by_cases h : other = n
      · subst h
        simp [hn]
      · simp [List.lookup_cons, beq_eq_false_iff_ne.2 h, ih]

/-- Whether a name has a builtin. -/
def contains (r : Registry) (name : String) : Bool := (r.lookup name).isSome

/-- The names, in ascending order. -/
def names (r : Registry) : List String := r.entries.map (·.1)

/-- The registry that a session starts with. -/
def default : Registry :=
  [("cd", .cd), ("echo", .echo), ("exit", .exit), ("history", .history), ("pwd", .pwd),
    ("type", Builtin.type)].foldl (fun r e => r.register e.1 e.2) empty

end Registry

end CommandShell
