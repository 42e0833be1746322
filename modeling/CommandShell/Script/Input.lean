import CommandShell.Script.Outcome

/-!
# Reading lines into variables

The command that reads a line of standard input and gives its fields to variables. A backslash takes
the meaning from the next character and joins lines, unless the line is taken raw.
-/

namespace CommandShell.Script

namespace Entry

/-- A line of which nothing is read yet. -/
def ofNames (raw : Bool) (names : List Raw) : Entry := ⟨raw, names, false, #[], [], 0⟩

/-- Ends the current region, and starts another behind `skipped` cells. -/
def endRegion (e : Entry) (skipped : Nat) : Entry :=
  { e with
    regions := e.regions ++ [⟨e.first, e.cells.size - skipped, false⟩]
    first := e.cells.size }

/-- Takes a character, and tells whether it ends the line. -/
def take (e : Entry) (c : Char) : Entry × Bool :=
  if c = '\x00' then (e, false)
  else if e.escaped then
    let e := { e with escaped := false }
    if c = '\n' then (e.endRegion 0, false)
    else ({ e with cells := e.cells.push (.char c true) }.endRegion 1, false)
  else if c = '\\' && !e.raw then ({ e with escaped := true }, false)
  else if c = '\n' then (e, true)
  else ({ e with cells := e.cells.push (.char c false) }, false)

/-- Takes characters up to the end of the line, and tells how many and whether it was there. -/
def takeAll (e : Entry) (taken : Nat) : Raw → Entry × Nat × Bool
  | [] => (e, taken, false)
  | c :: cs =>
    match e.take c with
    | (e, true) => (e, taken + 1, true)
    | (e, false) => takeAll e (taken + 1) cs

/-- Gives fields to variables, and empty texts if there are too few. -/
def give (s : Scope) : List Raw → List Raw → Scope × Option Raw
  | [], _ => (s, none)
  | name :: names, fields =>
    match s.assignNamed name (fields.headD []) with
    | .error message => (s, some message)
    | .ok s => give s names (fields.drop 1)

/-- Gives the fields of the line to the variables. -/
def assign (e : Entry) (s : Scope) : Scope × Option Raw :=
  let e := e.endRegion 0
  let fields := splitFields s.separators (some e.names.length) e.cells e.regions
  give s e.names (fields.map Cell.characters)

end Entry

namespace Machine

/-- Ends the reading of a line. -/
def endEntry (m : Machine) (h : Host) (e : Entry) (status : Nat) : Outcome :=
  let (s, fault) := e.assign m.scope
  match fault with
  | some message => (m.withScope s).fails h message
  | none => (m.withScope s).done h status

/-- Goes on reading a line; nothing if there is nothing to be read yet. -/
def readEntry (m : Machine) (h : Host) (e : Entry) : Option Outcome :=
  match m.process.descriptors.get? 0 with
  | none => some (m.endEntry h e 1)
  | some handle =>
    if !h.mayRead handle then some (m.endEntry h e 1)
    else
      let (bytes, ended) := h.front handle
      if bytes.isEmpty then
        if ended || !m.pending.isEmpty then some (m.endEntry h e 1) else none
      else
        let (e, taken, complete) := e.takeAll 0 (Raw.ofBytes bytes)
        let h := h.consume handle taken
        some (if complete then m.endEntry h e 0 else .goesOn (m.push (.readLine e)) h)

/-- Reads a line into variables. -/
def runRead (m : Machine) (h : Host) (arguments : List Raw) : Outcome :=
  m.withOptions h [('p', true), ('r', false)] arguments fun given rest =>
    if rest.isEmpty then m.fails h "arg count".toList
    else .goesOn (m.push (.readLine (.ofNames (given.any (·.1 = 'r')) rest))) h

end Machine

end CommandShell.Script
