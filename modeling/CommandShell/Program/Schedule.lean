import CommandShell.Script.Step

/-!
# Taking turns

Processes take turns, each for a number of steps. When none of them can do anything, time passes until
the first that waits for a time goes on; if none does, they would wait forever, and are killed.
-/

namespace CommandShell

open Script

namespace Running

/-- Does one thing. -/
def step (r : Running) (h : Host) : Turn :=
  match r with
  | script m => m.step h
  | copier c => c.step h
  | sleeper _ time => if time ≤ h.clock then .ended (.exited 0) h else .waits
  | writer w => w.step h
  | idle _ begin =>
    let (r, h) := begin h
    .goOn r h
  | ending _ e => .ended e h

/-- The process after a signal has come. -/
def receive (r : Running) (n : Nat) : Running :=
  let gone : Running := ending r.process (.signalled n)
  match r with
  | ending .. => r
  | script m => (m.receive n).elim gone script
  | r =>
    if n ≠ Signal.kill && (r.process.ignored.contains n || Signal.isHarmless n) then r else gone

/-- The time that a process waits for. -/
def time? : Running → Option Nat
  | sleeper _ time => some time
  | _ => none

end Running

namespace Schedule

instance : Nonempty Host := ⟨.start .empty [] []⟩

/-- How many steps a process takes in one turn. -/
def turnLength : Nat := 256

/-- Lets a process go on for at most the given number of steps, up to a signal to some process. What
comes of it is the process, unless it has ended, those that it made, the last one first, and whether
it did anything. -/
def turn : Nat → Bool → List Running → Running → Host → Option Running × List Running × Bool × Host
  | 0, moved, made, r, h => (some r, made, moved, h)
  | steps + 1, moved, made, r, h =>
    if !h.signals.isEmpty then (some r, made, moved, h)
    else
      match r.step h with
      | .goOn r h => turn steps true made r h
      | .waits => (some r, made, moved, h)
      | .forks r child h =>
        turn steps true (child :: made) r { h with held := r.handles ++ child.handles ++ h.held }
      | .ended e h => (none, made, true, h.noteEnding r.process.number e)

/-- The processes after all signals have come. -/
def deliver (signals : List (Nat × Nat)) (rs : List Running) : List Running :=
  rs.map fun r =>
    signals.foldl (fun r s => if s.1 = r.process.number then r.receive s.2 else r) r

/-- Gives each process a turn, in order. `gone` are those that had theirs, the last one first, and
`own` the handles that are held besides those of the processes. -/
def round (own : List Handle) (moved : Bool) (gone : List Running) :
    List Running → Host → List Running × Bool × Host
  | [], h => (gone.reverse, moved, h)
  | r :: rs, h =>
    let held := own ++ (gone ++ r :: rs).flatMap Running.handles
    let (r, made, more, h) := turn turnLength false [] r { h with held := held }
    let gone := made ++ r.toList ++ gone
    let signals := h.signals
    round own (moved || more) (deliver signals gone) (rs.map fun r =>
      signals.foldl (fun r s => if s.1 = r.process.number then r.receive s.2 else r) r)
      { h with signals := [] }
termination_by rs => rs.length

/-- Gives each process a turn. If none of them can do anything, time passes. -/
def next (own : List Handle) (rs : List Running) (h : Host) : List Running × Host :=
  let (rs, moved, h) := round own false [] rs h
  if moved then (rs, h)
  else
    match (rs.filterMap Running.time?).min? with
    | some time => (rs, { h with clock := max time h.clock })
    | none => (rs.map fun r => r.receive Signal.kill, h)

end Schedule

/-- Gives turns until the processes of some numbers have ended. -/
def Host.rounds (own : List Handle) (wanted : List Nat) (rs : List Running) (h : Host) :
    List Running × Host :=
  if wanted.all fun n => (h.endings.lookup n).isSome then (rs, h)
  else
    let (rs, h) := Schedule.next own rs h
    h |>.rounds own wanted rs
partial_fixpoint

namespace Schedule

/-- Gives turns to processes that nobody waits for, as long as they do something without time
passing. -/
def remaining (own : List Handle) : Nat → List Running → Host → Host
  | 0, _, h => h
  | limit + 1, rs, h =>
    if rs.isEmpty then h
    else
      let (rs, moved, h) := round own false [] rs h
      if moved then remaining own limit rs h else h

/-- How many turns processes may take that nobody waits for. -/
def remainingLimit : Nat := 10000

/-- Runs processes until those of some numbers have ended. -/
def run (own : List Handle) (wanted : List Nat) (rs : List Running) (h : Host) : Host :=
  let (rs, h) := h.rounds own wanted rs
  { remaining own remainingLimit rs h with held := [] }

end Schedule

end CommandShell
