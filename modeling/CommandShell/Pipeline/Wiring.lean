import CommandShell.Process

/-!
# Wiring a pipeline

One process drives a pipeline: it makes the pipes one by one and a child for each stage. A child
starts with a copy of the driver's descriptors, moves its pipe ends to standard input and standard
output, and closes the rest; the driver closes its own copies as soon as the child has them.
-/

namespace CommandShell

/-- The descriptors of a pipeline. -/
structure Wired where
  /-- The descriptors that each child has when its stage begins, in the order of the stages. -/
  children : List Descriptors
  /-- The descriptors that the driver is left with. -/
  driver : Descriptors
  host : Host

namespace Wired

/-- Moves a descriptor to the place of a standard stream. -/
def move (d : Descriptors) (source : Option Nat) (target : Nat) : Descriptors :=
  match source with
  | some n => (d.duplicate n target).close n
  | none => d

/-- Closes a descriptor, if there is one. -/
def closeIf (d : Descriptors) (n : Option Nat) : Descriptors :=
  match n with
  | some n => d.close n
  | none => d

/-- The descriptors of a child that is made from the driver: it takes its input from `input` and
sends its output to `writer`. The read end of its own output pipe is not for it. -/
def child (driver : Descriptors) (input reader writer : Option Nat) : Descriptors :=
  move (move (closeIf driver reader) input 0) writer 1

/-- Makes the pipes and children of the stages that are left. `input` is the driver's descriptor
for the output of the stage before, and `more` is the number of stages after the next. -/
def stages (driver : Descriptors) (input : Option Nat) (h : Host) : Nat → Wired
  | 0 => ⟨[child driver input none none], closeIf driver input, h⟩
  | more + 1 =>
    let (id, h) := h.newPipe
    let (reader, d) := driver.add (.pipeReader id)
    let (writer, d) := d.add (.pipeWriter id)
    let rest := stages (closeIf (d.close writer) input) (some reader) h more
    { rest with children := child d input (some reader) (some writer) :: rest.children }

/-- Makes the pipes and children of a pipeline that has `more` stages behind the first. -/
def ofStages (driver : Descriptors) (h : Host) (more : Nat) : Wired := stages driver none h more

end Wired

end CommandShell
