import CommandShell.Line.Piece
import CommandShell.Pipeline.Stage
import CommandShell.Pipeline.Wiring

/-!
# Running pipelines

The stages of a pipeline run as processes of their own that take turns, each on its own copy of the
shell. What they do to their copies is lost; what they do to the host stays. The pipeline ends when
all have ended, with the status of the last.
-/

namespace CommandShell

open Script

/-- The greatest number of a signal that has a name where stages are waited for. -/
def greatestNamedSignal : Nat := 31

/-- The status of a stage whose process ended. Waiting for the stages of a pipeline makes out only the
signals that have a name; any other counts as a plain failure. -/
def Ending.waitedStatus (e : Ending) : Status :=
  match e with
  | .exited code => code
  | .signalled number => if number ≤ greatestNamedSignal then 128 + number else Status.failed

namespace Pipeline

/-- A process that runs a stage, and then writes what the stage has to write. `sh` is the shell that
the pipeline was started from. What a process reports of a status is its lowest byte. -/
def child (sh : Shell) (registry : Registry) (stage : Stage) (process : Process) : Running :=
  .idle process fun h =>
    match { sh with process := process, host := h }.beginStage registry .replace stage with
    | (.ended status, own) => (.ending process (.exited status.lowByte.toNat), own.host)
    | (.writing emissions error status, own) =>
      (.writer ⟨process, error, emissions, status.lowByte.toNat⟩, own.host)
    | (.running r, own) => (r, own.host)

/-- The processes of stages, with the given parent and descriptors. -/
def children (sh : Shell) (registry : Registry) (driver : Nat) :
    List (Stage × Descriptors) → Host → List Running × Host
  | [], h => ([], h)
  | (stage, d) :: rest, h =>
    let (number, h) := h.newProcess
    let process := { sh.process with number := number, parent := driver, descriptors := d }
    let (others, h) := children sh registry driver rest h
    (child sh registry stage process :: others, h)

/-- The status of a pipeline whose last stage has not ended. -/
def unfinished : Status := 1

/-- A pipeline whose processes were made. -/
structure Started where
  /-- The handles that the driver holds. -/
  own : List Handle
  processes : List Running
  host : Host

/-- Makes the processes of a pipeline. -/
def start (sh : Shell) (registry : Registry) (stages : List Stage) : Started :=
  let (driver, h) := sh.host.newProcess
  let wired := Wired.ofStages sh.process.descriptors h (stages.length - 1)
  let (rs, h) := children sh registry driver (stages.zip wired.children) wired.host
  ⟨wired.driver.handles, rs, h⟩

/-- What a pipeline comes to once the processes of its stages have ended, by their numbers: it has
the status of the last one, and the shell is as it was, but for its host. -/
def collect (sh : Shell) (numbers : List Nat) (h : Host) : Status × Shell :=
  let last := (numbers.getLast?).bind fun n => h.endings.lookup n
  let h := numbers.foldl (fun h n => (Host.takeEnding h n).2) h
  ((last.map Ending.waitedStatus).getD unfinished, { sh with host := h })

/-- Runs a pipeline and leaves the shell as it was. -/
def run (sh : Shell) (registry : Registry) (stages : List Stage) : Status × Shell :=
  let started := start sh registry stages
  let numbers := started.processes.map fun r => r.process.number
  collect sh numbers (Schedule.run started.own numbers started.processes started.host)

end Pipeline

namespace Shell

/-- Runs the stages of a line: none do nothing, one runs in the shell itself, more make a
pipeline. -/
def run (sh : Shell) (registry : Registry) : List Stage → Status × Shell
  | [] => (0, sh)
  | [stage] => sh.runStage registry stage
  | stages => Pipeline.run sh registry stages

/-- Reads a line and runs it. -/
def evaluate (sh : Shell) (registry : Registry) (line : String) : Status × Shell :=
  sh.run registry (parse line)

end Shell

end CommandShell
