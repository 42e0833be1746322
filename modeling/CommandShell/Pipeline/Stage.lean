import CommandShell.Builtin.Run
import CommandShell.Program.Schedule

/-!
# Stages

A stage opens the streams that its redirections name and then runs what its first argument stands
for: a builtin, a program, or nothing that could be found. A stage whose redirections fail runs
nothing.
-/

namespace CommandShell

/-- What a command name stands for. -/
inductive Resolution
  | builtin (b : Builtin)
  /-- A program, by the path of its file. -/
  | program (path : String)
  | unknown

/-- What has come of a stage. -/
inductive Progress
  | ended (status : Status)
  /-- Texts are still to be written. `error` is where a failure is told. -/
  | writing (emissions : List Emission) (error : Option Handle) (status : Status)
  /-- A program runs. -/
  | running (r : Running)

/-- The status of a stage whose streams cannot be opened. -/
def Status.failed : Status := 1

/-- The status of a stage whose program is not found. -/
def Status.notFound : Status := 127

/-- The status of a stage whose program cannot be started. -/
def Status.cannotStart : Status := 126

/-- The name of a manner of starting programs. -/
def Program.Manner.name : Program.Manner → String
  | spawn => "Spawn"
  | replace => "Replace"

/-- The notices of stages. -/
def Notice.ofStages (level : Level) (message : String) (fields : List (String × String)) : Notice :=
  ⟨"tinysh::executor", level, message, fields⟩

/-- The notice that the program of a stage is started. -/
def Notice.starting (stage : Stage) (path : String) (manner : Program.Manner) : Notice :=
  .ofStages .debug "starting external command"
    [("program", quoted stage.program), ("path", path), ("launch", manner.name)]

namespace Shell

/-- What a command name stands for: builtins come first. -/
def resolve (sh : Shell) (registry : Registry) (name : String) : Resolution :=
  match registry.lookup name with
  | some b => .builtin b
  | none =>
    match sh.locate name with
    | some path => .program path
    | none => .unknown

/-- The variables that programs inherit from a shell. -/
def inherited (sh : Shell) : List (Script.Raw × Script.Raw) :=
  sh.host.exported.map fun v => (Script.Raw.ofText v.1, Script.Raw.ofText v.2)

/-- The process of the program of a stage: a new one, or that of the stage itself. -/
def programProcess (sh : Shell) (manner : Program.Manner) (streams : Streams) : Process × Host :=
  let (number, host) := match manner with
    | .spawn => sh.host.newProcess
    | .replace => (sh.process.number, sh.host)
  ({ sh.process with
    number := number
    parent := if manner = .spawn then sh.process.number else sh.process.parent
    descriptors := streams.descriptors sh.process.descriptors }, host)

/-- The program of a stage under way, unless it cannot be started. -/
def launch (sh : Shell) (manner : Program.Manner) (stage : Stage) (streams : Streams)
    (path : String) : Except Fault (Running × Host) :=
  let (inner, host) := sh.programProcess manner streams
  if stage.arguments.any Text.hasNul then .error .nulInArgument
  else
    let arguments := stage.arguments.map Script.Raw.ofText
    Program.start manner host inner path arguments sh.inherited

/-- Starts the program of a stage. A program that cannot be started is reported on the standard
error of the process that was to run it, which is that of the stage if the program was to take the
place of the stage's process. -/
def startProgram (sh : Shell) (manner : Program.Manner) (stage : Stage) (streams : Streams)
    (path : String) : Progress × Shell :=
  let sh := sh.tell (.starting stage path manner)
  match sh.launch manner stage streams path with
  | .ok (r, host) => (.running r, { sh with host := host })
  | .error e =>
    let reporting := match manner with
      | .spawn => sh.process
      | .replace =>
        if e = Fault.nulInArgument then sh.process else (sh.programProcess manner streams).1
    let host := reporting.complain sh.host (stage.program ++ ": " ++ e.brief)
    (.ended .cannotStart, { sh with host := host })

/-- Runs what a stage stands for on streams that are open. -/
def runResolved (sh : Shell) (registry : Registry) (manner : Program.Manner) (stage : Stage)
    (streams : Streams) : Progress × Shell :=
  match sh.resolve registry stage.program with
  | .builtin b =>
    let sh := sh.tell (.ofStages .trace "running builtin"
      [("program", Notice.quoted stage.program)])
    let a := b.answer registry stage.arguments streams sh
    let error := streams.errorHandle a.shell.process
    (.writing a.emissions error (a.status.getD 0), a.shell)
  | .program path => sh.startProgram manner stage streams path
  | .unknown =>
    let text := stage.program ++ ": command not found\n"
    let emission := Builtin.emission sh streams none .ignore (.output, text)
    (.writing [emission] none .notFound, sh)

/-- Begins a stage: all of it, except for what it writes and for a program. -/
def beginStage (sh : Shell) (registry : Registry) (manner : Program.Manner) (stage : Stage) :
    Progress × Shell :=
  let (streams, host) := Streams.ofRedirections sh.process sh.host stage.redirections
  let sh := { sh with host := host }
  if streams.valid then sh.runResolved registry manner stage streams else (.ended .failed, sh)

/-- Waits for a program to end. -/
def finish (sh : Shell) (r : Running) : Option Ending × Shell :=
  let number := r.process.number
  let host := Schedule.run sh.process.descriptors.handles [number] [r] sh.host
  let (ending, host) := host.takeEnding number
  (ending, { sh with host := host })

/-- Runs a stage that is alone on its line. -/
def runStage (sh : Shell) (registry : Registry) (stage : Stage) : Status × Shell :=
  match sh.beginStage registry .spawn stage with
  | (.ended status, sh) => (status, sh)
  | (.writing emissions error status, sh) =>
    let (written, host) := Emission.writeAll sh.process error emissions sh.host
    (if written then status else .failed, { sh with host := host })
  | (.running r, sh) =>
    let (ending, sh) := sh.finish r
    ((ending.map Ending.code).getD Status.failed.toNat, sh)

end Shell

end CommandShell
