import CommandShell.Script.Outcome

/-!
# Jobs

The processes that a script has started in the background. A job keeps its number until it has ended
and was waited for or shown.
-/

namespace CommandShell.Script

namespace Job

/-- The status of a job that is done: that of its last process. -/
def status (j : Job) : Nat := (((j.processes.getLast?).bind Prod.snd).map Ending.code).getD 0

/-- Whether the number of a job may be given to another. -/
def isSpent (j : Job) : Bool := j.isDone && j.waited

/-- Takes the endings of a job's processes from the host, and gives those that were not known. -/
def update (j : Job) (h : Host) : Job × List Ending × Host :=
  let (processes, fresh, h) := j.processes.foldl
    (fun (done, fresh, h) p =>
      match p.2 with
      | some _ => (done ++ [p], fresh, h)
      | none =>
        match Host.takeEnding h p.1 with
        | (none, h) => (done ++ [p], fresh, h)
        | (some e, h) => (done ++ [(p.1, some e)], fresh ++ [e], h))
    (([] : List (Nat × Option Ending)), ([] : List Ending), h)
  ({ j with processes := processes }, fresh, h)

/-- How a job that is done has ended, as it is shown. -/
def ending (j : Job) : Raw :=
  match (j.processes.getLast?).bind Prod.snd with
  | some (.signalled n) => (Signal.description n).toList
  | some (.exited n) => if n = 0 then "Done".toList else "Done(".toList ++ Raw.ofInt n ++ [')']
  | none => "Running".toList

/-- The width of what stands in front of the commands of a job. -/
def column : Nat := 33

/-- Lets blanks follow a text up to the column, at least one. -/
def padded (text : Raw) : Raw := text ++ List.replicate ((column - text.length).max 1) ' '

/-- The lines that show a job; `mark` tells its place among the others, and `numbers` says that the
processes are told. -/
def lines (j : Job) (mark : Char) (numbers : Bool) : Raw :=
  let state := if j.isDone then j.ending else "Running".toList
  let start := ['['] ++ Raw.ofInt j.number ++ "] ".toList ++ [mark, ' ']
  match j.processes with
  | [] => []
  | (first, _) :: rest =>
    if numbers then
      let others := rest.flatMap fun p =>
        let text := List.replicate start.length ' ' ++ Raw.ofInt p.1 ++ [' ']
        " |\n".toList ++ padded text
      padded (start ++ Raw.ofInt first ++ [' '] ++ state) ++ others ++ ['\n']
    else padded (start ++ state) ++ rest.flatMap (fun _ => " | ".toList) ++ ['\n']

end Job

namespace Machine

/-- The lowest number that a job may have, and the machine without the job that had it. -/
def claimJob (m : Machine) : Nat × Machine :=
  let number := (((List.range (m.jobs.length + 1)).map (· + 1)).find? fun n =>
    m.jobs.all fun j => j.number ≠ n || j.isSpent).getD (m.jobs.length + 1)
  (number, { m with jobs := m.jobs.filter (·.number ≠ number) })

/-- Adds a job, which becomes the current one. -/
def addJob (m : Machine) (processes : List Nat) : Machine :=
  let (number, m) := m.claimJob
  { m with
    jobs := ⟨number, processes.map fun p => (p, none), false⟩ :: m.jobs
    scope := { m.scope with background := processes.getLast?.getD m.scope.background } }

/-- Takes the endings of all jobs from the host. -/
def updateJobs (m : Machine) (h : Host) : Machine × Host :=
  let (jobs, h) := m.jobs.foldl
    (fun (jobs, h) j =>
      let (j, _, h) := Job.update j h
      (jobs ++ [j], h))
    (([] : List Job), h)
  ({ m with jobs := jobs }, h)

/-- Changes the job of a number. -/
def changeJob (m : Machine) (number : Nat) (change : Job → Job) : Machine :=
  { m with jobs := m.jobs.map fun j => if j.number = number then change j else j }

/-- Tells how processes ended that were waited for, if it was by a signal that is worth telling. -/
def reportEndings (m : Machine) (h : Host) (endings : List Ending) : Host :=
  endings.foldl
    (fun h e =>
      match e with
      | .signalled n =>
        if n = Signal.interrupt || n = Signal.pipe then h
        else m.report h ((Signal.description n).toList ++ ['\n'])
      | .exited _ => h)
    h

/-! ## Finding jobs -/

/-- The job that a text names, or the current one. -/
def findJob (m : Machine) (name : Option Raw) : Except Raw Job :=
  let place? (place : Nat) (text : String) : Except Raw Job :=
    match m.jobs[place]? with
    | some j => .ok j
    | none => .error text.toList
  let missing (name : Raw) : Except Raw Job := .error ("No such job: ".toList ++ name)
  match name with
  | none => place? 0 "No current job"
  | some name =>
    match name with
    | ['%'] | ['%', '+'] | ['%', '%'] => place? 0 "No current job"
    | ['%', '-'] => place? 1 "No previous job"
    | '%' :: digits =>
      if !digits.isEmpty && digits.all Char.isDigit then
        match m.jobs.find? fun j => some j.number = number? digits with
        | some j => .ok j
        | none => missing name
      else missing name
    | _ => missing name

/-- The job that an argument of `wait` names, if there is one. -/
def findWaited (m : Machine) (name : Raw) : Except Raw (Option Job) :=
  match name with
  | '%' :: _ => (m.findJob (some name)).map some
  | _ => (numberArgument name).map fun n =>
    m.jobs.find? fun j => (j.processes.getLast?).map Prod.fst = some n

/-! ## Commands -/

/-- The mark of a job: plus for the current one, and minus for the one before. -/
def jobMark (m : Machine) (j : Job) : Char :=
  match m.jobs.findIdx (·.number = j.number) with
  | 0 => '+'
  | 1 => '-'
  | _ => ' '

/-- Shows jobs, and forgets those that are done. -/
def showJobs (m : Machine) (jobs : List Job) (how : Option Char) : Raw × Machine :=
  let text := jobs.flatMap fun j =>
    if how = some 'p' then
      (j.processes.head?.map fun p => Raw.ofInt p.1 ++ ['\n']).getD []
    else j.lines (m.jobMark j) (how = some 'l')
  let shown (j : Job) : Bool := how ≠ some 'p' && j.isDone && jobs.any (·.number = j.number)
  (text, { m with jobs := m.jobs.filter fun j => !shown j })

/-- Shows each of the jobs that are named. -/
def showEach (how : Option Char) (h : Host) (output : Raw) (m : Machine) : List Raw → Outcome
  | [] => .done m h output 0
  | name :: rest =>
    match m.findJob (some name) with
    | .error message => .failed m h output message
    | .ok j =>
      let (text, m) := m.showJobs [j] how
      showEach how h (output ++ text) m rest

/-- Shows the jobs, or those that are named. -/
def runJobs (m : Machine) (h : Host) (arguments : List Raw) : Outcome :=
  m.withOptions h [('l', false), ('p', false)] arguments fun given rest =>
    let how := (given.getLast?).map Prod.fst
    let (m, h) := m.updateJobs h
    if rest.isEmpty then
      let (text, m) := m.showJobs m.jobs how
      m.shows h text
    else m.showEach how h [] rest

/-- Refuses to move a job between the background and the foreground, for which it would need a
terminal. -/
def runResume (m : Machine) (h : Host) (arguments : List Raw) : Outcome :=
  m.withOptions h [] arguments fun _ rest =>
    match m.findJob rest.head? with
    | .error message => m.fails h message
    | .ok _ =>
      m.fails h ("job ".toList ++ rest.head?.getD "(null)".toList ++
        " not created under job control".toList)

/-- The status of a wait that a signal has cut short. -/
def cutShort? (m : Machine) : Option Nat := (m.pending.getLast?).map (128 + ·)

/-- Goes on waiting for jobs, all or those that are named; nothing if there is nothing to be done
yet. `status` is that of the last job that was waited for. -/
def awaitJobs (m : Machine) (h : Host) (named : Option (List Raw)) (status : Nat) :
    Option Outcome :=
  match named with
  | none =>
    let (m, h) := m.updateJobs h
    let m := { m with jobs := m.jobs.map fun (j : Job) => { j with waited := j.waited || j.isDone } }
    if m.jobs.all Job.isDone then some (m.done h 0)
    else m.cutShort?.map fun status => m.done h status
  | some [] => some (m.done h status)
  | some (name :: rest) =>
    match m.findWaited name with
    | .error message => some (m.fails h message)
    | .ok none => some (.goesOn (m.push (.awaitJobs (some rest) status)) h)
    | .ok (some j) =>
      let (j, endings, h) := j.update h
      let h := m.reportEndings h endings
      if j.isDone then
        let m := m.changeJob j.number fun _ => { j with waited := true }
        some (.goesOn (m.push (.awaitJobs (some rest) j.status)) h)
      else if endings.isEmpty then m.cutShort?.map fun status => m.done h status
      else
        let m := m.changeJob j.number fun _ => j
        some (.goesOn (m.push (.awaitJobs named status)) h)

/-- Waits for jobs. -/
def runWait (m : Machine) (h : Host) (arguments : List Raw) : Outcome :=
  m.withOptions h [] arguments fun _ rest =>
    let frame : Frame := if rest.isEmpty then .awaitJobs none 0 else .awaitJobs (some rest) 127
    .goesOn (m.push frame) h

end Machine

end CommandShell.Script
