import CommandShell.Script.Offspring
import CommandShell.Script.Source

/-!
# Steps of scripts

A step takes the first frame of a machine off and does what it says. What it leads to is a turn: the
machine goes on, has to wait, makes a process, or ends.
-/

namespace CommandShell.Script.Machine

/-- The machine goes on. -/
def goOn (m : Machine) (h : Host) : Turn := .goOn (.script m) h

/-- The machine gives up what it is doing. -/
def raise (m : Machine) (h : Host) (q : Quitting) : Turn :=
  let m := if q = .failure then m.withStatus 2 else m
  goOn (unwind q m.frames m) h

/-- The machine gives up with a message. -/
def abort (m : Machine) (h : Host) (message : Raw) : Turn :=
  m.raise (m.complain h message) .failure

/-- Does what a command of the language leads to. -/
def act (outcome : Outcome) : Turn :=
  match outcome with
  | .done m h [] status => goOn (m.withStatus status) h
  | .done m h text status => goOn (m.push (.write text status)) h
  | .failed m h [] message => m.abort h message
  | .failed m h text message => goOn (m.push (.writeFailing text)) (m.complain h message)
  | .goesOn m h => goOn m h
  | .quits m h q => m.raise h q
  | .becomes m h arguments =>
    match m.become h arguments false 0 with
    | .ok (r, h) => .goOn r h
    | .error (status, h) => (m.withStatus status).raise h .finish

/-! ## Output -/

/-- Goes on after a text could not be written. -/
def unwritten (m : Machine) (h : Host) (status : Option Nat) : Turn :=
  match status with
  | none => m.raise h .failure
  | some status =>
    let h := m.complain h (m.command.getD [] ++ ": I/O error".toList)
    goOn (m.withStatus (status ||| 1)) h

/-- Writes the output of a command of the language, and goes on with a status or else fails. -/
def writeOutput (m : Machine) (h : Host) (text : Raw) (status : Option Nat) : Turn :=
  match m.process.descriptors.get? 1 with
  | none => m.unwritten h status
  | some handle =>
    let bytes := Raw.toBytes text
    match h.send handle bytes with
    | .error .brokenPipe =>
      match m.receive Signal.pipe with
      | none => .ended (.signalled Signal.pipe) h
      | some m => m.unwritten h status
    | .error _ => m.unwritten h status
    | .ok (h, []) =>
      match status with
      | some status => goOn (m.withStatus status) h
      | none => m.raise h .failure
    | .ok (h, rest) =>
      if rest.length = bytes.length then .waits
      else
        let text := Raw.ofBytes rest
        goOn (m.push (match status with
          | some status => .write text status
          | none => .writeFailing text)) h

/-! ## Expansion -/

/-- Expands a word. A command whose output stands in it is run first, by a process of its own. -/
def expandWord (m : Machine) (h : Host) (purpose : Purpose) (w : Word) (outputs : List Raw) :
    Turn :=
  match Expansion.expand purpose m.scope outputs w with
  | .ok e =>
    let fields := e.texts purpose h.files m.process.directory
    goOn { m.withScope e.scope with fields := fields } h
  | .error (.failed (.message text)) => m.abort h text
  | .error (.failed (.signal n)) => .ended (.signalled n) h
  | .error (.wants c s) =>
    let (_, m) := m.claimJob
    let (id, h) := h.newPipe
    let (reader, d) := m.process.descriptors.add (.pipeReader id)
    let (writer, d) := d.add (.pipeWriter id)
    let (child, number, h) := ((m.withDescriptors d).withScope s).fork h
    let own := child.process.descriptors.close reader
    let own := if writer = 1 then own else (own.duplicate writer 1).close writer
    let child := (child.withDescriptors own).push (.run c false true)
    let m := (m.withDescriptors (d.close writer)).pushAll
      [.collect (some reader) number [], .expandOn purpose w outputs]
    .forks (.script m) (.script child) h

/-- Reads what a process writes to a pipe, and waits for its end. -/
def collect (m : Machine) (h : Host) (descriptor : Option Nat) (process : Nat)
    (pieces : List Raw) : Turn :=
  match descriptor with
  | some n =>
    let closed : Turn := goOn
      ((m.withDescriptors (m.process.descriptors.close n)).push (.collect none process pieces)) h
    match m.process.descriptors.get? n with
    | none => closed
    | some handle =>
      match h.read handle blockLength with
      | (.waits, _) => .waits
      | (.bytes [], _) => closed
      | (.bytes bytes, h) =>
        goOn (m.push (.collect descriptor process (Raw.ofBytes bytes :: pieces))) h
  | none =>
    match h.takeEnding process with
    | (none, _) => .waits
    | (some e, h) =>
      let (m, h) := m.updateJobs h
      let h := m.reportEndings h [e]
      goOn { m with outputStatus := e.code, fields := [pieces.reverse.flatten] } h

/-- Waits for processes that were started together, and takes the status of the last. -/
def await (m : Machine) (h : Host) (processes : List (Nat × Option Ending)) : Turn :=
  let (j, endings, h) := Job.update ⟨0, processes, false⟩ h
  let h := m.reportEndings h endings
  let (m, h) := m.updateJobs h
  if j.isDone then goOn (m.withStatus j.status) h
  else if endings.isEmpty then .waits
  else goOn (m.push (.await j.processes)) h

/-! ## Processes -/

/-- Remembers where the program of a command is, before a process is made for the command. -/
def findAhead (m : Machine) (h : Host) : Command → Machine
  | .simple _ _ (w :: _) _ =>
    match Word.plain? w with
    | some name => if isName name then (m.meaning h name false false).2 else m
    | none => m
  | _ => m

/-- Makes a process for commands, and waits for it unless it is in the background. -/
def runApart (m : Machine) (h : Host) (background : Bool) (frames : List Frame) : Turn :=
  let (_, m) := m.claimJob
  let (child, number, h) := m.fork h
  let (child, h) := if background then child.detached h true else (child, h)
  let child := child.pushAll frames
  let m := if background then (m.addJob [number]).withStatus 0
    else m.push (.await [(number, none)])
  .forks (.script m) (.script child) h

/-- Makes a process for the next command of a pipeline. -/
def runStage (m : Machine) (h : Host) (left : List Command) (previous : Option Nat)
    (made : List Nat) (background tested : Bool) : Turn :=
  match left with
  | [] =>
    if background then goOn ((m.addJob made).withStatus 0) h
    else if made.isEmpty then goOn (m.withStatus 0) h
    else
      let (_, m) := m.claimJob
      goOn (m.push (.await (made.map fun n => (n, none)))) h
  | c :: rest =>
    let m := m.findAhead h c
    let (ends, d, h) : Option (Nat × Nat) × Descriptors × Host :=
      if rest.isEmpty then (none, m.process.descriptors, h)
      else
        let (id, h) := h.newPipe
        let (reader, d) := m.process.descriptors.add (.pipeReader id)
        let (writer, d) := d.add (.pipeWriter id)
        (some (reader, writer), d, h)
    let (child, number, h) := (m.withDescriptors d).fork h
    let (child, h) := if background then child.detached h made.isEmpty else (child, h)
    let own := child.process.descriptors
    let own := match ends with
      | some (reader, _) => own.close reader
      | none => own
    let own := match previous with
      | some n => if n = 0 then own else (own.duplicate n 0).close n
      | none => own
    let own := match ends with
      | some (_, writer) => if writer ≤ 1 then own else (own.duplicate writer 1).close writer
      | none => own
    let child := (child.withDescriptors own).push (.run c tested true)
    let d := match previous with
      | some n => d.close n
      | none => d
    let d := match ends with
      | some (_, writer) => d.close writer
      | none => d
    let next : Frame :=
      .stages rest (ends.map Prod.fst) (made ++ [number]) background tested
    .forks (.script ((m.withDescriptors d).push next)) (.script child) h

/-! ## Redirections -/

/-- Makes redirections for what the next frame is for. -/
def routed (m : Machine) (h : Host) (done : List Rerouting) : Turn :=
  let start (special stays : Bool) (body : Frame) (rest : List Frame) : Turn :=
    let frames := if done.isEmpty then body :: rest
      else .redirect done [] special stays :: body :: rest
    goOn { m with frames := frames } h
  match m.frames with
  | .redirected p assignments :: rest => start p.special p.stays (.assign p assignments []) rest
  | .redirectedBody body tested :: rest => start false false (.run body tested false) rest
  | .subshellBody body background tested last :: rest =>
    let frames (tested : Bool) : List Frame :=
      let run := [.run body tested true]
      if done.isEmpty then run else .redirect done [] true true :: run
    if !background && last && !m.hasTraps then
      goOn { m with frames := frames tested ++ rest, jobs := [], outerLoops := m.loopDepth } h
    else { m with frames := rest }.runApart h background (frames (tested && !background))
  | _ => goOn m h

/-- Expands the words of the redirections that are left. -/
def route (m : Machine) (h : Host) (left : List Redirect) (done : List Rerouting) : Turn :=
  match left with
  | [] => m.routed h done
  | .file n opening path :: left =>
    goOn (m.pushAll [.expand .text path [], .routePath n opening left done]) h
  | .same n other :: left => goOn (m.push (.routes left (done ++ [.same n other]))) h
  | .named n other :: left =>
    goOn (m.pushAll [.expand .text other [], .routeName n left done]) h
  | .document n number :: left =>
    goOn (m.push (.routes left (done ++ [.document n number]))) h

/-- Goes on behind a redirection that cannot be made. -/
def unrouted (m : Machine) (h : Host) (message : Raw) (saved : Saved) (special : Bool) : Turn :=
  let h := m.complain h message
  let m := m.undo saved false
  if special then m.raise h .failure
  else goOn { m.withStatus 2 with frames := m.frames.drop 1 } h

/-- Makes the redirections that are left. -/
def makeRoutes (m : Machine) (h : Host) (left : List Rerouting) (saved : Saved)
    (special stays : Bool) : Turn :=
  match left with
  | [] =>
    match stays, m.frames with
    | true, .run .. :: _ => goOn (m.undo saved true) h
    | _, body :: rest => goOn { m with frames := body :: .putBack saved stays :: rest } h
    | _, [] => goOn (m.undo saved stays) h
  | .document n number :: left =>
    let w := (m.documents.lookup number).getD []
    goOn (m.pushAll [.expand .document w [], .document n left saved special stays]) h
  | r :: left =>
    match m.reroute h saved r with
    | (.error message, m, saved) => m.unrouted h message saved special
    | (.ok h, m, saved) => goOn (m.push (.redirect left saved special stays)) h

/-! ## Simple commands -/

/-- Goes on with the words of a command. -/
def prepare (m : Machine) (h : Host) (p : Preparing) : Turn :=
  let p := { p with fields := p.fields ++ m.fields }
  let m := { m with fields := [] }
  let complete := p.words.isEmpty
  let known := if p.fields.isEmpty && !complete then none
    else m.heading complete (p.fields.length + 1) ⟨p.fields, false, false, none, false, false⟩
  match known, p.words with
  | some d, [] =>
    let special := d.special.getD false
    let keeps := !special && !p.fields.isEmpty
    let stays : Bool := d.builtin && d.arguments.head? = some "exec".toList
    let prepared : Prepared :=
      { shown := p.fields
        arguments := d.arguments
        noFunction := d.noFunction
        usualPath := d.usualPath
        special := special
        keeps := keeps
        stays := stays
        tested := p.tested
        last := p.last }
    let m := if keeps then (m.withScope m.scope.keep).push .forget else m
    goOn (m.pushAll [.routes p.redirects [], .redirected prepared p.assignments]) h
  | _, [] => goOn m h
  | known, w :: rest =>
    let assigns := (known.map Heading.assigns).getD false
    let purpose : Purpose := if assigns && w.isAssignment then .assignment else .fields
    goOn (m.pushAll [.expand purpose w [], .words { p with words := rest }]) h

/-- The descriptor that a trace is written to: standard error as it was before redirections. -/
def traceHandle? (m : Machine) : Option Handle :=
  let d := m.process.descriptors
  match m.frames with
  | .putBack saved _ :: _ =>
    match saved.lookup 2 with
    | some (some place) => d.get? place
    | some none => none
    | none => d.get? 2
  | _ => d.get? 2

/-- The text in front of commands that are shown, as a word. -/
def traceStart (m : Machine) : Word :=
  let text := (m.scope.value? "PS4".toList).getD []
  let r := Reader.ofText text 1 0 []
  let (c, r) := r.take
  let document : Awaited := ⟨0, ['\x00'], false, false⟩
  let inner : ReadInner := Reader.readList r.depthFuel false true none
  let read := do
    let (d, _) ← Draft.read (some document) inner r.wordFuel (.line (Draft.ofReader r .double) c)
    d.finish true
  read.toOption.getD []

/-- Goes on with a command whose assignments are made. -/
def assigned (m : Machine) (h : Host) (p : Prepared) (shown : List Raw) : Turn :=
  if m.scope.has "xtrace" && !m.tracing then
    goOn ({ m with tracing := true }.pushAll
      [.expand .document m.traceStart [], .trace p shown]) h
  else goOn (m.push (.launch p)) h

/-- Shows a command. -/
def trace (m : Machine) (h : Host) (p : Prepared) (shown : List Raw) : Turn :=
  let text := m.fields.flatten ++ List.intercalate [' '] (shown ++ p.shown) ++ ['\n']
  let h := match m.traceHandle? with
    | some handle => h.tryWrite handle (Raw.toBytes text)
    | none => h
  goOn ({ m with tracing := false }.push (.launch p)) h

/-- Makes an assignment whose text was expanded. -/
def assignOne (m : Machine) (h : Host) (p : Prepared) (left : List Word) (shown : List Raw) :
    Turn :=
  let text := m.fields.flatten
  let (name, value) := Scope.nameAndValue text
  let value := value.getD []
  let exports := p.stays && 1 < p.arguments.length
  let result := if p.keeps then m.scope.assignLocal name (some value) true
    else (m.scope.assign name value).map fun s =>
      if exports then s.mark name fun v => { v with exported := true } else s
  match result with
  | .error message => m.abort h message
  | .ok s => goOn ((m.withScope s).push (.assign p left (shown ++ [text]))) h

/-- How many functions may be run within each other. -/
def greatestDepth : Nat := 1000

/-- Calls a function. -/
def call (m : Machine) (h : Host) (body : Command) (arguments : List Raw) (tested : Bool) : Turn :=
  if greatestDepth ≤ m.calls then
    m.abort h ("Maximum function recursion depth (".toList ++ Raw.ofInt greatestDepth ++
      ") reached".toList)
  else
    let s := m.scope
    let inner := { m with
      scope := { s with parameters := arguments.drop 1, optionPlace := (1, 0) }
      calls := m.calls + 1 }
    goOn (inner.pushAll [.run body tested false, .endFunction s.parameters s.optionPlace]) h

/-- Runs a program, in a process of its own unless nothing follows it. -/
def runProgram (m : Machine) (h : Host) (p : Prepared) (place : Nat) : Turn :=
  if p.last && !m.hasTraps then
    match m.become h p.arguments p.usualPath place with
    | .ok (r, h) => .goOn r h
    | .error (status, h) => (m.withStatus status).raise h .finish
  else
    let (_, m) := m.claimJob
    let (child, number, h) := m.fork h
    let parent : Running := .script (m.push (.await [(number, none)]))
    match child.become h p.arguments p.usualPath place with
    | .ok (r, h) => .forks parent r h
    | .error (status, h) => .forks parent (.ending child.process (.exited status)) h

/-- Runs a command whose words, redirections and assignments are done with. -/
def launch (m : Machine) (h : Host) (p : Prepared) : Turn :=
  match p.arguments with
  | [] => goOn (m.withStatus m.outputStatus) h
  | name :: arguments =>
    match m.meaning h name p.noFunction p.usualPath with
    | (.builtin, m) =>
      let m := { m.push (.endBuiltin m.command p.special) with command := some name }
      act (m.runNamed h p.tested name arguments)
    | (.function body, m) => m.call h body p.arguments p.tested
    | (.program place, m) => m.runProgram h p place
    | (.path, m) => m.runProgram h p 0
    | (.unknown e, m) =>
      goOn (m.withStatus 127) (m.complain h (name ++ ": ".toList ++ faultText "not found" e))

/-! ## Compound commands -/

/-- What becomes of a loop by what commands are passed over for. -/
inductive LoopFate
  | goesOn
  /-- The rest of the body is passed over. -/
  | restarts
  | ends
  /-- It ends with the function, whose status may be given. -/
  | returns (given : Bool)
  deriving DecidableEq

/-- What becomes of a loop. -/
def loopFate (m : Machine) : LoopFate × Machine :=
  match m.skip with
  | none => (.goesOn, m)
  | some (.leave n) =>
    (.ends, { m with skip := if n ≤ 1 then none else some (.leave (n - 1)) })
  | some (.again n) =>
    if n ≤ 1 then (.restarts, { m with skip := none })
    else (.ends, { m with skip := some (.again (n - 1)) })
  | some (.back given) => (.returns given, m)

/-- Starts a loop, or starts it again. `status` is that of its body. -/
def startLoop (m : Machine) (h : Host) (l : Loop) (status : Nat) : Turn :=
  goOn (m.pushAll [.run l.condition true false, .decide l status]) h

/-- Goes on behind the condition of a loop. -/
def decideLoop (m : Machine) (h : Host) (l : Loop) (status : Nat) : Turn :=
  match m.loopFate with
  | (.goesOn, m) =>
    if (m.scope.status = 0) = !l.negated then
      goOn (m.pushAll [.run l.body l.tested false, .repeated l]) h
    else goOn (m.withStatus status) h
  | (.restarts, m) => m.startLoop h l status
  | (.ends, m) => goOn (m.withStatus status) h
  | (.returns given, m) => goOn (if given then m else m.withStatus status) h

/-- Goes on behind the body of a loop. -/
def repeatLoop (m : Machine) (h : Host) (l : Loop) : Turn :=
  match m.loopFate with
  | (.goesOn, m) | (.restarts, m) => m.startLoop h l m.scope.status
  | (_, m) => goOn m h

/-- Runs the body of a loop for the next value. -/
def eachNext (m : Machine) (h : Host) (name : Raw) (values : List Raw) (body : Command)
    (tested : Bool) : Turn :=
  match values with
  | [] => goOn m h
  | value :: values =>
    match m.scope.assignNamed name value with
    | .error message => m.abort h message
    | .ok s =>
      goOn ((m.withScope s).pushAll
        [.run body tested false, .eachValue name values body tested true]) h

/-- Looks for the next pattern of clauses. -/
def selectNext (m : Machine) (h : Host) (text : Raw) (clauses : List Clause) (tested last : Bool) :
    Turn :=
  match clauses with
  | [] => goOn (m.withStatus 0) h
  | .mk [] _ :: clauses => selectNext m h text clauses tested last
  | .mk (w :: patterns) body :: clauses =>
    goOn (m.pushAll [.expand .pattern w [], .fit text patterns body clauses tested last]) h

/-- Goes on behind a pattern that was expanded. -/
def fitPattern (m : Machine) (h : Host) (text : Raw) (patterns : List Word)
    (body : Option Command) (clauses : List Clause) (tested last : Bool) : Turn :=
  if Pattern.fits m.fields.flatten text then
    match body with
    | some c => goOn (m.push (.run c tested last)) h
    | none => goOn (m.withStatus 0) h
  else m.selectNext h text (.mk patterns body :: clauses) tested last

/-- Starts a command. -/
def startCommand (m : Machine) (h : Host) (c : Command) (tested last : Bool) : Turn :=
  let checked := !tested
  match c with
  | .simple line assignments words redirects =>
    let m := { m with line := line, outputStatus := 0, fields := [] }
    goOn (m.pushAll
      [.words ⟨line, [], words, assignments, redirects, tested, last⟩, .settle checked last]) h
  | .pipeline commands background =>
    goOn (m.pushAll [.stages commands none [] background tested, .settle checked last]) h
  | .subshell line body redirects background =>
    goOn ({ m with line := line }.pushAll
      [.routes redirects [], .subshellBody body background tested last, .settle checked last]) h
  | .redirected line body redirects =>
    goOn ({ m with line := line }.pushAll
      [.routes redirects [], .redirectedBody body tested, .settle false last]) h
  | .sequence a b =>
    goOn (m.pushAll [.run a tested false, .follow none b tested last, .settle false last]) h
  | .both a b =>
    goOn (m.pushAll [.run a true false, .follow (some true) b tested last, .settle false last]) h
  | .either a b =>
    goOn (m.pushAll [.run a true false, .follow (some false) b tested last, .settle false last]) h
  | .negate a => goOn (m.pushAll [.run a true false, .negate, .settle false last]) h
  | .choice condition consequent alternative =>
    goOn (m.pushAll
      [.run condition true false, .choose consequent alternative tested last,
        .settle false last]) h
  | .loop negated condition body =>
    (m.push (.settle false last)).startLoop h ⟨negated, condition, body, tested⟩ 0
  | .each line name words body =>
    goOn ({ m with line := line, fields := [] }.pushAll
      [.each name words [] body tested, .settle false last]) h
  | .select line w clauses =>
    goOn ({ m with line := line }.pushAll
      [.expand .text w [], .select clauses tested last, .settle false last]) h
  | .define _ name body =>
    let m := { m with functions := Table.set name body m.functions }
    goOn ((m.withStatus 0).push (.settle false last)) h

/-- Runs a command, behind what is to be done about signals. -/
def runOrReact (m : Machine) (h : Host) (c : Command) (tested last : Bool) : Turn :=
  match (m.push (.run c tested last)).startReaction with
  | some m => goOn m h
  | none =>
    if m.scope.has "noexec" then goOn (m.push (.settle false last)) h
    else m.startCommand h c tested last

/-- Ends a command, behind what is to be done about signals. -/
def settle (m : Machine) (h : Host) (checked last : Bool) : Turn :=
  match (m.push (.settle checked last)).startReaction with
  | some m => goOn m h
  | none =>
    if checked && m.scope.has "errexit" && m.scope.status ≠ 0 then m.raise h .finish
    else if last then m.raise h .finish
    else goOn m h

/-! ## Texts of commands -/

/-- Ends a text of commands. -/
def finishSource (m : Machine) (h : Host) (s : Source) : Turn :=
  match s.role with
  | .script =>
    let interactive : Bool := m.scope.has "interactive"
    let h := if interactive then m.report (m.showTaken h s []) ['\n'] else h
    goOn (m.closeSource s) h
  | .line | .reaction => goOn m h
  | .argument | .file => goOn ((m.closeSource s).withStatus s.status) h

/-- Goes on with a text of commands. -/
def runSource (m : Machine) (h : Host) (s : Source) : Turn :=
  let s := if s.ran then { s with status := m.scope.status, ran := false } else s
  if m.skip.isSome then
    let goneBack : Bool := match m.skip with
      | some (.back _) => s.role = .script || s.role = .file
      | _ => false
    let m := if goneBack then { m with skip := none } else m
    m.closeSource s |>.withStatus s.status |> fun m => goOn m h
  else
    match m.advance h s with
    | .waits => .waits
    | .more s h => goOn (m.push (.commands s)) h
    | .finished => m.finishSource h s
    | .fault f taken =>
      { m with line := f.line }.abort (m.showTaken h s taken) f.reason.toList
    | .line none _ s m taken => goOn (m.push (.commands s)) (m.showTaken h s taken)
    | .line (some c) final s m taken =>
      let last : Bool := final && s.role = .line
      let frames := [.run c s.tested last, .commands { s with ran := true }]
      goOn (m.pushAll frames) (m.showTaken h s taken)

/-! ## All frames -/

/-- Goes on with a frame that was taken off. -/
def stepFrame (m : Machine) (h : Host) (f : Frame) : Turn :=
  let succeeded : Bool := m.scope.status = 0
  match f with
  | .run c tested last => m.runOrReact h c tested last
  | .settle checked last => m.settle h checked last
  | .negate => goOn (m.withStatus (if succeeded then 1 else 0)) h
  | .follow wanted c tested last =>
    if m.skip.isNone && (wanted.all (· = succeeded)) then goOn (m.push (.run c tested last)) h
    else goOn m h
  | .choose consequent alternative tested last =>
    if m.skip.isSome then goOn m h
    else if succeeded then goOn (m.push (.run consequent tested last)) h
    else
      match alternative with
      | some c => goOn (m.push (.run c tested last)) h
      | none => goOn (m.withStatus 0) h
  | .decide l status => m.decideLoop h l status
  | .repeated l => m.repeatLoop h l
  | .each name words values body tested =>
    let values := values ++ m.fields
    let m := { m with fields := [] }
    match words with
    | w :: rest => goOn (m.pushAll [.expand .fields w [], .each name rest values body tested]) h
    | [] => goOn ((m.withStatus 0).push (.eachValue name values body tested false)) h
  | .eachValue name values body tested running =>
    if !running then m.eachNext h name values body tested
    else
      match m.loopFate with
      | (.goesOn, m) | (.restarts, m) => m.eachNext h name values body tested
      | (_, m) => goOn m h
  | .select clauses tested last => m.selectNext h m.fields.flatten clauses tested last
  | .fit text patterns body clauses tested last =>
    m.fitPattern h text patterns body clauses tested last
  | .expand purpose w outputs => m.expandWord h purpose w outputs
  | .expandOn purpose w outputs => m.expandWord h purpose w (outputs ++ m.fields.take 1)
  | .collect descriptor process pieces => m.collect h descriptor process pieces
  | .words p => m.prepare h p
  | .routes left done => m.route h left done
  | .routePath n opening left done =>
    goOn (m.push (.routes left (done ++ [.file n opening m.fields.flatten]))) h
  | .routeName n left done =>
    match namedDescriptor? m.fields.flatten with
    | some other => goOn (m.push (.routes left (done ++ [.same n other]))) h
    | none => { m with line := m.sourceLine }.abort h "Syntax error: Bad fd number".toList
  | .redirect left saved special stays => m.makeRoutes h left saved special stays
  | .document n left saved special stays =>
    let (handle, h) := h.document (Raw.toBytes m.fields.flatten)
    let (m, saved) := m.install saved n handle
    goOn (m.push (.redirect left saved special stays)) h
  | .putBack saved stays => goOn (m.undo saved stays) h
  | .redirected .. | .redirectedBody .. | .subshellBody .. => goOn m h
  | .stages left previous made background tested =>
    m.runStage h left previous made background tested
  | .assign p [] shown => m.assigned h p shown
  | .assign p (w :: left) shown =>
    goOn (m.pushAll [.expand .assignment w [], .assigned p left shown]) h
  | .assigned p left shown => m.assignOne h p left shown
  | .trace p shown => m.trace h p shown
  | .launch p => m.launch h p
  | .forget => goOn (m.withScope m.scope.restore) h
  | .endFunction parameters place =>
    let back : Bool := match m.skip with
      | some (.back _) => true
      | _ => false
    let m := if back then { m with skip := none } else m
    goOn (m.leaveFunction parameters place) h
  | .endBuiltin before _ => goOn { m with command := before } h
  | .write text status => m.writeOutput h text (some status)
  | .writeFailing text => m.writeOutput h text none
  | .await processes => m.await h processes
  | .awaitJobs named status => (m.awaitJobs h named status).elim .waits act
  | .readLine e => (m.readEntry h e).elim .waits act
  | .commands s => m.runSource h s
  | .endReaction status before =>
    let m := if m.skip = some (.back true) then m else m.withStatus status
    goOn { m with savedStatus := before } h
  | .endScript => goOn (m.withStatus (m.savedStatus.getD m.scope.status)) h
  | .openScript path name =>
    let opening := { m with scope := { m.scope with name := name } }
    match opening.openCommands h path .script with
    | .error message => opening.abort h message
    | .ok (opened, h) => goOn { opened with scope := m.scope } h
  | .giveUp message => m.abort h message
  | .listOptions =>
    let all := optionTable.map Prod.fst
    goOn (m.push (.write { m.scope with options := all }.optionListing 0)) h
  | .noTerminal =>
    let (m, h) := m.withoutMonitor h
    goOn m h

/-- Ends the script, behind what is to be done at its end. -/
def finish (m : Machine) (h : Host) : Turn :=
  let status := m.scope.status
  match if m.atEnd then none else m.traps.lookup 0 with
  | some action =>
    let ending := { m with
      traps := m.traps.filter (·.1 ≠ 0)
      atEnd := true
      skip := none
      savedStatus := some status }
    goOn (ending.pushAll [.commands (.ofText action .reaction false), .endScript]) h
  | none => .ended (.exited (status % 256)) h

/-- Takes the first frame off and does what it says. -/
def step (m : Machine) (h : Host) : Turn :=
  match m.frames with
  | [] => m.finish h
  | f :: frames => { m with frames := frames }.stepFrame h f

end CommandShell.Script.Machine
