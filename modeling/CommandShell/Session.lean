import CommandShell.Editor
import CommandShell.Line.Shown
import CommandShell.Pipeline.Run

/-!
# Sessions

A session reads lines through an editor, records them in its history and runs them, until it is told
to leave or the lines end. A history file is read at the start and saved at the end.
-/

namespace CommandShell

/-- A session of the shell. -/
structure Session where
  shell : Shell
  config : Config
  /-- Whether the history file was read, in which case saving replaces what it holds. -/
  historyLoaded : Bool

/-- Where the keys of an editor come from. -/
inductive KeySource
  /-- From a list. -/
  | keys (ks : List Key)
  /-- From standard input, which programs read too. -/
  | standardInput

/-- The two sides of an editor. -/
structure Console where
  source : KeySource
  screen : Screen

namespace Session

instance : Nonempty Session :=
  ⟨⟨⟨⟨[], "/", false⟩, .empty, .initial [], .start .empty [] []⟩, ⟨"", none, false⟩, false⟩⟩

instance : Nonempty Console := ⟨⟨.standardInput, ⟨[], []⟩⟩⟩

/-- A session that starts in a shell. -/
def start (shell : Shell) (config : Config) : Session where
  shell := shell
  config := config
  historyLoaded := false

/-- The builtins of a session, which are always the usual ones. -/
def registry (_ : Session) : Registry := .default

/-- Tells a notice of the session, if it tells such notices. -/
def tell (s : Session) (level : Level) (message : String) (fields : List (String × String)) :
    Session :=
  { s with shell := s.shell.tell ⟨"tinysh::interpreter", level, message, fields⟩ }

/-- Whether the session is about to end. -/
def leaving (s : Session) : Bool := s.shell.environment.leaving

/-- Runs a line, with notices of what was not taken literally in it and of what it comes to. -/
def evaluate (s : Session) (line : String) : Status × Session :=
  let told := (notices line).foldl (fun (sh : Shell) n => sh.tell n.notice) s.shell
  let stages := Notice.listed ((parse line).map Stage.shown)
  let s := { s with shell := told }.tell .debug "parsed line" [("stages", stages)]
  let (status, shell) := s.shell.evaluate s.registry line
  (status, { s with shell := shell }.tell .debug "line finished" [("code", toString status)])

/-! ## The history file -/

/-- Reads the history file, if there is one. -/
def loadHistory (s : Session) : Session :=
  match s.config.historyFile with
  | none => s
  | some path =>
    let sh := s.shell
    if !sh.host.files.pathExists sh.process.directory path then
      s.tell .debug "no history file yet" [("path", path)]
    else
      match sh.history.read sh.host sh.process.directory path with
      | .ok (count, history) =>
        { s with shell := { sh with history := history }, historyLoaded := true }.tell .info
          "history loaded" [("path", path), ("count", toString count)]
      | .error f => s.tell .warn "history not loaded" [("error", Notice.quoted f.message)]

/-- Saves the history to its file: a file that was read is written anew, any other is appended to. -/
def saveHistory (s : Session) : Except HistoryFault Unit × Session :=
  match s.config.historyFile with
  | none => (.ok (), s)
  | some path =>
    let sh := s.shell
    if s.historyLoaded then
      let (result, host) := sh.history.write sh.host sh.process.directory path
      (result, { s with shell := { sh with host := host } })
    else
      match sh.history.append sh.host sh.process.directory path with
      | (.ok count, history, host) =>
        (.ok (), { s with shell := { sh with history := history, host := host } }.tell .debug
          "history appended" [("path", path), ("count", toString count)])
      | (.error f, history, host) =>
        (.error f, { s with shell := { sh with history := history, host := host } })

/-! ## Reading and running lines -/

/-- What an editor of the session knows. -/
def editorContext (s : Session) : Editor.Context where
  history := s.shell.history.entries
  complete := s.shell.complete s.registry

/-- The keys that are there to be read. -/
def keysOf (s : Session) : KeySource → List Key
  | .keys ks => ks
  | .standardInput =>
    match s.shell.process.descriptors.get? 0 with
    | some handle => (s.shell.host.available handle).1.map Key.byte
    | none => []

/-- The session and its console after a read. What a console on standard input shows goes to
standard output. -/
def afterRead (s : Session) (source : KeySource) (read : Nat) (screen : Screen) (rest : List Key) :
    Session × Console :=
  match source with
  | .keys _ => (s, ⟨.keys rest, screen⟩)
  | .standardInput =>
    let sh := s.shell
    let host := match sh.process.descriptors.get? 0 with
      | some handle => sh.host.consume handle read
      | none => sh.host
    let host := host.orElseWritten (sh.process.write 1 host screen.shown)
    ({ s with shell := { sh with host := host } }, ⟨.standardInput, ⟨[], screen.flushes⟩⟩)

/-- Tells what a quiet editor passed over in the keys of a line, and that the keys have come to their
end. -/
def tellKeys (s : Session) (e : Editor) (read : List Key) (outcome : Except Fault ReadOutcome) :
    Session :=
  let tell (sh : Shell) (message : String) (fields : List (String × String)) : Shell :=
    sh.tell ⟨"tinysh::editor", .trace, message, fields⟩
  let ignored (sh : Shell) (b : UInt8) : Shell :=
    tell sh "ignoring control byte" [("byte", toString b.toNat)]
  if e.echo then s
  else
    let shell := (read.filterMap Editor.ignored?).foldl ignored s.shell
    { s with shell := if Editor.sawEnd read outcome then tell shell "end of input" [] else shell }

/-- Reads one line. -/
def readLine (s : Session) (e : Editor) (c : Console) :
    Except Fault ReadOutcome × Session × Console :=
  let keys := s.keysOf c.source
  let result := e.readLine s.editorContext c.screen keys
  let read := keys.length - result.rest.length
  (result.outcome,
    (s.tellKeys e (keys.take read) result.outcome).afterRead c.source read result.screen
      result.rest)

/-- Records a line and runs it. -/
def submit (s : Session) (line : String) : Session :=
  ({ s with shell := { s.shell with history := s.shell.history.add line } }.evaluate line).2

/-- Reads and runs lines until the session is leaving, the lines end or a read fails. A read that
was interrupted is made again. -/
def converse (e : Editor) (s : Session) (c : Console) : Except Fault Unit × Session × Console :=
  if s.leaving then (.ok (), s, c)
  else
    match s.readLine e c with
    | (.error f, s, c) => if f.kind = .interrupted then s |>.converse e c else (.error f, s, c)
    | (.ok .quit, s, c) => (.ok (), s, c)
    | (.ok .empty, s, c) => s |>.converse e c
    | (.ok (.line text), s, c) => s.submit text |>.converse e c
partial_fixpoint

/-- Reads and runs the lines of a console. -/
def runEditor (s : Session) (e : Editor) (c : Console) : Except Fault Unit × Session × Console :=
  converse e s c

/-- A whole session on standard input, from reading the history file to saving it. -/
def run (s : Session) : Except Fault Unit × Session :=
  let s := s.loadHistory
  let e : Editor := if s.config.interactive then ⟨s.config.prompt, true⟩ else Editor.quiet
  let (result, s, _) := s.runEditor e ⟨.standardInput, ⟨[], []⟩⟩
  match s.saveHistory with
  | (.ok (), s) => (result, s)
  | (.error f, s) =>
    (result, s.tell .warn "history not saved" [("error", Notice.quoted f.message)])

/-- The text of a failed read. -/
def readFaultMessage (f : Fault) : String := "can't read input: " ++ f.message

end Session

end CommandShell
