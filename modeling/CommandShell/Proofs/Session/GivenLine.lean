import Mathlib
import CommandShell.CommandLine
import CommandShell.Proofs.Editor.Lines
import CommandShell.Proofs.History.Spared
import CommandShell.Proofs.Program.Search
import CommandShell.Proofs.Session.Converse
import CommandShell.Proofs.Stage.Execution

/-!
# A line that is given and a line that is read

The shell runs a line that is given to it as it runs the only line on its standard input:
`given_line_as_read`. The two differ in the history while the line runs, and in what is left to be
read behind it, which is nothing.
-/

namespace CommandShell

/-- Whether a process reads the standard input of the session, and has a standard output that takes
whatever is written, so that nothing is left to be flushed in the end. -/
structure Process.IsAttached (p : Process) : Prop where
  reads : p.descriptors.get? 0 = some .input
  writes : ∀ h bytes, ∃ h', p.write 1 h bytes = .ok h'

/-! ## Reading the only line -/

namespace Editor

/-- Behind a line that ends, the rest is left. -/
theorem behindLine_ended {bytes : Bytes} (hbytes : ∀ b ∈ bytes, stops b = false)
    (rest : Bytes) : behindLine (bytes ++ lineFeed :: rest) = rest := by
  induction bytes with
  | nil => rfl
  | cons b bytes ih =>
    obtain ⟨hb, hbytes⟩ := List.forall_mem_cons.mp hbytes
    rw [List.cons_append, behindLine, (Bool.or_eq_false_iff.mp hb).1]
    exact ih hbytes

/-- The bytes of a line that can be typed, and the byte that ends it. -/
theorem encode_line (line : String) :
    Text.encode (line ++ "\n") = Text.encode line ++ [lineFeed] := by
  rw [Text.encode_append]
  rfl

/-- A quiet editor reads the only line to its end. -/
theorem quiet_readLine_only {line : String} (hline : line ≠ "")
    (htyped : ∀ ch ∈ line.toList, IsTyped ch) (c : Context) (screen : Screen) :
    quiet.readLine c screen ((Text.encode (line ++ "\n")).map .byte) =
      ⟨.ok (.line line), screen, []⟩ := by
  obtain ⟨htyping, hmap⟩ := typing_of_typed htyped
  have hquit : endOfTransmission ∉ Text.encode (line ++ "\n") := by
    rw [encode_line, List.mem_append, not_or]
    exact ⟨fun hmem => absurd (htyping _ hmem) (by decide), by decide⟩
  have hgiven : given [] (Text.encode (line ++ "\n")) = [.line line] := by
    rw [encode_line, given_typing htyping, hmap]
    simp [given, endsLine, outcomeOf, hline]
  have hread : quiet.readLine c screen ((Text.encode (line ++ "\n")).map .byte) = _ :=
    quiet_readFrom rfl hquit
  rw [hread, LineState.fresh, hgiven, encode_line,
    behindLine_ended fun b hb => (htyping b hb).not_stops]
  rfl

/-- A quiet editor passes over nothing in a line that can be typed. -/
theorem ignored_line {line : String} (htyped : ∀ ch ∈ line.toList, IsTyped ch) :
    ((Text.encode (line ++ "\n")).map Key.byte).filterMap ignored? = [] := by
  obtain ⟨htyping, -⟩ := typing_of_typed htyped
  rw [List.filterMap_eq_nil_iff, encode_line]
  intro key hkey
  obtain ⟨b, hb, rfl⟩ := List.mem_map.mp hkey
  rcases List.mem_append.mp hb with hb | hb
  · rcases htyping b hb with hprint | rfl
    · simp [ignored?, hprint]
    · rfl
  · rw [List.mem_singleton.mp hb]
    rfl

end Editor

namespace Session

variable {s : Session} {line : String}

/-- The notice of an editor that has come to the end of its keys. -/
def endNotice : Notice := ⟨"tinysh::editor", .trace, "end of input", []⟩

/-- The session with nothing left on standard input. -/
def drained (s : Session) : Session := s.withHost { s.shell.host with input := [] }

/-- Reading the only line takes all of standard input, and does nothing else. -/
theorem readLine_only (hfed : s.IsFed .standardInput) (hline : line ≠ "")
    (htyped : ∀ ch ∈ line.toList, Editor.IsTyped ch)
    (hinput : s.shell.host.input = Text.encode (line ++ "\n")) :
    s.readLine .quiet plainConsole =
      (.ok (.line line), s.drained, plainConsole) := by
  have hdescriptor : s.shell.process.descriptors.get? 0 = some .input := hfed
  have hlast : Editor.sawEnd ((Text.encode (line ++ "\n")).map Key.byte) (.ok (.line line)) =
      false := by
    rw [Editor.encode_line, List.map_append, Editor.sawEnd]
    simp
  have htold : s.tellKeys .quiet ((Text.encode (line ++ "\n")).map Key.byte) (.ok (.line line)) =
      s := by
    simp [tellKeys, Editor.quiet, Editor.ignored_line htyped, hlast]
  have hkeys : s.keysOf plainConsole.source = (Text.encode (line ++ "\n")).map Key.byte := by
    rw [← hinput]
    exact hfed.keysOf_standardInput
  simp only [readLine, hkeys, Editor.quiet_readLine_only hline htyped, List.length_nil,
    Nat.sub_zero, List.take_length, htold]
  simp only [afterRead, plainConsole, hdescriptor, Host.orElseWritten_nil, Host.consume, hinput,
    List.length_map, List.drop_length]
  rfl

/-- Reading when there is nothing left does nothing, if the end of the lines is not told. -/
theorem readLine_nothing (hfed : s.IsFed .standardInput) (hinput : s.shell.host.input = [])
    (hquiet : s.shell.process.filter.tells endNotice = false) :
    s.readLine .quiet plainConsole = (.ok .quit, s, plainConsole) := by
  have hdescriptor : s.shell.process.descriptors.get? 0 = some .input := hfed
  have htold : s.tellKeys .quiet [] (.ok .quit) = s := by
    have htell : s.shell.tell endNotice = s.shell := by
      simp [Shell.tell, Process.tell, hquiet]
    exact congrArg (fun sh => { s with shell := sh }) htell
  have hkeys : s.keysOf plainConsole.source = [] := by
    rw [plainConsole, hfed.keysOf_standardInput, hinput]
    rfl
  have hread : Editor.quiet.readLine s.editorContext plainConsole.screen [] =
      ⟨.ok .quit, plainConsole.screen, []⟩ := rfl
  simp only [readLine, hkeys, hread, List.length_nil, Nat.sub_zero, List.take_nil, htold]
  simp only [afterRead, plainConsole, hdescriptor, Host.orElseWritten_nil, Host.consume,
    List.drop_zero]

/-! ## Running the line -/

/-- The session with another history. -/
def withHistory (H : History) (s : Session) : Session :=
  { s with shell := s.shell.withHistory H }

/-- Notices are told without the history. -/
theorem ready_withHistory (H : History) (s : Session) (line : String) :
    (s.withHistory H).ready line = (s.ready line).withHistory H := by
  have hnotices (ns : List LineNotice) (sh : Shell) :
      ns.foldl (fun (sh : Shell) n => sh.tell n.notice) (sh.withHistory H) =
        (ns.foldl (fun (sh : Shell) n => sh.tell n.notice) sh).withHistory H := by
    induction ns generalizing sh with
    | nil => rfl
    | cons n ns ih => exact ih (sh.tell n.notice)
  simp only [ready]
  rw [show (s.withHistory H).shell = s.shell.withHistory H from rfl, hnotices]
  rfl

/-- Telling the notices of a line leaves standard input alone. -/
theorem input_ready (s : Session) (line : String) :
    (s.ready line).host.input = s.shell.host.input := by
  have hnotices : ((notices line).foldl (fun (sh : Shell) n => sh.tell n.notice)
      s.shell).host.input = s.shell.host.input :=
    List.foldlRecOn (motive := fun (sh : Shell) => sh.host.input = s.shell.host.input)
      (notices line) _ rfl fun sh hsh n _ => (sh.input_tell n.notice).trans hsh
  exact (Shell.input_tell _ _).trans hnotices

/-- A line runs in a shell that is ready for it. -/
theorem evaluate_ready (s : Session) (line : String) :
    s.evaluate line = (((s.ready line).run s.registry (parse line)).1,
      { s with shell := ((s.ready line).run s.registry (parse line)).2 }.tell .debug "line finished"
        [("code", toString ((s.ready line).run s.registry (parse line)).1)]) := rfl

/-- A line that does not run the builtin for the history is evaluated without it, and leaves an end
of what was on standard input. -/
theorem evaluate_withHistory {H : History}
    (hspares : (s.ready line).SparesHistory s.registry (parse line))
    (hends : (s.ready line).Finishes s.registry (parse line)) :
    (s.withHistory H).evaluate line = (s.evaluate line).map id (withHistory H) ∧
      (s.evaluate line).2.shell.host.input <:+ s.shell.host.input := by
  have hown : s.registry.IsOwn := Registry.isOwn_default
  obtain ⟨hrun, hinput⟩ := Shell.run_withHistory (H := H) hown hspares hends
  refine ⟨?_, ?_⟩
  · rw [evaluate_ready, evaluate_ready, ready_withHistory]
    rw [show (s.withHistory H).registry = s.registry from rfl, hrun]
    rfl
  · rw [input_ready] at hinput
    rw [evaluate_ready]
    exact (Shell.input_tell _ _).symm ▸ hinput

/-- No line changes which notices are told. -/
theorem filter_evaluate (s : Session) (line : String) :
    (s.evaluate line).2.shell.process.filter = s.shell.process.filter := by
  have hframes : Shell.Frames fun sh sh' => sh'.process.filter = sh.process.filter :=
    ⟨fun _ _ => rfl, fun h h' => h'.trans h⟩
  have hcd (sh : Shell) (target : Option String) :
      (sh.runCd target).2.process.filter = sh.process.filter := by
    rw [Shell.runCd]
    split
    · rfl
    · simp only
      split <;> rfl
  obtain ⟨h, hready⟩ := s.exists_ready_eq line
  rw [evaluate_ready, hready]
  refine hframes.run (fun stage _ b _ sh streams => ?_) _
  exact hframes.answer (fun _ _ _ _ => rfl) (fun _ => hcd sh) rfl
    (fun _ a _ _ count => hframes.runHistory (fun _ _ => rfl) sh _ _ _ count) _ streams

/-! ## The whole session -/

/-- The only line on standard input is run, and then the session ends. -/
theorem run_only (hfed : s.IsFed .standardInput) (hgoes : s.leaving = false)
    (hconfig : s.config.historyFile = none ∧ s.config.interactive = false)
    (hquiet : s.shell.process.filter.tells endNotice = false) (hline : line ≠ "")
    (htyped : ∀ ch ∈ line.toList, Editor.IsTyped ch)
    (hinput : s.shell.host.input = Text.encode (line ++ "\n"))
    (hleft : (s.drained.submit line).shell.host.input = []) :
    s.run = (.ok (), s.drained.submit line) := by
  have hread := readLine_only hfed hline htyped hinput
  have hconverse : ∃ submitted, Converses .quiet s plainConsole submitted
      (.ok (), s.drained.submit line, plainConsole) := by
    rcases hleaving : (s.drained.submit line).leaving
    · have hfed' : s.drained.IsFed .standardInput := hfed
      have hquiet' : (s.drained.submit
          line).shell.process.filter.tells endNotice = false := by
        rw [submit, filter_evaluate]
        exact hquiet
      have hend := readLine_nothing (hfed'.submit line) hleft hquiet'
      exact ⟨_, .line hgoes hread (.quit hleaving hend)⟩
    · exact ⟨_, .line hgoes hread (.leaving hleaving)⟩
  obtain ⟨submitted, hconverses⟩ := hconverse
  have hload : s.loadHistory = s := by rw [loadHistory, hconfig.1]
  have hsave {t : Session} (ht : t.config = s.config) : t.saveHistory = (.ok (), t) := by
    rw [saveHistory, ht, hconfig.1]
  have hconverse : converse .quiet s plainConsole = _ := hconverses.converse_eq
  rw [plainConsole] at hconverse
  have hsaved : (s.drained.submit line).saveHistory = _ := hsave rfl
  simp only [run, hload, hconfig.2, Bool.false_eq_true, ↓reduceIte, runEditor, hconverse, hsaved]

end Session

namespace CommandLine

/-- The session of a command line without settings. -/
def plainSession (process : Process) (host : Host) : Session :=
  let e := Environment.ofVariables host.exported process.directory.path
  let asked : Arguments := ⟨false, true, [], []⟩
  Session.start ⟨e, .empty, { process with filter := filter asked e }, host⟩ (config asked e)

/-- A line that is given is evaluated, and its status is cut to what a process can exit with. -/
theorem run_given (line : String) (process : Process) (host : Host) :
    run ["-c", line] process host =
      (((plainSession process host).evaluate line).1.lowByte,
        ((plainSession process host).evaluate line).2.shell.host) := by
  rfl

/-- Without arguments the shell exits with zero when its session has come to its end. -/
theorem run_plain (process : Process) (host : Host) {t : Session}
    (h : (plainSession process host).run = (.ok (), t)) :
    run [] process host = (0, t.shell.host) := by
  have hread : Grammar.commandLine.read [] = .ok ⟨false, true, [], []⟩ := rfl
  have hcommand : Arguments.value? ⟨false, true, [], []⟩ "command" = none := rfl
  rw [plainSession] at h
  simp only [run, hread, runSession, hcommand, h]
  rfl

/-- A line that is given to the shell runs like the only line on its standard input. The shell that
reads the line has nothing left to read then, and is otherwise the one that the line is given to.
If a line of characters that can be typed does not run `history`, it comes to its end recorded just
in case it does so unrecorded; then both shells leave the host the same, and the first exits with
the lowest byte of the line's status, the second with zero. No history file is set, the end of the
lines is not told, and standard output takes whatever is written. -/
theorem given_line_as_read {line : String} {process : Process} {host : Host}
    (hline : line ≠ "") (htyped : ∀ ch ∈ line.toList, Editor.IsTyped ch)
    (hattached : process.IsAttached) (hinput : host.input = [])
    (hfile : (plainSession process host).config.historyFile = none)
    (hquiet : (plainSession process host).shell.process.filter.tells Session.endNotice = false)
    (hspares : ((plainSession process host).ready line).SparesHistory .default (parse line)) :
    let s := plainSession process host
    let typed := { host with input := Text.encode (line ++ "\n") }
    (plainSession process typed).readLine .quiet Session.plainConsole =
        (.ok (.line line), s, Session.plainConsole) ∧
      (((s.recorded line).ready line).Finishes .default (parse line) ↔
        (s.ready line).Finishes .default (parse line)) ∧
      ((s.ready line).Finishes .default (parse line) →
        (run ["-c", line] process host).2 = (run [] process typed).2 ∧
          (run ["-c", line] process host).1 = (s.evaluate line).1.lowByte ∧
          (run [] process typed).1 = 0) := by
  intro s typed
  have hdrained : (plainSession process typed).drained = s := by
    have hhost : { typed with input := [] } = host := by
      rw [← hinput]
    exact congrArg (plainSession process) hhost
  have hread :=
    Session.readLine_only (s := plainSession process typed) hattached.reads hline htyped rfl
  rw [hdrained] at hread
  refine ⟨hread, ?_, fun hends => ?_⟩
  · have hready : (s.recorded line).ready line =
        (s.ready line).withHistory (History.empty.add line) := Session.ready_withHistory _ s line
    rw [hready]
    exact Shell.finishes_withHistory Registry.isOwn_default hspares
  obtain ⟨hevaluate, hsuffix⟩ :=
    Session.evaluate_withHistory (H := History.empty.add line) hspares hends
  have hsubmit : s.submit line = (s.evaluate line).2.withHistory (History.empty.add line) :=
    congrArg Prod.snd hevaluate
  have hleft : (s.submit line).shell.host.input = [] := by
    have hnone : s.shell.host.input = [] := hinput
    rw [hnone, List.suffix_nil] at hsuffix
    rw [hsubmit]
    exact hsuffix
  have hrun : (plainSession process typed).run = (.ok (), s.submit line) := by
    rw [← hdrained] at hleft ⊢
    exact Session.run_only hattached.reads rfl ⟨hfile, rfl⟩ hquiet hline htyped rfl hleft
  refine ⟨?_, rfl, ?_⟩
  · rw [run_given, run_plain process _ hrun, hsubmit]
    rfl
  · rw [run_plain process _ hrun]

/-- A host with a program that copies what it reads. -/
def hostWithCat : Host :=
  .start (((FileSystem.empty.put ["tmp"] .directory).put ["bin"] .directory).put ["bin", "cat"]
    (.tool .copier)) [] [("PATH", "/bin")]

/-- The shell that is ready for a line on that host. -/
def shellWithCat : Shell :=
  ⟨⟨[("PATH", "/bin")], "/tmp", false⟩, .empty,
    { Process.initial ["tmp"] with filter := .upTo .warn }, hostWithCat⟩

theorem ready_cat :
    (plainSession (.initial ["tmp"]) hostWithCat).ready "cat" = shellWithCat := by cbv

theorem resolve_cat : shellWithCat.host.files.resolve ["tmp"] "/bin/cat" = .ok ["bin", "cat"] := by
  rw [FileSystem.resolve, FileSystem.follow_eq_walk ⟨by decide, by decide, by decide⟩]
  cbv

theorem lookup_cat : Registry.default.lookup "cat" = none := by cbv

/-- The program comes to its end, with success. -/
theorem finishes_cat :
    shellWithCat.Finishes .default [⟨["cat"], []⟩] ∧
      (shellWithCat.runStage .default ⟨["cat"], []⟩).1 = 0 := by
  have hname : IsName "cat" := ⟨by decide, by decide⟩
  have hprogram : hostWithCat.files.isProgram ["tmp"] "/bin/cat" = true :=
    FileSystem.isProgram_eq_true_iff.mpr ⟨["bin", "cat"], resolve_cat, by decide⟩
  have hlocate : shellWithCat.locate "cat" = some "/bin/cat" :=
    (hname.locate_eq ..).trans <|
      findProgram?_eq_some_iff.mpr ⟨[], "/bin", [], by decide, by decide, hprogram, by simp⟩
  have hresolve : shellWithCat.resolve .default "cat" = .program "/bin/cat" := by
    rw [Shell.resolve, lookup_cat, hlocate]
  have hstarting : shellWithCat.starting ⟨["cat"], []⟩ "/bin/cat" = shellWithCat := by cbv
  have hnul : (Stage.mk ["cat"] []).arguments.any Text.hasNul = false := by decide
  have hlaunch := Shell.launch_of_tool hnul resolve_cat rfl (by cbv) .spawn .inherited
  let inner := Program.enter .spawn (shellWithCat.programProcess .spawn .inherited).1
  let cat : Running := .copier ⟨inner, "cat", ["-"], none, [], 0⟩
  let launched : Shell := { shellWithCat with host := shellWithCat.host.newProcess.2 }
  have hends : Schedule.Ends launched.process.descriptors.handles [cat.process.number] [cat]
      launched.host ∧ launched.finish cat = (some (.exited 0), _) :=
    Shell.finish_of_turn rfl rfl rfl rfl
  have hexecutes : shellWithCat.Executes .default ⟨["cat"], []⟩ (.program "/bin/cat") :=
    (Shell.executes_iff rfl).mpr hresolve
  have hran := hexecutes.runStage_of_launch hstarting hlaunch hends.2
  refine ⟨?_, congrArg Prod.fst hran⟩
  exact Shell.finishes_of_launch ((Shell.begins_iff rfl).mpr hresolve) hstarting hlaunch hends.1

/-- A line that fails, with a quote left open, gives its status only where it is given; and a program
that copies what it reads finds nothing behind the line that calls it. -/
theorem given_line_as_read_cat :
    let process := Process.initial ["tmp"]
    let typed (line : String) := { hostWithCat with input := Text.encode (line ++ "\n") }
    ∀ x ∈ [("type >l\t'x", (1 : Status)), ("cat", 0)],
      (run ["-c", x.1] process hostWithCat).2 = (run [] process (typed x.1)).2 ∧
        (run ["-c", x.1] process hostWithCat).1 = x.2 ∧ (run [] process (typed x.1)).1 = 0 := by
  have hfails : (((plainSession (.initial ["tmp"]) hostWithCat).ready "type >l\t'x").runStage
      .default ⟨["type", "x"], [⟨.output, "l", false⟩]⟩).1 = 1 := by cbv
  intro process typed
  let s := plainSession process hostWithCat
  have hattached : process.IsAttached :=
    ⟨rfl, fun h bytes => by cases bytes <;> exact ⟨_, rfl⟩⟩
  have hboth {line : String} {stage : Stage} {status : Status} (hline : line ≠ "")
      (htyped : ∀ ch ∈ line.toList, Editor.IsTyped ch) (hparse : parse line = [stage])
      (hlookup : Registry.default.lookup stage.program ≠ some .history)
      (hends : (s.ready line).Finishes .default [stage])
      (hstatus : ((s.ready line).runStage .default stage).1 = status)
      (hbyte : status.lowByte = status) :
      (run ["-c", line] process hostWithCat).2 = (run [] process (typed line)).2 ∧
        (run ["-c", line] process hostWithCat).1 = status ∧
        (run [] process (typed line)).1 = 0 := by
    have hspares : (s.ready line).SparesHistory .default (parse line) := by
      refine Shell.sparesHistory_of_lookup fun other hother => ?_
      rw [hparse, List.mem_singleton] at hother
      exact hother ▸ hlookup
    obtain ⟨-, -, hsame⟩ := given_line_as_read hline htyped hattached rfl rfl rfl hspares
    obtain ⟨hhosts, hgiven, hread⟩ := hsame (hparse ▸ hends)
    have hevaluate : (s.evaluate line).1 = status := by
      rw [Session.evaluate_ready, hparse]
      exact hstatus
    exact ⟨hhosts, hgiven.trans (hevaluate ▸ hbyte), hread⟩
  intro x hx
  rcases List.mem_pair.mp hx with rfl | rfl
  · have hparse : parse "type >l\t'x" = [⟨["type", "x"], [⟨.output, "l", false⟩]⟩] := by cbv
    have htype : Registry.default.lookup "type" = some .type := by cbv
    refine hboth (by decide) ?_ hparse ?_ (Shell.finishes_of_builtin htype) hfails rfl
    · simp [Editor.IsTyped]
    · simp [htype, Stage.program]
  · have hparse : parse "cat" = [⟨["cat"], []⟩] := by cbv
    have hready : s.ready "cat" = shellWithCat := ready_cat
    refine hboth (by decide) ?_ hparse ?_ (hready ▸ finishes_cat.1) (hready ▸ finishes_cat.2) rfl
    · simp [Editor.IsTyped]
    · simp [lookup_cat, Stage.program]

end CommandLine

end CommandShell
