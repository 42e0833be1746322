import CommandShell.Proofs.Session.SavedFile

/-!
# How lines change the shell

A line hands the shell to the builtin that is alone on it, if its redirections can be opened, and to
nobody else: `Shell.run_cases`. So what a line can do to the variables, the history, the wish to
leave and the working directory is what the usual builtins do to them. `Shell.Evolves` says it of
one line and `Shell.Grows` is what remains of it for a row of lines.
-/

namespace CommandShell

/-- The arguments that a builtin is run with: those that are not refused and do not ask for help. -/
def Grammar.accepted? (g : Grammar) (arguments : List String) : Option Arguments :=
  match g.read arguments with
  | .ok a => if a.help then none else some a
  | .error _ => none

/-- Reading a file adds its entries behind those that are there. -/
theorem History.exists_eq_of_read {h h' : History} {host : Host} {directory : Location}
    {path : String} {count : Nat} (hread : h.read host directory path = .ok (count, h')) :
    ∃ new, h' = { h with entries := h.entries ++ new } := by
  rw [read] at hread
  split at hread
  · cases hread
  split at hread
  · cases hread
  · cases hread
    exact ⟨_, rfl⟩

namespace Shell

variable {sh sh' sh'' : Shell} {registry : Registry} {stage : Stage} {stages : List Stage}

/-! ## The builtin of a line -/

/-- The streams that the redirections of a stage open. -/
def streamsOf (sh : Shell) (stage : Stage) : Streams :=
  (Streams.ofRedirections sh.process sh.host stage.redirections).1

/-- The shell that is handed to the builtin of a stage: the redirections were opened, and it was
told that the builtin runs. -/
def opened (sh : Shell) (stage : Stage) : Shell :=
  { sh with host := (Streams.ofRedirections sh.process sh.host stage.redirections).2 }.tell
    (.ofStages .trace "running builtin" [("program", Notice.quoted stage.program)])

theorem streamsOf_valid (sh : Shell) (stage : Stage) :
    (sh.streamsOf stage).valid =
      (sh.host.files.prepare sh.process.directory stage.redirections).complete :=
  (Streams.ofRedirections_shape sh.process sh.host stage.redirections).1

/-- A stage on open streams hands the shell to its builtin, if it has one. -/
theorem exists_runResolved_eq (sh : Shell) (registry : Registry) (stage : Stage)
    (streams : Streams) :
    ∃ h, (sh.runResolved registry .spawn stage streams).2 =
      { (match registry.lookup stage.program with
        | some b => (b.answer registry stage.arguments streams (sh.tell
            (.ofStages .trace "running builtin"
              [("program", Notice.quoted stage.program)]))).shell
        | none => sh) with host := h } := by
  rw [runResolved, resolve]
  rcases registry.lookup stage.program with _ | b
  · rcases sh.locate stage.program with _ | path
    · exact ⟨sh.host, rfl⟩
    · simp only [startProgram]
      split <;> exact ⟨_, rfl⟩
  · exact ⟨_, rfl⟩

/-- What a stage writes, and the program that it starts, change nothing but the host. -/
theorem exists_runStage_eq (sh : Shell) (registry : Registry) (stage : Stage) :
    ∃ h, (sh.runStage registry stage).2 =
      { (sh.beginStage registry .spawn stage).2 with host := h } := by
  rw [runStage]
  rcases sh.beginStage registry .spawn stage with ⟨status | ⟨es, error, status⟩ | r, after⟩
  · exact ⟨after.host, rfl⟩
  · exact ⟨_, rfl⟩
  · exact ⟨_, rfl⟩

/-- What becomes of a shell that runs stages, but for its host: a stage that is alone hands it to
its builtin, if there is one and its redirections do not keep it from running. -/
def handedOver (sh : Shell) (registry : Registry) : List Stage → Shell
  | [stage] =>
    if (sh.streamsOf stage).valid then
      match registry.lookup stage.program with
      | some b => (b.answer registry stage.arguments (sh.streamsOf stage) (sh.opened stage)).shell
      | none => sh
    else sh
  | _ => sh

/-- Besides what its builtin does, a line changes nothing but the host. -/
theorem run_handedOver (sh : Shell) (registry : Registry) (stages : List Stage) :
    ∃ h, (sh.run registry stages).2 = { sh.handedOver registry stages with host := h } := by
  match stages with
  | [] => exact ⟨sh.host, rfl⟩
  | _ :: _ :: _ => exact ⟨_, rfl⟩
  | [stage] =>
    obtain ⟨h, hrun⟩ := sh.exists_runStage_eq registry stage
    have hbegin : sh.beginStage registry .spawn stage =
        let inside : Shell :=
          { sh with host := (Streams.ofRedirections sh.process sh.host stage.redirections).2 }
        if (sh.streamsOf stage).valid then
          inside.runResolved registry .spawn stage (sh.streamsOf stage)
        else (.ended .failed, inside) := rfl
    refine ⟨h, ?_⟩
    rw [run, hrun, hbegin, handedOver]
    rcases (sh.streamsOf stage).valid with _ | _
    · rfl
    obtain ⟨g, hresolved⟩ := exists_runResolved_eq
      { sh with host := (Streams.ofRedirections sh.process sh.host stage.redirections).2 } registry
      stage (sh.streamsOf stage)
    simp only [↓reduceIte, hresolved]
    rcases registry.lookup stage.program with _ | b <;> rfl

/-! ## What the builtins do -/

/-- A builtin that reads its arguments works on the shell if it accepts them. -/
theorem shell_withArguments {name : String} {grammar : Grammar} {help : String}
    {arguments : List String} {streams : Streams} {body : Arguments → BuiltinResult} :
    (Builtin.withArguments name grammar help arguments streams sh body).shell =
      match grammar.accepted? arguments with
      | some a => (body a).2
      | none => sh := by
  rw [Builtin.withArguments, Grammar.accepted?]
  rcases grammar.read arguments with e | a
  · rfl
  rcases hhelp : a.help with _ | _
  · simp only [hhelp, Bool.false_eq_true, ↓reduceIte]
    rcases body a with ⟨e | report, after⟩ <;> rfl
  · simp only [hhelp, ↓reduceIte]

/-- What the history is once a file was read on to it, if one is given. -/
def loaded (sh : Shell) (file : Option String) : History := (sh.readHistory file).2.history

/-- Only a file that can be read changes the history, to what is read. -/
theorem loaded_cases (sh : Shell) (file : Option String) :
    sh.loaded file = sh.history ∨ ∃ path count, file = some path ∧
      sh.history.read sh.host sh.process.directory path = .ok (count, sh.loaded file) := by
  rw [loaded]
  cases file with
  | none => exact .inl rfl
  | some path =>
    rw [readHistory]
    rcases hread : sh.history.read sh.host sh.process.directory path with f | ⟨count, history⟩
    · exact .inl rfl
    · exact .inr ⟨path, count, rfl, hread⟩

/-- The second step is made on the shell that the first leaves, or not at all. -/
theorem andThen_cases (first : BuiltinResult) (second : Shell → BuiltinResult) :
    (andThen first second).2 = first.2 ∨ (andThen first second).2 = (second first.2).2 := by
  obtain ⟨e | report, after⟩ := first
  · exact .inl rfl
  · exact .inr rfl

/-- Entries are read behind those that are there, and appending marks all of them. Nothing else of
the shell is changed but the host. -/
theorem runHistory_cases (sh : Shell) (file write append : Option String) (count : Option Nat) :
    ∃ h, (sh.runHistory file write append count).2 =
        { sh with history := sh.loaded file, host := h } ∨
      (sh.runHistory file write append count).2 = { sh with
        history := { sh.loaded file with appended := (sh.loaded file).entries.length }
        host := h } := by
  have hread : (sh.readHistory file).2 = { sh with history := sh.loaded file } := by
    cases file with
    | none => rfl
    | some path =>
      rw [loaded, readHistory]
      split <;> rfl
  have hwrite (sh : Shell) : ∃ h, (sh.writeHistory write).2 = { sh with host := h } := by
    cases write with
    | none => exact ⟨sh.host, rfl⟩
    | some path =>
      rw [writeHistory]
      split <;> exact ⟨_, rfl⟩
  have happend (sh : Shell) : ∃ h, (sh.appendHistory append).2 = { sh with host := h } ∨
      (sh.appendHistory append).2 = { sh with
        history := { sh.history with appended := sh.history.entries.length }
        host := h } := by
    cases append with
    | none => exact ⟨sh.host, .inl rfl⟩
    | some path =>
      rw [appendHistory, History.append]
      rcases History.save sh.history.pending sh.host sh.process.directory path true
        with ⟨e | _, h⟩
      · exact ⟨h, .inl rfl⟩
      · exact ⟨h, .inr rfl⟩
  rw [runHistory]
  split
  · next hnone =>
    simp only [Bool.and_eq_true, Option.isNone_iff_eq_none] at hnone
    obtain ⟨⟨rfl, -⟩, -⟩ := hnone
    exact ⟨sh.host, .inl rfl⟩
  rcases andThen_cases (sh.readHistory file) fun sh =>
      andThen (sh.writeHistory write) fun sh => sh.appendHistory append with hfirst | hfirst
  · exact ⟨sh.host, .inl (hfirst.trans hread)⟩
  rw [hfirst, hread]
  obtain ⟨g, hwritten⟩ := hwrite { sh with history := sh.loaded file }
  rcases andThen_cases (({ sh with history := sh.loaded file } : Shell).writeHistory write)
      fun sh => sh.appendHistory append with hsecond | hsecond
  · exact ⟨g, .inl (hsecond.trans hwritten)⟩
  rw [hsecond, hwritten]
  exact happend _

/-! ## How a line changes the shell -/

/-- Whether a stage hands arguments that are accepted to the builtin of a name: its redirections can
be opened, and its arguments are neither refused nor ask for help. -/
structure Accepts (sh : Shell) (stage : Stage) (name : String) (grammar : Grammar)
    (a : Arguments) : Prop where
  program : stage.program = name
  valid : (sh.streamsOf stage).valid = true
  arguments : grammar.accepted? (stage.arguments.drop 1) = some a

/-- What lines leave of a shell, whichever they are: the variables are the same, entries are added
behind the others, the mark of the appended ones does not go back nor beyond them, and a shell that
is about to leave remains so. -/
structure Grows (sh sh' : Shell) : Prop where
  bindings : sh'.environment.bindings = sh.environment.bindings
  entries : sh.history.entries <+: sh'.history.entries
  appended : sh.history.appended ≤ sh.history.entries.length →
    sh.history.appended ≤ sh'.history.appended ∧
      sh'.history.appended ≤ sh'.history.entries.length
  leaving : sh.environment.leaving = true → sh'.environment.leaving = true

/-- How stages that end with a status change a shell: it grows, and what else changes about it is
due to a builtin that is alone on its line. -/
structure Evolves (sh : Shell) (stages : List Stage) (status : Status) (sh' : Shell) : Prop where
  grows : sh.Grows sh'
  /-- New entries were read from a file by `history`. -/
  entries : sh'.history.entries = sh.history.entries ∨
    ∃ stage a path count history, stages = [stage] ∧ sh.Accepts stage "history" .history a ∧
      a.value? "read" = some path ∧
      sh.history.read (sh.opened stage).host sh.process.directory path = .ok (count, history) ∧
      sh'.history.entries = history.entries
  /-- A shell is about to leave only by `exit`. -/
  leaving : sh'.environment.leaving = true ↔ sh.environment.leaving = true ∨
    ∃ stage a, stages = [stage] ∧ sh.Accepts stage "exit" .exit a
  /-- The working directory is another only by a `cd` that succeeded. -/
  currentDirectory : sh'.environment.currentDirectory = sh.environment.currentDirectory ∨
    ∃ stage a, stages = [stage] ∧ sh.Accepts stage "cd" .cd a ∧ status = 0

theorem Grows.refl (sh : Shell) : sh.Grows sh :=
  ⟨rfl, List.prefix_refl _, fun h => ⟨Nat.le_refl _, h⟩, id⟩

theorem Grows.trans (h : sh.Grows sh') (h' : sh'.Grows sh'') : sh.Grows sh'' where
  bindings := h'.bindings.trans h.bindings
  entries := h.entries.trans h'.entries
  appended hle :=
    have hmid := h.appended hle
    have hend := h'.appended hmid.2
    ⟨hmid.1.trans hend.1, hend.2⟩
  leaving hl := h'.leaving (h.leaving hl)

/-- What `history` makes of a shell grows from it. -/
theorem grows_runHistory (sh : Shell) (file write append : Option String) (count : Option Nat) :
    sh.Grows (sh.runHistory file write append count).2 := by
  have hloaded : ∃ new, sh.loaded file =
      { sh.history with entries := sh.history.entries ++ new } := by
    rcases sh.loaded_cases file with heq | ⟨path, count, -, hread⟩
    · exact ⟨[], by rw [heq, List.append_nil]⟩
    · exact History.exists_eq_of_read hread
  obtain ⟨new, hnew⟩ := hloaded
  obtain ⟨h, heq | heq⟩ := sh.runHistory_cases file write append count
  · rw [heq, hnew]
    refine ⟨rfl, List.prefix_append _ _, fun hle => ⟨Nat.le_refl _, ?_⟩, id⟩
    exact hle.trans (List.prefix_append _ _).length_le
  · rw [heq, hnew]
    refine ⟨rfl, List.prefix_append _ _, fun hle => ⟨?_, Nat.le_refl _⟩, id⟩
    exact hle.trans (List.prefix_append _ _).length_le

/-- What a line makes of a shell, but for its host, where builtins have their usual names. -/
inductive Handles (sh : Shell) : List Stage → Shell → Prop
  | host {stages : List Stage} (h : Host) : Handles sh stages { sh with host := h }
  | cd {stage : Stage} {a : Arguments} : sh.Accepts stage "cd" .cd a →
      Handles sh [stage] ((sh.opened stage).runCd a.positionals.head?).2
  | exit {stage : Stage} {a : Arguments} : sh.Accepts stage "exit" .exit a →
      Handles sh [stage] { sh.opened stage with
        environment := { sh.environment with leaving := true } }
  | history {stage : Stage} {a : Arguments} (count : Option Nat) :
      sh.Accepts stage "history" .history a →
        Handles sh [stage] ((sh.opened stage).runHistory (a.value? "read") (a.value? "write")
          (a.value? "append") count).2

/-- The usual builtins make nothing else of a shell. -/
theorem handles_handedOver (sh : Shell) (stages : List Stage) :
    sh.Handles stages (sh.handedOver .default stages) := by
  have hsame {stages : List Stage} : sh.Handles stages sh := .host sh.host
  have hopened (stage : Stage) : sh.Handles [stage] (sh.opened stage) := .host _
  match stages with
  | [] | _ :: _ :: _ => exact hsame
  | [stage] =>
  rw [handedOver]
  rcases hvalid : (sh.streamsOf stage).valid with _ | _
  · exact hsame
  rcases hb : Registry.default.lookup stage.program with _ | b
  · exact hsame
  have hmem := Registry.mem_of_lookup_default hb
  simp only [List.mem_cons, Prod.mk.injEq, List.not_mem_nil, or_false] at hmem
  simp only [↓reduceIte]
  -- A builtin that changes nothing leaves the shell whether it accepts its arguments or not.
  rcases hmem with ⟨hname, rfl⟩ | ⟨-, rfl⟩ | ⟨hname, rfl⟩ | ⟨hname, rfl⟩ | ⟨-, rfl⟩ | ⟨-, rfl⟩
  all_goals simp only [Builtin.answer]
  · rw [shell_withArguments]
    split
    · next a ha => exact .cd ⟨hname, hvalid, ha⟩
    · exact hopened stage
  · exact hopened stage
  · rw [shell_withArguments]
    split
    · next a ha => exact .exit ⟨hname, hvalid, ha⟩
    · exact hopened stage
  · rw [shell_withArguments]
    split
    · next a ha => exact .history _ ⟨hname, hvalid, ha⟩
    · exact hopened stage
  · rw [shell_withArguments]
    split <;> exact hopened stage
  · rw [shell_withArguments]
    split <;> exact hopened stage

/-- A single `exit` that accepts its arguments makes the shell leave. -/
theorem leaving_handedOver {a : Arguments} (h : sh.Accepts stage "exit" .exit a) :
    (sh.handedOver .default [stage]).environment.leaving = true := by
  have hb : Registry.default.lookup stage.program = some .exit := by
    rw [h.program]
    cbv
  rw [handedOver, if_pos h.valid, hb]
  simp only [Builtin.answer, shell_withArguments, h.arguments]

/-- What happens on the host alone leaves the shell as it is. -/
theorem grows_host (sh : Shell) (h : Host) : sh.Grows { sh with host := h } :=
  ⟨rfl, List.prefix_refl _, fun hle => ⟨Nat.le_refl _, hle⟩, id⟩

theorem Handles.grows (h : sh.Handles stages sh') : sh.Grows sh' := by
  cases h with
  | host h => exact sh.grows_host h
  | exit _ => exact ⟨rfl, List.prefix_refl _, fun hle => ⟨Nat.le_refl _, hle⟩, fun _ => rfl⟩
  | @cd stage a _ =>
    have hopened : sh.Grows (sh.opened stage) := sh.grows_host _
    obtain ⟨l, -, heq⟩ | ⟨e, -, heq⟩ := (sh.opened stage).runCd_cases a.positionals.head?
    · rw [heq]
      exact ⟨rfl, List.prefix_refl _, fun hle => ⟨Nat.le_refl _, hle⟩, id⟩
    · rw [heq]
      exact hopened
  | @history stage a count _ =>
    have hopened : sh.Grows (sh.opened stage) := sh.grows_host _
    exact hopened.trans ((sh.opened stage).grows_runHistory _ _ _ count)

/-- New entries are read by `history`. -/
theorem Handles.entries (h : sh.Handles stages sh') :
    sh'.history.entries = sh.history.entries ∨
      ∃ stage a path count history, stages = [stage] ∧ sh.Accepts stage "history" .history a ∧
        a.value? "read" = some path ∧
        sh.history.read (sh.opened stage).host sh.process.directory path = .ok (count, history) ∧
        sh'.history.entries = history.entries := by
  cases h with
  | host _ | exit _ => exact .inl rfl
  | @cd stage a _ =>
    obtain ⟨l, -, heq⟩ | ⟨e, -, heq⟩ := (sh.opened stage).runCd_cases a.positionals.head?
    · exact .inl (by rw [heq]; rfl)
    · exact .inl (by rw [heq]; rfl)
  | @history stage a count ha =>
    have hentries : ((sh.opened stage).runHistory (a.value? "read") (a.value? "write")
        (a.value? "append") count).2.history.entries =
          ((sh.opened stage).loaded (a.value? "read")).entries := by
      obtain ⟨h, heq | heq⟩ := (sh.opened stage).runHistory_cases (a.value? "read")
        (a.value? "write") (a.value? "append") count <;> rw [heq]
    rcases (sh.opened stage).loaded_cases (a.value? "read") with heq | ⟨path, n, hpath, hread⟩
    · exact .inl (by rw [hentries, heq]; rfl)
    · exact .inr ⟨stage, a, path, n, _, rfl, ha, hpath, hread, hentries⟩

/-- The wish to leave is set by `exit`. -/
theorem Handles.leaving (h : sh.Handles stages sh') (hl : sh'.environment.leaving = true) :
    sh.environment.leaving = true ∨
      ∃ stage a, stages = [stage] ∧ sh.Accepts stage "exit" .exit a := by
  cases h with
  | host _ => exact .inl hl
  | @exit stage a ha => exact .inr ⟨stage, a, rfl, ha⟩
  | @cd stage a _ =>
    obtain ⟨l, -, heq⟩ | ⟨e, -, heq⟩ := (sh.opened stage).runCd_cases a.positionals.head?
    · exact .inl (by rwa [heq] at hl)
    · exact .inl (by rwa [heq] at hl)
  | @history stage a count _ =>
    obtain ⟨h, heq | heq⟩ := (sh.opened stage).runHistory_cases (a.value? "read")
      (a.value? "write") (a.value? "append") count
    · exact .inl (by rwa [heq] at hl)
    · exact .inl (by rwa [heq] at hl)

/-- The working directory is left by a `cd` that succeeds. -/
theorem currentDirectory_run (sh : Shell) (stages : List Stage) :
    (sh.run .default stages).2.environment.currentDirectory = sh.environment.currentDirectory ∨
      ∃ stage a, stages = [stage] ∧ sh.Accepts stage "cd" .cd a ∧
        (sh.run .default stages).1 = 0 := by
  by_cases hcd : ∃ stage, stages = [stage] ∧ Registry.default.lookup stage.program = some .cd
  · obtain ⟨stage, rfl, hcd⟩ := hcd
    obtain ⟨h, hrun, -⟩ := sh.run_cd hcd
    rw [hrun]
    rcases hchange : sh.change stage with l | _ | _
    · obtain ⟨hcomplete, a, path, hread, hhelp, -, -⟩ := change_eq_move_iff.mp hchange
      have hname : stage.program = "cd" := by
        simpa using Registry.mem_of_lookup_default hcd
      have haccepted : Grammar.cd.accepted? (stage.arguments.drop 1) = some a := by
        rw [Grammar.accepted?, hread]
        simp [hhelp]
      exact .inr ⟨stage, a, rfl, ⟨hname, (sh.streamsOf_valid stage).trans hcomplete, haccepted⟩,
        rfl⟩
    · exact .inl rfl
    · exact .inl rfl
  · refine .inl (stays_run Registry.isOwn_default ?_ sh).currentDirectory
    exact fun stage hstages hlookup => hcd ⟨stage, hstages, hlookup⟩

/-- A shell evolves where it runs stages with the usual builtins. -/
theorem evolves_run (sh : Shell) (stages : List Stage) :
    sh.Evolves stages (sh.run .default stages).1 (sh.run .default stages).2 := by
  obtain ⟨h, hrun⟩ := sh.run_handedOver .default stages
  have hhandles := sh.handles_handedOver stages
  refine ⟨?_, ?_, ⟨?_, ?_⟩, sh.currentDirectory_run stages⟩
  · rw [hrun]
    exact hhandles.grows.trans (grows_host _ h)
  · rw [hrun]
    exact hhandles.entries
  · rw [hrun]
    exact hhandles.leaving
  · rw [hrun]
    rintro (hl | ⟨stage, a, rfl, ha⟩)
    · exact hhandles.grows.leaving hl
    · exact leaving_handedOver ha

end Shell

namespace Session

variable {s t : Session} {lines : List String}

/-- The shell of the session when it runs the stages of a line: notices of the line were told. -/
def ready (s : Session) (line : String) : Shell :=
  let told := (notices line).foldl (fun (sh : Shell) n => sh.tell n.notice) s.shell
  ({ s with shell := told }.tell .debug "parsed line"
    [("stages", Notice.listed ((parse line).map Stage.shown))]).shell

/-- The notices of a line are told on the host. -/
theorem exists_ready_eq (s : Session) (line : String) :
    ∃ h, s.ready line = { s.shell with host := h } := by
  obtain ⟨h, htold, -⟩ := foldl_tell_host s.shell (notices line) LineNotice.notice
  rw [ready, htold]
  exact ⟨_, rfl⟩

/-- A line that is run with the usual builtins lets the shell evolve. -/
theorem evolves_evaluate (s : Session) (line : String) :
    (s.ready line).Evolves (parse line) (s.evaluate line).1 (s.evaluate line).2.shell := by
  have heq : s.evaluate line = (((s.ready line).run s.registry (parse line)).1,
      { s with shell := ((s.ready line).run s.registry (parse line)).2 }.tell .debug "line finished"
        [("code", toString ((s.ready line).run s.registry (parse line)).1)]) := rfl
  rw [heq]
  obtain ⟨hgrows, hentries, hleaving, hcd⟩ := (s.ready line).evolves_run (parse line)
  exact ⟨hgrows.trans (Shell.grows_host _ _), hentries, hleaving, hcd⟩

/-- The shell of a session grows with a line. -/
theorem grows_evaluate (s : Session) (line : String) :
    s.shell.Grows (s.evaluate line).2.shell := by
  have hready : s.shell.Grows (s.ready line) := by
    obtain ⟨h, heq⟩ := s.exists_ready_eq line
    rw [heq]
    exact s.shell.grows_host h
  exact hready.trans (s.evolves_evaluate line).grows

/-- Recording a line adds an entry. -/
theorem grows_submit (s : Session) (line : String) :
    s.shell.Grows (s.submit line).shell := by
  have hrecorded : s.shell.Grows (s.recorded line).shell := by
    refine ⟨rfl, List.prefix_append _ _, fun hle => ⟨Nat.le_refl _, ?_⟩, id⟩
    exact hle.trans (List.prefix_append _ _).length_le
  exact hrecorded.trans ((s.recorded line).grows_evaluate line)

/-- The shell of a session grows with the lines that are run, recorded or not. -/
theorem RunsTo.grows (h : s.RunsTo lines t) : s.shell.Grows t.shell := by
  induction h with
  | start => exact .refl s.shell
  | @evaluate _ t line _ ih => exact ih.trans (t.grows_evaluate line)
  | @submit _ t line _ ih => exact ih.trans (t.grows_submit line)

/-- Reading a line happens on the host. -/
theorem exists_readLine_eq (s : Session) (e : Editor) (c : Console) :
    ∃ h, (s.readLine e c).2.1 = s.withHost h := by
  obtain ⟨h, htold, -⟩ := s.tellKeys_eq e ((s.keysOf c.source).take ((s.keysOf c.source).length -
    (e.readLine s.editorContext c.screen (s.keysOf c.source)).rest.length))
    (e.readLine s.editorContext c.screen (s.keysOf c.source)).outcome
  simp only [readLine, htold, afterRead]
  split <;> exact ⟨_, rfl⟩

/-- The shell of a session grows while lines are read and run. -/
theorem Converses.grows {e : Editor} {c : Console} {submitted : List (Session × String)}
    {result : Except Fault Unit × Session × Console} (h : Converses e s c submitted result) :
    s.shell.Grows result.2.1.shell := by
  have hread {s t : Session} {c d : Console} {outcome : Except Fault ReadOutcome}
      (hline : s.readLine e c = (outcome, t, d)) : s.shell.Grows t.shell := by
    obtain ⟨h, heq⟩ := s.exists_readLine_eq e c
    rw [hline] at heq
    obtain rfl : t = _ := heq
    exact s.shell.grows_host h
  induction h with
  | leaving _ => exact .refl _
  | failed _ hline _ | quit _ hline => exact hread hline
  | interrupted _ hline _ _ ih | empty _ hline _ ih => exact (hread hline).trans ih
  | @line s t _ _ text _ _ _ hline _ ih =>
    exact ((hread hline).trans (t.grows_submit text)).trans ih

/-- A line leaves the variables as they are, adds entries to the history only by a `history` that
has read them, marks none of them as appended that is not there, and changes the working directory
or the wish to leave only by a `cd` that succeeds and an `exit` that is accepted, each alone on its
line. So neither a row of lines nor a conversation takes back the wish to leave, or an entry. -/
theorem shell_evolves (s : Session) :
    (∀ line, (∃ h, s.ready line = { s.shell with host := h }) ∧
      (s.ready line).Evolves (parse line) (s.evaluate line).1 (s.evaluate line).2.shell) ∧
    (∀ lines t, s.RunsTo lines t → s.shell.Grows t.shell) ∧
    ∀ e c submitted result, Converses e s c submitted result →
      s.shell.Grows result.2.1.shell :=
  ⟨fun line => ⟨s.exists_ready_eq line, s.evolves_evaluate line⟩, fun _ _ hruns => hruns.grows,
    fun _ _ _ _ hconverses => hconverses.grows⟩

/-- An `exit` that is alone on its line, and two that are not. -/
theorem shell_evolves_exit :
    let s := besideDirectory
    (s.evaluate "exit").2.leaving = true ∧
      (s.evaluate "exit | exit").2.leaving = false ∧
      ∀ lines t, (s.evaluate "exit").2.RunsTo lines t → t.leaving = true := by
  intro s
  have halone : parse "exit" = [⟨["exit"], []⟩] := by cbv
  have hpiped : parse "exit | exit" = [⟨["exit"], []⟩, ⟨["exit"], []⟩] := by cbv
  have haccepted : Grammar.exit.accepted? [] = some ⟨false, true, [], []⟩ := by cbv
  obtain ⟨hline, -⟩ := s.shell_evolves
  have hleaving : (s.evaluate "exit").2.leaving = true :=
    (hline "exit").2.leaving.mpr (.inr ⟨_, _, halone, rfl, rfl, haccepted⟩)
  refine ⟨hleaving, ?_, ?_⟩
  · rw [← Bool.not_eq_true]
    intro hpipe
    obtain ⟨⟨h, hready⟩, hevolves⟩ := hline "exit | exit"
    rcases hevolves.leaving.mp hpipe with hbefore | ⟨stage, a, hstage, -⟩
    · rw [hready] at hbefore
      cases hbefore
    · rw [hpiped] at hstage
      cases hstage
  · intro lines t hruns
    exact ((s.evaluate "exit").2.shell_evolves.2.1 lines t hruns).leaving hleaving

end Session

end CommandShell
