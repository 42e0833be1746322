import CommandShell.Proofs.Input.Stages
import CommandShell.Proofs.Stage.Execution

/-!
# Lines that do not run `history`

Nothing that a line does depends on the history of the shell, unless it runs the builtin that is for
it (`run_withHistory`), nor does whether it comes to its end (`finishes_withHistory`); only a command
that was supplied from outside could look at the history, too. In a pipeline every stage has a copy
of the shell and begins on its own turn: two such processes are `Alike` where they do the same on the
hosts on which they do not run `history`.
-/

namespace CommandShell

/-- The shell with another history. -/
def Shell.withHistory (H : History) (sh : Shell) : Shell := { sh with history := H }

/-- The answer with another history in its shell. -/
def Answer.withHistory (H : History) (a : Answer) : Answer :=
  { a with shell := a.shell.withHistory H }

namespace Shell

variable {sh : Shell} {registry : Registry} {stage : Stage} {H : History}

/-! ## Builtins -/

/-- A builtin that reads its arguments depends on the history only where its work does. -/
theorem withArguments_withHistory {name : String} {grammar : Grammar} {help : String}
    {arguments : List String} {streams : Streams} {body body' : Arguments → BuiltinResult}
    (hbody : ∀ a, body' a = (body a).map id (withHistory H)) :
    Builtin.withArguments name grammar help arguments streams (sh.withHistory H) body' =
      (Builtin.withArguments name grammar help arguments streams sh body).withHistory H := by
  simp only [Builtin.withArguments]
  split
  · rfl
  split
  · rfl
  simp only [hbody]
  rcases body _ with ⟨e | report, after⟩ <;> rfl

/-- Changing the directory does not depend on the history. -/
theorem runCd_withHistory (target : Option String) :
    (sh.withHistory H).runCd target = (sh.runCd target).map id (withHistory H) := by
  have henvironment : (sh.withHistory H).environment = sh.environment := rfl
  have hhost : (sh.withHistory H).host = sh.host := rfl
  unfold runCd
  rw [henvironment, hhost]
  split
  · rfl
  · simp only
    split <;> rfl

/-- Of the usual builtins only `history` depends on the history. -/
theorem answer_withHistory {b : Builtin} (hb : b ≠ .history)
    (hadded : ∀ conduct, b ≠ .added conduct) (arguments : List String)
    (streams : Streams) :
    b.answer registry arguments streams (sh.withHistory H) =
      (b.answer registry arguments streams sh).withHistory H := by
  cases b with
  | echo => rfl
  | added conduct => exact absurd rfl (hadded conduct)
  | pwd | type | exit =>
    simp only [Builtin.answer]
    exact withArguments_withHistory fun _ => rfl
  | cd =>
    simp only [Builtin.answer]
    exact withArguments_withHistory fun _ => runCd_withHistory _
  | history => exact absurd rfl hb

/-! ## Stages -/

/-- Starting a program does not depend on the history. -/
theorem startProgram_withHistory (manner : Program.Manner) (stage : Stage) (streams : Streams)
    (path : String) :
    (sh.withHistory H).startProgram manner stage streams path =
      (sh.startProgram manner stage streams path).map id (withHistory H) := by
  have htell (n : Notice) : (sh.withHistory H).tell n = (sh.tell n).withHistory H := rfl
  have hprocess (sh : Shell) : (sh.withHistory H).process = sh.process := rfl
  have hhost (sh : Shell) : (sh.withHistory H).host = sh.host := rfl
  have hinherited (sh : Shell) : (sh.withHistory H).inherited = sh.inherited := rfl
  simp only [startProgram, launch, programProcess, htell, hprocess, hhost, hinherited]
  split <;> rfl

/-- What a stage stands for does not depend on the history, nor does what becomes of it, unless it
is the builtin for the history. -/
theorem runResolved_withHistory (hown : registry.IsOwn)
    (hb : registry.lookup stage.program ≠ some .history) (manner : Program.Manner)
    (streams : Streams) :
    (sh.withHistory H).runResolved registry manner stage streams =
      (sh.runResolved registry manner stage streams).map id (withHistory H) := by
  have hresolve : (sh.withHistory H).resolve registry stage.program =
      sh.resolve registry stage.program := rfl
  have htell (n : Notice) : (sh.withHistory H).tell n = (sh.tell n).withHistory H := rfl
  rw [runResolved, runResolved, hresolve]
  split
  · next b hres =>
    have hlookup := lookup_of_resolve hres
    have hne : b ≠ .history := fun h => hb (h ▸ hlookup)
    have hadded (conduct : Invocation → Conduct) : b ≠ .added conduct := fun h =>
      hown _ conduct (h ▸ hlookup)
    simp only [htell, answer_withHistory hne hadded]
    rfl
  · exact startProgram_withHistory ..
  · rfl

end Shell

/-- Whether a stage that a process begins on a host runs the builtin for the history: it has the
name of that builtin, and its redirections can be opened. -/
def Stage.RunsHistory (registry : Registry) (stage : Stage) (p : Process) (h : Host) : Prop :=
  registry.lookup stage.program = some .history ∧
    (Streams.ofRedirections p h stage.redirections).1.valid = true

namespace Shell

variable {sh : Shell} {registry : Registry} {stage : Stage} {H : History}

/-- A stage that does not run `history` begins without the history. -/
theorem beginStage_withHistory (hown : registry.IsOwn)
    (hs : ¬stage.RunsHistory registry sh.process sh.host) (manner : Program.Manner) :
    (sh.withHistory H).beginStage registry manner stage =
      (sh.beginStage registry manner stage).map id (withHistory H) := by
  have hprocess : (sh.withHistory H).process = sh.process := rfl
  have hhost : (sh.withHistory H).host = sh.host := rfl
  simp only [beginStage, hprocess, hhost]
  rw [Stage.RunsHistory] at hs
  generalize Streams.ofRedirections sh.process sh.host stage.redirections = opened at hs ⊢
  obtain ⟨streams, h⟩ := opened
  simp only
  split
  · next hvalid =>
    have hb : registry.lookup stage.program ≠ some .history := fun hb => hs ⟨hb, hvalid⟩
    exact @runResolved_withHistory { sh with host := h } _ _ H hown hb manner streams
  · rfl

/-- A stage that is alone on its line and does not run `history` runs without the history. -/
theorem runStage_withHistory (hown : registry.IsOwn)
    (hs : ¬stage.RunsHistory registry sh.process sh.host) :
    (sh.withHistory H).runStage registry stage =
      (sh.runStage registry stage).map id (withHistory H) := by
  rw [runStage, runStage, beginStage_withHistory hown hs]
  rcases sh.beginStage registry .spawn stage with ⟨status | ⟨es, error, status⟩ | r, after⟩
  all_goals rfl

end Shell

/-! ## Processes that begin alike -/

/-- Whether processes are one, or have not begun and begin alike on the hosts that are allowed. -/
inductive Running.Alike (ok : Running → Host → Prop) : Running → Running → Prop
  | same (r : Running) : Alike ok r r
  | idle {p : Process} {begin begin' : Host → Running × Host} :
      (∀ h, ok (.idle p begin) h → begin' h = begin h) →
        Alike ok (.idle p begin) (.idle p begin')

/-- Processes that begin alike where it is allowed take the same steps, which leave ends of what was
on standard input. -/
theorem Schedule.twins_alike (ok : Running → Host → Prop) (bs : Bytes) :
    Twins ok (fun r r' => r.Leaves bs ∧ r.Alike ok r') fun h => h.input <:+ bs where
  held hh _ := hh
  signals hh _ := hh
  endings hh _ := hh
  clock hh _ := hh
  process := by
    rintro r r' ⟨-, ⟨⟩ | ⟨⟩⟩ <;> rfl
  handles := by
    rintro r r' ⟨-, ⟨⟩ | ⟨⟩⟩ <;> rfl
  time := by
    rintro r r' ⟨-, ⟨⟩ | ⟨⟩⟩ <;> rfl
  receive := by
    rintro r r' ⟨hr, halike⟩ n
    refine ⟨hr.receive n, ?_⟩
    cases halike with
    | same => exact .same _
    | @idle p _ _ hbegin =>
      have hreceive (b : Host → Running × Host) : (Running.idle p b).receive n =
          if n ≠ Script.Signal.kill && (p.ignored.contains n || Script.Signal.isHarmless n)
          then .idle p b else .ending p (.signalled n) := rfl
      rw [hreceive, hreceive]
      split
      · exact .idle hbegin
      · exact .same _
  step := by
    rintro r r' h ⟨hr, halike⟩ hh hok
    refine ⟨?_, (Running.leaves_step hr hh).imp fun r hr => ⟨hr.leaves bs, .same r⟩⟩
    cases halike with
    | same => rfl
    | idle hbegin => simp only [Running.step, hbegin h hok]

namespace Pipeline

variable {sh : Shell} {registry : Registry} {H : History} {bs : Bytes}

/-- The stages of a pipeline with their processes. -/
def members (sh : Shell) (registry : Registry) (stages : List Stage) : List (Stage × Process) :=
  stages.zip ((start sh registry stages).processes.map Running.process)

/-- Whether a process that begins on a host does not run the builtin for the history, given the
stages of the pipeline with their processes. -/
def Spares (registry : Registry) (members : List (Stage × Process)) (r : Running) (h : Host) :
    Prop :=
  ∀ begin, ∀ member ∈ members, r = .idle member.2 begin →
    ¬member.1.RunsHistory registry member.2 h

/-- The process of a stage begins without the history where it does not run `history`. -/
theorem alike_child (hown : registry.IsOwn) {members : List (Stage × Process)} {stage : Stage}
    {process : Process} (hmem : (stage, process) ∈ members) :
    (child sh registry stage process).Alike (Spares registry members)
      (child (sh.withHistory H) registry stage process) := by
  refine .idle fun h hspares => ?_
  have hs : ¬stage.RunsHistory registry process h := hspares _ _ hmem rfl
  have hbegin : (Shell.withHistory H { sh with process := process, host := h }).beginStage registry
      .replace stage = ({ sh with process := process, host := h }.beginStage registry .replace
        stage).map id (Shell.withHistory H) :=
    Shell.beginStage_withHistory hown hs .replace
  simp only [Shell.withHistory] at hbegin ⊢
  rw [hbegin]
  generalize Shell.beginStage _ registry .replace stage = x
  obtain ⟨status | ⟨es, error, status⟩ | r, after⟩ := x <;> rfl

/-- The processes of a pipeline begin without the history where they do not run `history`. -/
theorem alike_children (hown : registry.IsOwn) {members : List (Stage × Process)} {driver : Nat}
    {stages : List Stage} {ds : List Descriptors} {h : Host} (hmem : ∀ member ∈
      stages.zip ((children sh registry driver (stages.zip ds) h).1.map Running.process),
        member ∈ members) :
    List.Forall₂ (fun r r' => r.Leaves bs ∧ r.Alike (Spares registry members) r')
        (children sh registry driver (stages.zip ds) h).1
        (children (sh.withHistory H) registry driver (stages.zip ds) h).1 ∧
      (children (sh.withHistory H) registry driver (stages.zip ds) h).2 =
        (children sh registry driver (stages.zip ds) h).2 := by
  induction stages generalizing ds h with
  | nil => exact ⟨.nil, rfl⟩
  | cons stage stages ih =>
    cases ds with
    | nil => exact ⟨.nil, rfl⟩
    | cons d ds =>
      simp only [List.zip_cons_cons, children, List.map_cons, List.forall_mem_cons] at hmem ⊢
      obtain ⟨hrest, hhost⟩ := ih hmem.2
      exact ⟨.cons ⟨leaves_child _ _ _ _ _, alike_child hown hmem.1⟩ hrest, hhost⟩

/-- Making the pipes of a pipeline leaves standard input alone. -/
theorem input_wired (driver : Descriptors) (input : Option Nat) (h : Host) (more : Nat) :
    (Wired.stages driver input h more).host.input = h.input := by
  induction more generalizing driver input h with
  | zero => rfl
  | succ more ih => exact (ih ..).trans h.input_newPipe

/-- Making the processes of a pipeline leaves standard input alone. -/
theorem input_children (sh : Shell) (registry : Registry) (driver : Nat)
    (members : List (Stage × Descriptors)) (h : Host) :
    (children sh registry driver members h).2.input = h.input := by
  induction members generalizing h with
  | nil => rfl
  | cons member members ih => exact (ih _).trans h.input_newProcess

/-- Whether the stages of a pipeline do not run the builtin for the history in any step. -/
def SparesHistory (sh : Shell) (registry : Registry) (stages : List Stage) : Prop :=
  let started := start sh registry stages
  Schedule.AllSteps (Spares registry (members sh registry stages)) started.own started.processes
    started.host

/-- Whether the processes of a pipeline come to their end. -/
def Finishes (sh : Shell) (registry : Registry) (stages : List Stage) : Prop :=
  let started := start sh registry stages
  Schedule.Ends started.own (started.processes.map fun r => r.process.number) started.processes
    started.host

/-- What can be said of a pipeline that was made in a shell and in one with another history. -/
structure StartsAlike (sh : Shell) (registry : Registry) (H : History) (stages : List Stage) :
    Prop where
  own : (start (sh.withHistory H) registry stages).own = (start sh registry stages).own
  processes : List.Forall₂
    (fun r r' => r.Leaves sh.host.input ∧
      r.Alike (Spares registry (members sh registry stages)) r')
    (start sh registry stages).processes (start (sh.withHistory H) registry stages).processes
  numbers : ((start (sh.withHistory H) registry stages).processes.map fun r => r.process.number) =
    (start sh registry stages).processes.map fun r => r.process.number
  host : (start (sh.withHistory H) registry stages).host = (start sh registry stages).host
  input : (start sh registry stages).host.input <:+ sh.host.input

/-- Pipelines start without the history. -/
theorem startsAlike (hown : registry.IsOwn) (sh : Shell) (H : History) (stages : List Stage) :
    StartsAlike sh registry H stages := by
  have hmem : ∀ member ∈ members sh registry stages, member ∈ members sh registry stages :=
    fun _ h => h
  obtain ⟨hprocesses, hhost⟩ := alike_children (H := H) hown hmem
  have hnumbers := (Schedule.twins_alike _ sh.host.input).map_number hprocesses
  refine ⟨rfl, hprocesses, hnumbers, hhost, ?_⟩
  simp [start, input_children, Wired.ofStages, input_wired]

/-- A pipeline that does not run `history` runs without the history, and leaves an end of what was
on standard input. -/
theorem run_withHistory (hown : registry.IsOwn) {stages : List Stage}
    (hspares : SparesHistory sh registry stages)
    (hends : Finishes sh registry stages) :
    run (sh.withHistory H) registry stages =
        (run sh registry stages).map id (Shell.withHistory H) ∧
      (run sh registry stages).2.host.input <:+ sh.host.input := by
  obtain ⟨hsame, hprocesses, hnumbers, hhost, hinput⟩ := startsAlike hown sh H stages
  obtain ⟨heq, hleft⟩ :=
    (Schedule.twins_alike _ sh.host.input).run_eq hprocesses hinput hspares hends
  have htaken (numbers : List Nat) (h : Host) :
      (numbers.foldl (fun h n => (Host.takeEnding h n).2) h).input = h.input :=
    List.foldlRecOn (motive := fun (g : Host) => g.input = h.input) numbers _ rfl
      fun g hg n _ => (g.input_takeEnding n).trans hg
  rw [run, run, hsame, hhost, hnumbers, heq, collect, collect]
  refine ⟨rfl, ?_⟩
  simpa [collect, htaken] using hleft

/-- Whether a pipeline that does not run `history` comes to its end does not depend on the
history. -/
theorem finishes_withHistory (hown : registry.IsOwn) {stages : List Stage}
    (hspares : SparesHistory sh registry stages) :
    Finishes (sh.withHistory H) registry stages ↔ Finishes sh registry stages := by
  obtain ⟨hsame, hprocesses, hnumbers, hhost, hinput⟩ := startsAlike hown sh H stages
  rw [Finishes, Finishes, hsame, hhost, hnumbers]
  exact (Schedule.twins_alike _ sh.host.input).ends_iff hprocesses hinput hspares

end Pipeline

namespace Shell

variable {sh : Shell} {registry : Registry} {H : History}

/-! ## Lines -/

/-- Whether the stages of a line do not run the builtin for the history, alone on their line or in
the steps of a pipeline. -/
def SparesHistory (sh : Shell) (registry : Registry) : List Stage → Prop
  | [] => True
  | [stage] => ¬stage.RunsHistory registry sh.process sh.host
  | stages => Pipeline.SparesHistory sh registry stages

/-- Whether the programs of a line come to their end. -/
def Finishes (sh : Shell) (registry : Registry) : List Stage → Prop
  | [] => True
  | [stage] => ∀ r after, sh.beginStage registry .spawn stage = (.running r, after) →
    Schedule.Ends after.process.descriptors.handles [r.process.number] [r] after.host
  | stages => Pipeline.Finishes sh registry stages

/-- A stage whose program comes to its end leaves an end of what was on standard input. -/
theorem input_runStage {stage : Stage} (hends : sh.Finishes registry [stage]) :
    (sh.runStage registry stage).2.host.input <:+ sh.host.input := by
  have hbegin := sh.leaves_beginStage registry .spawn stage
  rw [runStage]
  rcases hb : sh.beginStage registry .spawn stage with
    ⟨status | ⟨es, error, status⟩ | r, after⟩
  all_goals
    rw [hb] at hbegin
    have hinput : after.host.input <:+ sh.host.input := hbegin.1 ▸ List.suffix_refl _
  · exact hinput
  · simpa using hinput
  · have hr : r.Leaves sh.host.input := (hbegin.2 r rfl).leaves _
    have hrun := (Schedule.twins_alike (fun _ _ => True) sh.host.input).run_eq
      (.cons ⟨hr, .same r⟩ .nil) hinput (fun _ _ _ => trivial) (hends r after hb)
    simpa [finish] using hrun.2

/-- A line that does not run the builtin for the history runs without it, and leaves an end of what
was on standard input. -/
theorem run_withHistory (hown : registry.IsOwn) {stages : List Stage}
    (hspares : sh.SparesHistory registry stages)
    (hends : sh.Finishes registry stages) :
    (sh.withHistory H).run registry stages =
        (sh.run registry stages).map id (withHistory H) ∧
      (sh.run registry stages).2.host.input <:+ sh.host.input := by
  match stages with
  | [] => exact ⟨rfl, List.suffix_refl _⟩
  | [stage] => exact ⟨runStage_withHistory hown hspares, input_runStage hends⟩
  | _ :: _ :: _ => exact Pipeline.run_withHistory hown hspares hends

/-- Whether a line that does not run the builtin for the history comes to its end does not depend on
the history. -/
theorem finishes_withHistory (hown : registry.IsOwn) {stages : List Stage}
    (hspares : sh.SparesHistory registry stages) :
    (sh.withHistory H).Finishes registry stages ↔ sh.Finishes registry stages := by
  match stages with
  | [] => exact Iff.rfl
  | [stage] =>
    have hbegin := beginStage_withHistory (H := H) hown hspares .spawn
    simp only [Finishes, hbegin]
    rcases sh.beginStage registry .spawn stage with ⟨progress, after⟩
    refine forall_congr' fun r => ?_
    constructor
    · rintro hends _ ⟨⟩
      exact hends (after.withHistory H) rfl
    · rintro hends _ ⟨⟩
      exact hends after rfl
  | _ :: _ :: _ => exact Pipeline.finishes_withHistory hown hspares

/-! ## Lines that do not name the builtin -/

/-- A line whose commands are not called as the builtin for the history does not run it. -/
theorem sparesHistory_of_lookup {stages : List Stage}
    (h : ∀ stage ∈ stages, registry.lookup stage.program ≠ some .history) :
    sh.SparesHistory registry stages := by
  match stages with
  | [] => trivial
  | [stage] => exact fun hruns => h stage List.mem_cons_self hruns.1
  | _ :: _ :: _ =>
    rintro n ⟨r, host⟩ - begin member hmem - hruns
    exact h member.1 (List.of_mem_zip hmem).1 hruns.1

/-- A builtin that is alone on its line comes to its end. -/
theorem finishes_of_builtin {stage : Stage} {b : Builtin}
    (hb : registry.lookup stage.program = some b) : sh.Finishes registry [stage] := by
  intro r after hbegin
  have hresolve (sh : Shell) : sh.resolve registry stage.program = .builtin b := by
    rw [resolve, hb]
  simp only [beginStage] at hbegin
  split at hbegin
  · rw [runResolved, hresolve] at hbegin
    cases hbegin
  · cases hbegin

/-- A program that is launched alone on its line and comes to its end lets the line come to its
end. -/
theorem finishes_of_launch {begun : Shell} {stage : Stage} {path : String} {r : Running} {h : Host}
    (hbegins : sh.Begins registry .spawn stage (.program path))
    (hbegun : sh.starting stage path = begun)
    (hlaunch : begun.launch .spawn stage (sh.streamsOf stage) path = .ok (r, h))
    (hends : Schedule.Ends begun.process.descriptors.handles [r.process.number] [r] h) :
    sh.Finishes registry [stage] := by
  subst hbegun
  intro r' after hbegin
  cases hbegins with
  | program _ _ hstart =>
  rw [starting] at hlaunch
  rw [hstart] at hbegin
  simp only [startProgram, hlaunch] at hbegin
  cases hbegin
  exact hends

end Shell

end CommandShell
