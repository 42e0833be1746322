import CommandShell.Proofs.Pipeline.Begin
import CommandShell.Proofs.Program.Twins
import CommandShell.Proofs.Session.Evolution

/-!
# What stages run

What a stage on open streams begins with is settled by what its name stands for before they are
opened, `Shell.begins_iff`, and so is what it runs when it is alone on its line,
`Shell.executes_iff`: its builtin with all that this writes, its program up to the end, or nothing.
-/

namespace CommandShell

/-! ## Opening redirections -/

namespace FileSystem

variable {fs fs' : FileSystem} {directory l : Location} {path : String} {keep : Bool}

/-- What files hold makes no difference to which of them are programs. -/
theorem SameShape.akin (h : fs.SameShape fs') : fs.Akin fs' := by
  refine ⟨h.alike, fun l => ?_⟩
  have hshape (n : Node) : n.shape.isProgram = n.isProgram := by cases n <;> rfl
  have hmap (o : Option Node) : o.any Node.isProgram = (o.map Node.shape).any Node.isProgram := by
    cases o with
    | none => rfl
    | some n => exact (hshape n).symm
  rw [hmap, h.shape l, ← hmap]

/-- Opening a path makes no program, and takes none away. -/
theorem akin_of_opened (h : fs.opened directory path keep = .ok (l, fs')) : fs.Akin fs' := by
  obtain ⟨-, ⟨hget, -, rfl⟩ | ⟨mode, content, hget, -, rfl⟩ | ⟨-, rfl⟩⟩ := opened_cases h
  · exact akin_put (isPlain_of_none hget) (by rw [hget]; rfl)
  · split
    · exact .refl fs
    · exact akin_put (isPlain_of_file hget) (by rw [hget]; rfl)
  · exact .refl _

end FileSystem

/-- Opening redirections makes no program, and takes none away. -/
theorem Streams.akin_openFrom (p : Process) (s : Streams) (h : Host) (rs : List Redirection) :
    h.files.Akin (openFrom p s h rs).2.files := by
  induction rs generalizing s h with
  | nil => exact .refl _
  | cons r rs ih =>
    rw [openFrom]
    split
    · exact (p.sameShape_tell h _).akin.trans (ih ..)
    rw [Host.openFile_eq]
    rcases ho : h.files.opened p.directory r.path r.append with e | ⟨l, fs⟩
    · exact (p.sameShape_complain h _).akin
    · refine .trans ?_ (ih _ _)
      exact FileSystem.akin_of_opened ho

/-! ## What stages begin with -/

namespace Shell

variable {sh : Shell} {registry : Registry} {stage : Stage}

/-- The shell once the redirections of a stage were opened. -/
def entered (sh : Shell) (stage : Stage) : Shell :=
  { sh with host := (Streams.ofRedirections sh.process sh.host stage.redirections).2 }

/-- What a stage on open streams begins with, by what its name is found to stand for: its builtin
writes, its program is started, or it is told on standard output that there is none. -/
inductive Begins (sh : Shell) (registry : Registry) (manner : Program.Manner) (stage : Stage) :
    Resolution → Prop
  | builtin {b : Builtin} {a : Answer} : registry.lookup stage.program = some b →
      a = b.answer registry stage.arguments (sh.streamsOf stage) (sh.opened stage) →
      sh.beginStage registry manner stage =
        (.writing a.emissions ((sh.streamsOf stage).errorHandle a.shell.process)
          (a.status.getD 0), a.shell) →
      Begins sh registry manner stage (.builtin b)
  | program {path : String} : registry.lookup stage.program = none →
      (sh.entered stage).locate stage.program = some path →
      sh.beginStage registry manner stage =
        (sh.entered stage).startProgram manner stage (sh.streamsOf stage) path →
      Begins sh registry manner stage (.program path)
  | unknown : registry.lookup stage.program = none →
      (sh.entered stage).locate stage.program = none →
      sh.beginStage registry manner stage =
        (.writing [Builtin.emission (sh.entered stage) (sh.streamsOf stage) none .ignore
          (.output, stage.program ++ ": command not found\n")] none .notFound,
          sh.entered stage) →
      Begins sh registry manner stage .unknown

/-- Opening the redirections of a stage makes no program, and takes none away. -/
theorem akin_entered (sh : Shell) (stage : Stage) :
    sh.host.files.Akin (sh.entered stage).host.files :=
  Streams.akin_openFrom ..

/-- Opening the redirections of a stage changes nothing about what names stand for. -/
theorem resolve_entered (sh : Shell) (stage : Stage) (registry : Registry) (name : String) :
    (sh.entered stage).resolve registry name = sh.resolve registry name :=
  resolve_withHost (sh.akin_entered stage) registry name

/-- A stage on open streams begins with what its name stands for before they are opened. -/
theorem begins_iff {manner : Program.Manner} {r : Resolution}
    (hvalid : (sh.streamsOf stage).valid = true) :
    sh.Begins registry manner stage r ↔ sh.resolve registry stage.program = r := by
  rw [← sh.resolve_entered stage]
  have hbegin : sh.beginStage registry manner stage =
      (sh.entered stage).runResolved registry manner stage (sh.streamsOf stage) :=
    if_pos hvalid
  constructor
  · intro h
    cases h with
    | builtin hb => simp only [resolve, hb]
    | program hnone hpath => simp only [resolve, hnone, hpath]
    | unknown hnone hpath => simp only [resolve, hnone, hpath]
  · intro hr
    rw [runResolved, hr] at hbegin
    rw [resolve] at hr
    rcases hb : registry.lookup stage.program with _ | b
    · rcases hpath : (sh.entered stage).locate stage.program with _ | path
      · simp only [hb, hpath] at hr
        subst hr
        exact .unknown hb hpath hbegin
      · simp only [hb, hpath] at hr
        subst hr
        exact .program hb hpath hbegin
    · simp only [hb] at hr
      subst hr
      exact .builtin hb rfl hbegin

/-- A stage with a builtin has to write what the builtin has, however it is run. -/
theorem beginStage_builtin {b : Builtin} (hvalid : (sh.streamsOf stage).valid = true)
    (hb : registry.lookup stage.program = some b) (manner : Program.Manner) :
    let a := b.answer registry stage.arguments (sh.streamsOf stage) (sh.opened stage)
    sh.beginStage registry manner stage =
      (.writing a.emissions ((sh.streamsOf stage).errorHandle a.shell.process)
        (a.status.getD 0), a.shell) := by
  have hbegins : sh.Begins registry manner stage (.builtin b) :=
    (begins_iff hvalid).mpr (by rw [resolve, hb])
  cases hbegins with
  | builtin _ ha hbegin => exact ha ▸ hbegin

/-- A stage that is alone and has a builtin runs it on its streams. -/
theorem runStage_builtin {b : Builtin} (hvalid : (sh.streamsOf stage).valid = true)
    (hb : registry.lookup stage.program = some b) :
    let r := b.run registry stage.arguments (sh.streamsOf stage) (sh.opened stage)
    sh.runStage registry stage = (r.1.getD 0, r.2) := by
  rw [runStage, beginStage_builtin hvalid hb, Builtin.run]
  generalize b.answer registry stage.arguments (sh.streamsOf stage) (sh.opened stage) = a
  simp only
  generalize Emission.writeAll _ _ a.emissions a.shell.host = written
  obtain ⟨_ | _, h⟩ := written <;> rfl

/-! ## What stages run -/

/-- The shell that starts the program of a stage, once it has told of it. -/
def starting (sh : Shell) (stage : Stage) (path : String) : Shell :=
  (sh.entered stage).tell (.starting stage path .spawn)

/-- What a stage on open streams comes to that is alone on its line, by what its name is found to
stand for: its builtin is run, its program runs to its end or is reported not to start, or it is
told on standard output that there is none. -/
inductive Executes (sh : Shell) (registry : Registry) (stage : Stage) : Resolution → Prop
  | builtin {b : Builtin} {status : Option Status} {after : Shell} :
      registry.lookup stage.program = some b →
      b.run registry stage.arguments (sh.streamsOf stage) (sh.opened stage) = (status, after) →
      sh.runStage registry stage = (status.getD 0, after) →
      Executes sh registry stage (.builtin b)
  | program {path : String} {r : Running} {h : Host} {e : Option Ending} {after : Shell} :
      registry.lookup stage.program = none →
      (sh.entered stage).locate stage.program = some path →
      (sh.starting stage path).launch .spawn stage (sh.streamsOf stage) path = .ok (r, h) →
      { sh.starting stage path with host := h }.finish r = (e, after) →
      sh.runStage registry stage = (↑((e.map Ending.code).getD 1), after) →
      Executes sh registry stage (.program path)
  | refused {path : String} {f : Fault} : registry.lookup stage.program = none →
      (sh.entered stage).locate stage.program = some path →
      (sh.starting stage path).launch .spawn stage (sh.streamsOf stage) path = .error f →
      sh.runStage registry stage = (126, { sh.starting stage path with
        host := sh.process.complain (sh.starting stage path).host
          (stage.program ++ ": " ++ f.brief) }) →
      Executes sh registry stage (.program path)
  | unknown {h : Host} : registry.lookup stage.program = none →
      (sh.entered stage).locate stage.program = none →
      Emission.writeAll sh.process none [Builtin.emission (sh.entered stage) (sh.streamsOf stage)
        none .ignore (.output, stage.program ++ ": command not found\n")]
        (sh.entered stage).host = (true, h) →
      sh.runStage registry stage = (127, { sh with host := h }) →
      Executes sh registry stage .unknown

/-- A program that is started runs to its end, and one that cannot be started is reported. -/
theorem executes_program {path : String} (hvalid : (sh.streamsOf stage).valid = true)
    (hnone : registry.lookup stage.program = none)
    (hpath : (sh.entered stage).locate stage.program = some path) :
    sh.Executes registry stage (.program path) := by
  have hbegins : sh.Begins registry .spawn stage (.program path) := by
    rw [begins_iff hvalid, ← sh.resolve_entered stage, resolve, hnone, hpath]
  cases hbegins with
  | program _ _ hbegin =>
  rcases hlaunch : (sh.starting stage path).launch .spawn stage (sh.streamsOf stage) path
    with f | ⟨r, h⟩
  · refine .refused hnone hpath hlaunch ?_
    rw [starting] at hlaunch
    rw [runStage, hbegin]
    simp only [startProgram, hlaunch]
    rfl
  · refine .program hnone hpath hlaunch rfl ?_
    rw [starting] at hlaunch
    rw [runStage, hbegin]
    simp only [startProgram, hlaunch]
    rfl

/-- A stage whose name stands for nothing has a status for that, whether this can be told or not. -/
theorem executes_unknown (hvalid : (sh.streamsOf stage).valid = true)
    (hnone : registry.lookup stage.program = none)
    (hpath : (sh.entered stage).locate stage.program = none) :
    sh.Executes registry stage .unknown := by
  have hbegins : sh.Begins registry .spawn stage .unknown := by
    rw [begins_iff hvalid, ← sh.resolve_entered stage, resolve, hnone, hpath]
  cases hbegins with
  | unknown _ _ hbegin =>
  have hcare : ∀ e ∈ [Builtin.emission (sh.entered stage) (sh.streamsOf stage) none .ignore
      (.output, stage.program ++ ": command not found\n")], e.care = .ignore := by
    simp [Builtin.emission]
  obtain ⟨h, hall, -⟩ := Emission.writeAll_ignore sh.process none hcare (sh.entered stage).host
  refine .unknown hnone hpath hall ?_
  have hall' : Emission.writeAll (sh.entered stage).process none _ _ = _ := hall
  simp only [runStage, hbegin, hall']
  rfl

/-- A stage on open streams runs what its name stands for before they are opened. -/
theorem executes_iff {r : Resolution} (hvalid : (sh.streamsOf stage).valid = true) :
    sh.Executes registry stage r ↔ sh.resolve registry stage.program = r := by
  rw [← sh.resolve_entered stage, resolve]
  constructor
  · intro h
    cases h with
    | builtin hb => simp only [hb]
    | program hnone hpath | refused hnone hpath | unknown hnone hpath => simp only [hnone, hpath]
  · rintro rfl
    rcases hb : registry.lookup stage.program with _ | b
    · rcases hpath : (sh.entered stage).locate stage.program with _ | path
      · exact executes_unknown hvalid hb hpath
      · exact executes_program hvalid hb hpath
    · exact .builtin hb rfl (runStage_builtin hvalid hb)

end Shell

/-! ## Programs of the system -/

/-- A program of the system is called when it is started. -/
theorem Program.start_of_tool {manner : Manner} {h : Host} {p : Process} {path : String}
    {arguments : List Script.Raw} {inherited : List (Script.Raw × Script.Raw)} {l : Location}
    {t : Tool} (hl : h.files.resolve p.directory path = .ok l)
    (hget : h.files.get? l = some (.tool t)) (hshort : isTooLong arguments inherited = false) :
    start manner h p path arguments inherited =
      .ok (call h (enter manner p) t arguments inherited) := by
  have hfind (own : List Handle) (depth : Nat) :
      tool h own p.directory depth path arguments false = .ok (t, arguments) := by
    rw [tool, examine, hl]
    simp only [bind, Except.bind, hget, Bool.false_eq_true, ↓reduceIte]
  simp only [start, hshort, hfind]
  cases manner <;> rfl

namespace Shell

variable {sh : Shell}

/-- A stage calls the program of the system that its path leads to. -/
theorem launch_of_tool {stage : Stage} {path : String} {l : Location} {t : Tool}
    (hnul : stage.arguments.any Text.hasNul = false)
    (hl : sh.host.files.resolve sh.process.directory path = .ok l)
    (hget : sh.host.files.get? l = some (.tool t))
    (hshort : Program.isTooLong (stage.arguments.map Script.Raw.ofText) sh.inherited = false)
    (manner : Program.Manner) (streams : Streams) :
    sh.launch manner stage streams path =
      .ok (Program.call (sh.programProcess manner streams).2
        (Program.enter manner (sh.programProcess manner streams).1) t
        (stage.arguments.map Script.Raw.ofText) sh.inherited) := by
  have hhost : (sh.programProcess manner streams).2.files = sh.host.files := by
    cases manner <;> rfl
  have hdirectory : (sh.programProcess manner streams).1.directory = sh.process.directory := rfl
  rw [← hhost] at hl hget
  rw [← hdirectory] at hl
  rw [launch]
  simp only [hnul, Bool.false_eq_true, ↓reduceIte]
  exact Program.start_of_tool hl hget hshort

/-- A program that ends in its first turn has ended when it was waited for. -/
theorem finish_of_turn {r : Running} {e : Ending} {ended : Host}
    (hnew : sh.host.endings.lookup r.process.number = none)
    (ht : Schedule.turn Schedule.turnLength false [] r { sh.host with
      held := sh.process.descriptors.handles ++ [r].flatMap Running.handles } =
        (none, [], true, ended))
    (hsignals : ended.signals = []) (hended : ended.endings.lookup r.process.number = some e) :
    Schedule.Ends sh.process.descriptors.handles [r.process.number] [r] sh.host ∧
      sh.finish r = (some e, { sh with
        host := (Host.takeEnding { ended with held := [] } r.process.number).2 }) := by
  have hnext := Schedule.next_of_turn hsignals ht
  have hdone : ∀ n ∈ [r.process.number], (ended.endings.lookup n).isSome = true := by
    rw [List.forall_mem_singleton, hended]
    rfl
  refine ⟨⟨1, ?_⟩, ?_⟩
  · rw [Schedule.after, Function.iterate_one, hnext]
    exact hdone
  have hgoes : ¬∀ n ∈ [r.process.number], (sh.host.endings.lookup n).isSome = true := by
    rw [List.forall_mem_singleton, hnew]
    decide
  have hrun : Schedule.run sh.process.descriptors.handles [r.process.number] [r] sh.host =
      { ended with held := [] } := by
    rw [Schedule.run, Schedule.rounds_of_not_done hgoes, hnext, Schedule.rounds_of_done hdone]
    rfl
  simp only [finish, hrun, Host.takeEnding, hended]

/-- A stage whose program was launched comes to what the program has come to in the end. -/
theorem Executes.runStage_of_launch {registry : Registry} {stage : Stage} {path : String}
    {begun after : Shell} {r : Running} {h : Host} {e : Ending}
    (hexecutes : sh.Executes registry stage (.program path))
    (hbegun : sh.starting stage path = begun)
    (hlaunch : begun.launch .spawn stage (sh.streamsOf stage) path = .ok (r, h))
    (hends : finish { begun with host := h } r = (some e, after)) :
    sh.runStage registry stage = (↑e.code, after) := by
  subst hbegun
  cases hexecutes with
  | refused _ _ hrefused => cases hlaunch.symm.trans hrefused
  | program _ _ hstarted hfinish hrun =>
    cases hstarted.symm.trans hlaunch
    cases hends.symm.trans hfinish
    exact hrun

end Shell

end CommandShell
