import Mathlib
import CommandShell.Proofs.File.Canonical
import CommandShell.Proofs.File.Shape
import CommandShell.Proofs.Session.Kept
import CommandShell.Proofs.Stage.Storing

/-!
# The working directory

A shell has its working directory twice: its environment shows a path, and its process is at a
location. Only a `cd` that is alone on its line changes either, and it changes both or none:
`Shell.change` says to what, from the shell before the line. So the path remains the canonical one
of the location, whatever lines are run, as long as no directory goes.
-/

namespace CommandShell

/-! ## Redirections -/

theorem FileSystem.alike_prepare (fs : FileSystem) (directory : Location)
    (rs : List Redirection) : fs.Alike (fs.prepare directory rs).files := by
  induction rs generalizing fs with
  | nil => exact .refl fs
  | cons r rs ih =>
    rw [prepare]
    split
    · exact ih fs
    · split
      · exact .refl fs
      · next ho => exact (alike_of_opened ho).trans (ih _)

/-- Whether all redirections can be opened does not depend on what files hold. -/
theorem FileSystem.SameShape.prepare {fs fs' : FileSystem} (h : fs.SameShape fs')
    (directory : Location) (rs : List Redirection) :
    (fs.prepare directory rs).complete = (fs'.prepare directory rs).complete ∧
      (fs.prepare directory rs).files.SameShape (fs'.prepare directory rs).files := by
  induction rs generalizing fs fs' with
  | nil => exact ⟨rfl, h⟩
  | cons r rs ih =>
    rw [FileSystem.prepare, FileSystem.prepare]
    split
    · exact ih h
    rcases ho : fs.opened directory r.path r.append with e | ⟨l, gs⟩
    · rcases ho' : fs'.opened directory r.path r.append with e' | ⟨l, gs⟩
      · exact ⟨rfl, h⟩
      · obtain ⟨gs', hopened, -⟩ := h.symm.opened ho'
        rw [ho] at hopened
        cases hopened
    · obtain ⟨gs', ho', hshape⟩ := h.opened ho
      rw [ho']
      exact ih hshape

/-- Streams remain valid if redirections can be opened on top of them, and the files are then of the
shape that opening them leaves. -/
theorem Streams.openFrom_shape (p : Process) {s : Streams} (h : Host) (rs : List Redirection)
    (hvalid : s.valid = true) :
    (openFrom p s h rs).1.valid = (h.files.prepare p.directory rs).complete ∧
      (h.files.prepare p.directory rs).files.SameShape (openFrom p s h rs).2.files := by
  induction rs generalizing s h with
  | nil => exact ⟨hvalid, .refl _⟩
  | cons r rs ih =>
    rw [openFrom, FileSystem.prepare]
    split
    · -- A notice may go to a file, but leaves the shape of the files.
      obtain ⟨hcomplete, hshape⟩ := (p.sameShape_tell h (skipped r)).prepare p.directory rs
      obtain ⟨hvalid', hshape'⟩ := ih (p.tell h (skipped r)) hvalid
      exact ⟨hvalid'.trans hcomplete.symm, hshape.trans hshape'⟩
    rw [Host.openFile_eq]
    rcases h.files.opened p.directory r.path r.append with e | ⟨l, fs⟩
    · exact ⟨rfl, p.sameShape_complain h _⟩
    · have hvalid' : (s.redirect r.target (.file h.openFiles.length)).valid = true := by
        cases r.target <;> exact hvalid
      exact ih _ hvalid'

/-- The streams of a stage are valid if its redirections can be opened. -/
theorem Streams.ofRedirections_shape (p : Process) (h : Host) (rs : List Redirection) :
    (ofRedirections p h rs).1.valid = (h.files.prepare p.directory rs).complete ∧
      (h.files.prepare p.directory rs).files.SameShape (ofRedirections p h rs).2.files :=
  openFrom_shape p h rs rfl

namespace Shell

variable {sh sh' : Shell} {registry : Registry} {stage : Stage} {arguments : List String}

/-! ## Both copies of the working directory -/

/-- Whether the environment shows the directory of the process, by its canonical path. -/
structure Synced (sh : Shell) : Prop where
  currentDirectory : sh.environment.currentDirectory = sh.process.directory.path
  isCanonical : sh.host.files.IsCanonical sh.process.directory

/-- Whether a shell has both copies of the working directory from another. -/
structure Stays (sh sh' : Shell) : Prop where
  directory : sh'.process.directory = sh.process.directory
  currentDirectory : sh'.environment.currentDirectory = sh.environment.currentDirectory

theorem frames_stays : Frames Stays :=
  ⟨fun _ _ => ⟨rfl, rfl⟩, fun h h' =>
    ⟨h'.directory.trans h.directory, h'.currentDirectory.trans h.currentDirectory⟩⟩

/-- A line leaves the working directory alone, unless it is a single `cd`. -/
theorem stays_run (hown : registry.IsOwn) {stages : List Stage}
    (h : ∀ stage, stages = [stage] → registry.lookup stage.program ≠ some .cd) (sh : Shell) :
    sh.Stays (sh.run registry stages).2 := by
  -- Of the builtins that change the shell itself, only `cd` touches the working directory.
  refine frames_stays.run ?_ sh
  intro stage hstages b hb sh streams
  refine frames_stays.answer ?_ ?_ ⟨rfl, rfl⟩ ?_ registry streams
  · rintro conduct rfl
    exact absurd hb (hown _ conduct)
  · rintro rfl
    exact absurd hb (h stage hstages)
  · exact fun _ a _ _ count => frames_stays.runHistory (fun _ _ => ⟨rfl, rfl⟩) sh _ _ _ count

/-! ## What a `cd` comes to -/

/-- What a `cd` comes to. -/
inductive Change
  /-- The working directory becomes the one at a location. -/
  | move (l : Location)
  /-- Help is shown. -/
  | help
  /-- Something is wrong, and said. -/
  | refusal
  deriving DecidableEq

/-- The status of a `cd`. -/
def Change.status : Change → Status
  | move _ | help => 0
  | refusal => 1

/-- The directory that a `cd` to a target leads to, if there is one. -/
def destination? (sh : Shell) (target : Option String) : Option Location :=
  (cdTarget sh.environment target).toOption.bind fun path =>
    (sh.host.files.canonicalDirectory (Path.join sh.environment.currentDirectory path)).toOption

/-- What a `cd` with the given arguments comes to. -/
def changeFor (sh : Shell) (arguments : List String) : Change :=
  match Grammar.cd.read arguments with
  | .error _ => .refusal
  | .ok a =>
    if a.help then .help
    else
      match sh.destination? a.positionals.head? with
      | some l => .move l
      | none => .refusal

/-- What a stage of `cd` comes to, once its redirections were opened. -/
def change (sh : Shell) (stage : Stage) : Change :=
  if (sh.host.files.prepare sh.process.directory stage.redirections).complete then
    sh.changeFor (stage.arguments.drop 1)
  else .refusal

/-- The shell with what a `cd` comes to. -/
def changed (sh : Shell) : Change → Shell
  | .move l => { sh with
      environment := { sh.environment with currentDirectory := l.path }
      process := { sh.process with directory := l } }
  | .help | .refusal => sh

theorem changed_host (sh : Shell) (h : Host) (c : Change) :
    ({ sh with host := h } : Shell).changed c = { sh.changed c with host := h } := by
  cases c <;> rfl

/-- Whether both copies are at the location that a `cd` leads to, which is canonical, or as they
were. -/
def Follows (sh : Shell) (c : Change) (sh' : Shell) : Prop :=
  match c with
  | .move l => sh'.process.directory = l ∧ sh'.environment.currentDirectory = l.path ∧
      sh'.host.files.IsCanonical l
  | .help | .refusal => sh.Stays sh'

theorem destination?_eq_some_iff {target : Option String} {l : Location} :
    sh.destination? target = some l ↔ ∃ path, cdTarget sh.environment target = .ok path ∧
      sh.host.files.canonicalDirectory (Path.join sh.environment.currentDirectory path) = .ok l := by
  rw [destination?, Option.bind_eq_some_iff]
  have htoOption {ε α : Type} (x : Except ε α) (v : α) : x.toOption = some v ↔ x = .ok v := by
    cases x <;> simp [Except.toOption]
  simp only [htoOption]

/-- A stage of `cd` goes somewhere if its redirections can be opened, its arguments ask for a path
and not for help, and that path, as seen from the working directory, is one of a directory. -/
theorem change_eq_move_iff {l : Location} :
    sh.change stage = .move l ↔
      (sh.host.files.prepare sh.process.directory stage.redirections).complete = true ∧
      ∃ a path, Grammar.cd.read (stage.arguments.drop 1) = .ok a ∧ a.help = false ∧
        cdTarget sh.environment a.positionals.head? = .ok path ∧
        sh.host.files.canonicalDirectory (Path.join sh.environment.currentDirectory path) =
          .ok l := by
  rw [change, changeFor]
  rcases (sh.host.files.prepare sh.process.directory stage.redirections).complete with _ | _
  · simp
  rcases Grammar.cd.read (stage.arguments.drop 1) with e | a
  · simp
  rcases hhelp : a.help with _ | _
  · have hmove : (match sh.destination? a.positionals.head? with
        | some l => Change.move l
        | none => .refusal) = .move l ↔ sh.destination? a.positionals.head? = some l := by
      cases sh.destination? a.positionals.head? <;> simp
    simp only [↓reduceIte, hhelp, Bool.false_eq_true, hmove, destination?_eq_some_iff]
    simp [hhelp]
  · simp [hhelp]

/-- Where a `cd` leads does not depend on which files there are. -/
theorem destination?_host {h : Host} (hfiles : sh.host.files.Alike h.files)
    (target : Option String) :
    ({ sh with host := h } : Shell).destination? target = sh.destination? target := by
  simp only [destination?, hfiles.toOption_canonicalDirectory]

/-- What a `cd` comes to does not depend on which files there are. -/
theorem changeFor_host {h : Host} (hfiles : sh.host.files.Alike h.files) (arguments : List String) :
    ({ sh with host := h } : Shell).changeFor arguments = sh.changeFor arguments := by
  simp only [changeFor, destination?_host hfiles]

/-- What a stage of `cd` comes to does not depend on what files hold. -/
theorem change_host {h : Host} (hfiles : sh.host.files.SameShape h.files) (stage : Stage) :
    ({ sh with host := h } : Shell).change stage = sh.change stage := by
  rw [change, change, changeFor_host hfiles.alike,
    (hfiles.prepare sh.process.directory stage.redirections).1]

/-- A `cd` to a target leads to its directory, or fails without a change. -/
theorem runCd_cases (sh : Shell) (target : Option String) :
    (∃ l, sh.destination? target = some l ∧
        sh.runCd target = (.ok .silent, sh.changed (.move l))) ∨
      ∃ e, sh.destination? target = none ∧ sh.runCd target = (.error e, sh) := by
  rw [runCd, destination?]
  rcases cdTarget sh.environment target with e | path
  · exact .inr ⟨e, rfl, rfl⟩
  · rcases hc : sh.host.files.canonicalDirectory
      (Path.join sh.environment.currentDirectory path) with e | l
    · exact .inr ⟨.cannotChange (target.getD "~") e, by simp [Except.toOption, hc], by simp [hc]⟩
    · exact .inl ⟨l, by simp [Except.toOption, hc], by simp [hc, changed]⟩

/-- A `cd` changes the shell to what it comes to, and passes over failures to write. -/
theorem answer_cd (sh : Shell) (registry : Registry) (arguments : List String) (streams : Streams) :
    ∃ es, Builtin.cd.answer registry arguments streams sh =
        ⟨sh.changed (sh.changeFor (arguments.drop 1)), es,
          some (sh.changeFor (arguments.drop 1)).status⟩ ∧
      ∀ e ∈ es, e.care = .ignore := by
  have hcare (x : Channel × String) :
      (Builtin.emission sh streams (some "cd") .ignore x).care = .ignore := by
    rw [Builtin.emission]
    split <;> rfl
  rw [Builtin.answer, Builtin.withArguments, changeFor]
  rcases Grammar.cd.read (arguments.drop 1) with e | a
  · exact ⟨_, rfl, by simp [hcare]⟩
  rcases hhelp : a.help with _ | _
  · obtain ⟨l, hl, hrun⟩ | ⟨e, hl, hrun⟩ := sh.runCd_cases a.positionals.head?
    · exact ⟨[], by simp [hhelp, hl, hrun, Report.silent, Change.status], by simp⟩
    · simp only [hhelp, hl, hrun, Bool.false_eq_true, ↓reduceIte]
      exact ⟨_, rfl, by simp [hcare]⟩
  · simp only [hhelp, ↓reduceIte]
    exact ⟨_, rfl, by simp [hcare]⟩

/-- A `cd` on open streams has changed the shell and has its texts to write. -/
theorem runResolved_cd (sh : Shell) (hcd : registry.lookup stage.program = some .cd)
    (streams : Streams) :
    ∃ es error told, sh.runResolved registry .spawn stage streams =
        (.writing es error (sh.changeFor (stage.arguments.drop 1)).status,
          { sh.changed (sh.changeFor (stage.arguments.drop 1)) with host := told }) ∧
      (∀ e ∈ es, e.care = .ignore) ∧ sh.host.files.SameShape told.files := by
  have hresolve : sh.resolve registry stage.program = .builtin .cd := by
    rw [resolve, hcd]
  have hshape := sh.process.sameShape_tell sh.host
    (.ofStages .trace "running builtin" [("program", Notice.quoted stage.program)])
  obtain ⟨es, hanswer, hcare⟩ :=
    answer_cd (sh.tell (.ofStages .trace "running builtin"
      [("program", Notice.quoted stage.program)])) registry stage.arguments streams
  rw [tell, changeFor_host hshape.alike, changed_host] at hanswer
  refine ⟨es, streams.errorHandle (sh.changed (sh.changeFor (stage.arguments.drop 1))).process, _,
    ?_, hcare, hshape⟩
  simp only [runResolved, hresolve, tell, hanswer, Option.getD_some]

/-- A `cd` that is alone on its line changes the shell to what it comes to, with no other change
than of the host, whose files keep the shape that opening its redirections leaves. -/
theorem run_cd (sh : Shell) (hcd : registry.lookup stage.program = some .cd) :
    ∃ h, sh.run registry [stage] =
        ((sh.change stage).status, { sh.changed (sh.change stage) with host := h }) ∧
      (sh.host.files.prepare sh.process.directory stage.redirections).files.SameShape h.files := by
  obtain ⟨hvalid, hshape⟩ := Streams.ofRedirections_shape sh.process sh.host stage.redirections
  rcases hopen : Streams.ofRedirections sh.process sh.host stage.redirections with ⟨streams, g⟩
  rw [hopen] at hvalid hshape
  have halike := (sh.host.files.alike_prepare sh.process.directory stage.redirections).trans
    hshape.alike
  have hbegin : sh.beginStage registry .spawn stage =
      if streams.valid then ({ sh with host := g } : Shell).runResolved registry .spawn stage streams
      else (.ended .failed, { sh with host := g }) := by
    rw [beginStage, hopen]
  rw [run, runStage, hbegin, hvalid, change]
  rcases hcomplete : (sh.host.files.prepare sh.process.directory stage.redirections).complete with _ | _
  · -- The `cd` is refused before it is tried.
    exact ⟨g, rfl, hshape⟩
  -- What it comes to was said of the shell before its redirections were opened, which makes no
  -- difference to where it leads.
  obtain ⟨es, error, told, hresolved, hcare, hshape'⟩ :=
    runResolved_cd { sh with host := g } hcd streams
  rw [changeFor_host halike, changed_host] at hresolved
  simp only [↓reduceIte, hresolved]
  obtain ⟨h, hwritten, hshape''⟩ := Emission.writeAll_ignore _ error hcare told
  rw [hwritten]
  exact ⟨h, rfl, hshape.trans (hshape'.trans hshape'')⟩

/-- Where a `cd` leads to is canonical. -/
theorem isCanonical_of_change {l : Location} (h : sh.change stage = .move l) :
    sh.host.files.IsCanonical l := by
  obtain ⟨-, a, path, -, -, -, hc⟩ := change_eq_move_iff.mp h
  exact FileSystem.isCanonical_of_canonicalDirectory hc

/-- A shell with what a `cd` comes to has both copies at the location that it leads to, or as they
were. -/
theorem follows_changed {h : Host} (halike : sh.host.files.Alike h.files) (stage : Stage) :
    sh.Follows (sh.change stage) { sh.changed (sh.change stage) with host := h } := by
  rcases hchange : sh.change stage with l | _ | _
  · exact ⟨rfl, rfl, (isCanonical_of_change hchange).keep halike.keepsDirectories⟩
  · exact ⟨rfl, rfl⟩
  · exact ⟨rfl, rfl⟩

/-- Where both copies stay and no directory goes, they still agree. -/
theorem Synced.of_stays (h : sh.Synced) (hstays : sh.Stays sh')
    (hkeeps : sh.host.files.KeepsDirectories sh'.host.files) : sh'.Synced := by
  constructor
  · rw [hstays.currentDirectory, hstays.directory, h.currentDirectory]
  · rw [hstays.directory]
    exact h.isCanonical.keep hkeeps

/-- Both copies agree where a `cd` leads to. -/
theorem Follows.synced {c : Change} (hfollows : sh.Follows c sh') (h : sh.Synced)
    (hkeeps : sh.host.files.KeepsDirectories sh'.host.files) : sh'.Synced := by
  cases c with
  | move l =>
    obtain ⟨rfl, hcurrent, hcanonical⟩ := hfollows
    exact ⟨hcurrent, hcanonical⟩
  | help | refusal => exact h.of_stays hfollows hkeeps

end Shell

namespace Session

variable {s : Session} {line : String} {stage : Stage}

/-! ## Lines -/

/-- Notices change nothing but the host, and leave the shape of its files. -/
theorem foldl_tell_host {α : Type} (sh : Shell) (ns : List α) (notice : α → Notice) :
    ∃ h, ns.foldl (fun sh n => Shell.tell sh (notice n)) sh = { sh with host := h } ∧
      sh.host.files.SameShape h.files := by
  induction ns generalizing sh with
  | nil => exact ⟨sh.host, rfl, .refl _⟩
  | cons n ns ih =>
    obtain ⟨h, heq, hshape⟩ := ih (sh.tell (notice n))
    exact ⟨h, heq, (sh.process.sameShape_tell sh.host (notice n)).trans hshape⟩

/-- A line is run by the shell of the session; what is told before and after leaves the shape of the
files. -/
theorem evaluate_eq (s : Session) (line : String) :
    ∃ g h, s.shell.host.files.SameShape g.files ∧
      let ran := ({ s.shell with host := g } : Shell).run s.registry (parse line)
      s.evaluate line = (ran.1, { s with shell := { ran.2 with host := h } }) ∧
      ran.2.host.files.SameShape h.files := by
  obtain ⟨g, htold, hshape⟩ := foldl_tell_host s.shell (notices line) LineNotice.notice
  simp only [evaluate, htold, Shell.evaluate]
  exact ⟨_, _, hshape.trans (s.shell.process.sameShape_tell g _), rfl,
    Process.sameShape_tell _ _ _⟩

/-- A line that is a single `cd` changes the shell to what it comes to. -/
theorem evaluate_cd (hline : parse line = [stage])
    (hcd : s.registry.lookup stage.program = some .cd) :
    ∃ h, s.evaluate line = ((s.shell.change stage).status,
        { s with shell := { s.shell.changed (s.shell.change stage) with host := h } }) ∧
      (s.shell.host.files.prepare s.shell.process.directory stage.redirections).files.SameShape
        h.files := by
  obtain ⟨g, h, hshape, heq, hshape'⟩ := s.evaluate_eq line
  obtain ⟨g', hrun, hopened⟩ := Shell.run_cd { s.shell with host := g } hcd
  have hprepared := (hshape.prepare s.shell.process.directory stage.redirections).2
  rw [Shell.change_host hshape, Shell.changed_host] at hrun
  simp only [hline, hrun] at heq hshape'
  exact ⟨h, heq, hprepared.trans (hopened.trans hshape')⟩

/-- A single `cd` keeps all directories and links. -/
theorem alike_evaluate_cd (hline : parse line = [stage])
    (hcd : s.registry.lookup stage.program = some .cd) :
    s.shell.host.files.Alike (s.evaluate line).2.shell.host.files := by
  obtain ⟨h, heq, hshape⟩ := evaluate_cd hline hcd
  rw [heq]
  exact (s.shell.host.files.alike_prepare _ _).trans hshape.alike

/-- A line leaves the working directory alone, unless it is a single `cd`. -/
theorem stays_evaluate (h : ∀ stage, parse line = [stage] →
      s.registry.lookup stage.program ≠ some .cd) :
    s.shell.Stays (s.evaluate line).2.shell := by
  obtain ⟨g, h', -, heq, -⟩ := s.evaluate_eq line
  have hstays := Shell.stays_run Registry.isOwn_default h { s.shell with host := g }
  rw [heq]
  exact ⟨hstays.directory, hstays.currentDirectory⟩

/-- A single `cd` has both copies at the location that it leads to, or as they were. -/
theorem follows_evaluate_cd (hline : parse line = [stage])
    (hcd : s.registry.lookup stage.program = some .cd) :
    (s.evaluate line).1 = (s.shell.change stage).status ∧
      s.shell.Follows (s.shell.change stage) (s.evaluate line).2.shell := by
  have halike := alike_evaluate_cd hline hcd
  obtain ⟨h, heq, -⟩ := evaluate_cd hline hcd
  rw [heq] at halike ⊢
  exact ⟨rfl, Shell.follows_changed halike stage⟩

/-- Both copies agree after a line on which no directory goes. -/
theorem synced_evaluate (hsynced : s.shell.Synced)
    (hkeeps : s.shell.host.files.KeepsDirectories (s.evaluate line).2.shell.host.files) :
    (s.evaluate line).2.shell.Synced := by
  by_cases hcd : ∃ stage, parse line = [stage] ∧ s.registry.lookup stage.program = some .cd
  · obtain ⟨stage, hline, hcd⟩ := hcd
    exact (follows_evaluate_cd hline hcd).2.synced hsynced hkeeps
  · refine hsynced.of_stays (stays_evaluate ?_) hkeeps
    exact fun stage hline hlookup => hcd ⟨stage, hline, hlookup⟩

/-! ## Lines one after another -/

/-- The session after lines that were run one after another. -/
def after (s : Session) (lines : List String) : Session :=
  lines.foldl (fun s line => (s.evaluate line).2) s

/-- Whether no directory goes on any of the lines. -/
def KeepsDirectories (s : Session) : List String → Prop
  | [] => True
  | line :: lines =>
    s.shell.host.files.KeepsDirectories (s.evaluate line).2.shell.host.files ∧
      KeepsDirectories (s.evaluate line).2 lines

/-- Both copies agree after each of the lines. -/
theorem synced_after {lines : List String} (hsynced : s.shell.Synced)
    (hkeeps : s.KeepsDirectories lines) {ran : List String} (hran : ran <+: lines) :
    (s.after ran).shell.Synced := by
  induction ran generalizing s lines with
  | nil => exact hsynced
  | cons line ran ih =>
    obtain ⟨rest, rfl⟩ := hran
    exact ih (synced_evaluate hsynced hkeeps.1) hkeeps.2 (List.prefix_append ran rest)

/-- The path that the environment shows is the canonical one of the directory of the process after
every line, if it was before and no directory goes. A `cd` that is alone on its line succeeds with
both at the canonical location that it leads to, or shows help or fails with both as they were. A
`cd` that is not alone on its line leaves both as they were. -/
theorem working_directories_agree (s : Session) :
    (∀ lines, s.shell.Synced → s.KeepsDirectories lines →
      ∀ ran, ran <+: lines → (s.after ran).shell.Synced) ∧
    ∀ line,
      (∀ stage, parse line = [stage] → s.registry.lookup stage.program = some .cd →
        (s.evaluate line).1 = (s.shell.change stage).status ∧
          s.shell.Follows (s.shell.change stage) (s.evaluate line).2.shell) ∧
      (2 ≤ (parse line).length → s.shell.Stays (s.evaluate line).2.shell) := by
  refine ⟨fun lines hsynced hkeeps ran => synced_after hsynced hkeeps, ?_⟩
  intro line
  refine ⟨fun stage => follows_evaluate_cd, ?_⟩
  intro hlength
  refine stays_evaluate ?_
  intro stage hline
  rw [hline, List.length_singleton] at hlength
  omega

/-- A directory that is reached through a link, and a `cd` that is refused. -/
theorem working_directories_agree_through_link :
    let files := ((FileSystem.empty.put ["tmp"] .directory).put ["tmp", "w"] .directory).put
      ["tmp", "link"] (.link "w")
    let s : Session := .start (.start ⟨[], "/tmp", false⟩ ["tmp"] (.start files [] []))
      ⟨"$ ", none, false⟩
    let t := s.after ["cd link"]
    s.shell.Synced ∧ s.KeepsDirectories ["cd link", "cd a b"] ∧
      (s.evaluate "cd link").1 = 0 ∧ t.shell.process.directory = ["tmp", "w"] ∧ t.shell.Synced ∧
      (t.evaluate "cd a b").1 = 1 ∧ t.shell.Stays (t.evaluate "cd a b").2.shell ∧
      (s.after ["cd link", "cd a b"]).shell.Synced ∧
      t.shell.Stays (t.evaluate "cd / | cd /").2.shell := by
  intro files s t
  have hsynced : s.shell.Synced := by
    have hname : IsBareName "tmp" := ⟨by decide, by decide, by decide, by decide⟩
    exact ⟨by decide, (FileSystem.isCanonical_nil files).concat hname (by decide)⟩
  have hlink : parse "cd link" = [⟨["cd", "link"], []⟩] := by cbv
  have hbar : (parse "cd / | cd /").length = 2 := by cbv
  have hmany : parse "cd a b" = [⟨["cd", "a", "b"], []⟩] := by cbv
  have hcd : s.registry.lookup "cd" = some .cd := by cbv
  have hmove : s.shell.change ⟨["cd", "link"], []⟩ = .move ["tmp", "w"] := by
    have hread : Grammar.cd.read ["link"] = .ok ⟨false, true, [], ["link"]⟩ := by cbv
    have hroute : Route.ofPath "/tmp/link" = ⟨true, ["tmp", "link"], false⟩ := by decide
    have hwalk : files.walkByPath maxLinks [] ["tmp", "link"] false = .ok ["tmp", "w"] := by cbv
    have hjoin : Path.join "/tmp" "link" = "/tmp/link" := by decide
    have hcanonical : files.canonicalDirectory (Path.join "/tmp" "link") = .ok ["tmp", "w"] := by
      rw [hjoin, FileSystem.canonicalDirectory_eq_ok_iff, hroute]
      exact ⟨by decide, by decide, hwalk, by decide⟩
    exact Shell.change_eq_move_iff.mpr ⟨rfl, _, "link", hread, rfl, by decide, hcanonical⟩
  obtain ⟨h, heq, -⟩ := evaluate_cd hlink hcd
  have hcd' : t.registry.lookup "cd" = some .cd := by
    rw [show t = _ from congrArg Prod.snd heq]
    exact hcd
  have hrefusal : t.shell.change ⟨["cd", "a", "b"], []⟩ = .refusal := by
    have hread : Grammar.cd.read ["a", "b"] = .error (.unrecognized "b") := by cbv
    rw [Shell.change, Shell.changeFor]
    simp only [List.drop_one, List.tail_cons, hread]
    exact ite_self _
  have hkeeps : s.KeepsDirectories ["cd link", "cd a b"] :=
    ⟨(alike_evaluate_cd hlink hcd).keepsDirectories, (alike_evaluate_cd hmany hcd').keepsDirectories,
      trivial⟩
  obtain ⟨hsync, hlaw⟩ := working_directories_agree s
  obtain ⟨-, hnext⟩ := working_directories_agree t
  have hmoved := (hlaw "cd link").1 _ hlink hcd
  have hrefused := (hnext "cd a b").1 _ hmany hcd'
  rw [hmove] at hmoved
  rw [hrefusal] at hrefused
  refine ⟨hsynced, hkeeps, hmoved.1, hmoved.2.1, hsync _ hsynced hkeeps _ ?_, hrefused.1,
    hrefused.2, hsync _ hsynced hkeeps _ (List.prefix_refl _), (hnext _).2 (Nat.le_of_eq hbar.symm)⟩
  exact ⟨["cd a b"], rfl⟩

end Session

end CommandShell
