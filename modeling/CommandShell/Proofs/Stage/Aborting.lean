import Mathlib
import CommandShell.Proofs.Session.WorkingDirectory

/-!
# Stages that cannot open their redirections

The redirections of a stage are opened in order, and the first that cannot be opened ends the stage:
`aborts_of_failsAt` says that it ends before it is looked at what the stage stands for, that what was
opened for earlier redirections stays made or emptied, and that one line about the fault is told.
-/

namespace CommandShell

/-! ## What was opened until then -/

namespace FileSystem

variable {fs fs' fs'' : FileSystem} {directory l : Location} {path : String} {keep : Bool}
  {before : List Redirection} {r : Redirection} {e : Fault}

/-- Whether a redirection is the first of some that cannot be opened: it is one of a stream, those of
a stream before it are opened one after another, and then it fails. -/
structure FailsAt (fs : FileSystem) (directory : Location) (before : List Redirection)
    (r : Redirection) (e : Fault) : Prop where
  opens : (fs.prepare directory before).complete = true
  known : r.target ≠ .unknown
  fault : (fs.prepare directory before).files.opened directory r.path r.append = .error e

/-- What opening a path may do to the file at a location: make an empty one, or empty the one that is
there, unless what it holds is kept. -/
inductive Refreshed (fs fs' : FileSystem) (l : Location) (keep : Bool) : Prop
  | made : fs.get? l = none → fs'.get? l = some (.file Host.newFileMode []) →
      Refreshed fs fs' l keep
  | emptied {mode : Nat} {content : Bytes} : fs.get? l = some (.file mode content) →
      keep = false → fs'.get? l = some (.file mode []) → Refreshed fs fs' l keep

/-- Opening a path leaves a location alone, or makes or empties the file there. -/
theorem refreshed_of_opened {m : Location} (h : fs.opened directory path keep = .ok (m, fs'))
    (l : Location) : fs'.get? l = fs.get? l ∨ l = m ∧ fs.Refreshed fs' l keep := by
  by_cases hl : l = m
  · subst hl
    obtain ⟨-, ⟨hget, -, rfl⟩ | ⟨mode, content, hget, -, rfl⟩ | ⟨-, rfl⟩⟩ := opened_cases h
    · right
      refine ⟨rfl, .made hget ?_⟩
      rw [get?_put _ (ne_nil_of_isPlain (isPlain_of_none hget)), if_pos rfl]
    · cases keep with
      | true => exact .inl rfl
      | false =>
        right
        refine ⟨rfl, .emptied hget rfl ?_⟩
        rw [if_neg (by simp), get?_put _ (ne_nil_of_isPlain (isPlain_of_file hget)), if_pos rfl]
    · exact .inl rfl
  · exact .inl (get?_of_opened h hl)

/-- A file that was made or emptied and is opened once more was made or emptied by then. -/
theorem Refreshed.trans {keep' : Bool} (h : fs.Refreshed fs' l keep)
    (h' : fs'.Refreshed fs'' l keep') : fs.Refreshed fs'' l keep := by
  have hfile : ∃ mode, fs'.get? l = some (.file mode []) := by
    cases h with
    | made _ hget => exact ⟨_, hget⟩
    | emptied _ _ hget => exact ⟨_, hget⟩
  have hsame : fs''.get? l = fs'.get? l := by
    obtain ⟨mode, hget⟩ := hfile
    cases h' with
    | made hnone => simp [hnone] at hget
    | emptied hget' _ hget'' =>
      rw [hget'', hget]
      simp_all
  cases h with
  | made hnone hget => exact .made hnone (hsame.trans hget)
  | emptied hget hkeep hget' => exact .emptied hget hkeep (hsame.trans hget')

/-- Opening redirections leaves a location alone, or makes or empties the file there for one of them
that is of a stream and has a path that leads there. -/
theorem refreshed_prepare (fs : FileSystem) (directory : Location) (rs : List Redirection)
    (l : Location) :
    (fs.prepare directory rs).files.get? l = fs.get? l ∨ ∃ r ∈ rs, r.target ≠ .unknown ∧
      fs.resolveNew directory r.path = .ok l ∧
      fs.Refreshed (fs.prepare directory rs).files l r.append := by
  induction rs generalizing fs with
  | nil => exact .inl rfl
  | cons r rs ih =>
    rw [prepare]
    split
    · obtain hsame | ⟨r', hr', hrest⟩ := ih fs
      · exact .inl hsame
      · exact .inr ⟨r', List.mem_cons_of_mem r hr', hrest⟩
    next hknown =>
    split
    · exact .inl rfl
    next m fs' ho =>
    have hl := resolveNew_of_opened ho
    obtain hfirst | ⟨rfl, hfirst⟩ := refreshed_of_opened ho l
    · -- The first leaves the location alone, so the others decide.
      obtain hsame | ⟨r', hr', hknown', hl', hrest⟩ := ih fs'
      · exact .inl (hsame.trans hfirst)
      · right
        refine ⟨r', List.mem_cons_of_mem r hr', hknown',
          (alike_of_opened ho).symm.resolveNew_ok hl', ?_⟩
        cases hrest with
        | made hnone hget => exact .made (hfirst.symm.trans hnone) hget
        | emptied hget hkeep hget' => exact .emptied (hfirst.symm.trans hget) hkeep hget'
    · right
      refine ⟨r, List.mem_cons_self, hknown, hl, ?_⟩
      obtain hsame | ⟨r', -, -, -, hrest⟩ := ih fs'
      · cases hfirst with
        | made hnone hget => exact .made hnone (hsame.trans hget)
        | emptied hget hkeep hget' => exact .emptied hget hkeep (hsame.trans hget')
      · exact hfirst.trans hrest

end FileSystem

/-! ## What is said -/

/-- The notices of the redirections that stand for no stream. -/
def Streams.skippedAmong (rs : List Redirection) : List Notice :=
  (rs.filter (·.target = .unknown)).map skipped

namespace Process

variable {p : Process}

/-- Nothing is said by notices that are not told. -/
theorem told_eq_nil {ns : List Notice} (h : ∀ n ∈ ns, p.filter.tells n = false) :
    p.told ns = [] := by
  have hnone : ns.filter p.filter.tells = [] := by
    rw [List.filter_eq_nil_iff]
    intro n hn
    rw [h n hn]
    exact Bool.false_ne_true
  rw [told, hnone, List.flatMap_nil]

theorem told_append (p : Process) (ns ns' : List Notice) :
    p.told (ns ++ ns') = p.told ns ++ p.told ns' := by
  simp [told]

end Process

namespace Streams

variable {p : Process} {s : Streams} {h : Host} {before after : List Redirection} {r : Redirection}
  {e : Fault}

/-- Once some redirections were opened, the others are opened on top of them. -/
theorem openFrom_append (hopens : (openFrom p s h before).1.valid = true)
    (after : List Redirection) :
    openFrom p s h (before ++ after) =
      openFrom p (openFrom p s h before).1 (openFrom p s h before).2 after := by
  induction before generalizing s h with
  | nil => rfl
  | cons first before ih =>
    rw [openFrom] at hopens
    rw [List.cons_append, openFrom, openFrom]
    split
    · next hunknown =>
      rw [if_pos hunknown] at hopens
      exact ih hopens
    · next hknown =>
      rw [if_neg hknown] at hopens
      rcases ho : h.openFile p.directory first.path first.append with f | ⟨file, g⟩
      · simp [ho] at hopens
      · rw [ho] at hopens
        exact ih hopens

/-- Opening stops at the first redirection that cannot be opened, which is reported. -/
theorem openFrom_of_failsAt (hvalid : s.valid = true)
    (hfails : h.files.FailsAt p.directory before r e) (after : List Redirection) :
    openFrom p s h (before ++ r :: after) =
      ({ (openFrom p s h before).1 with valid := false },
        p.complain (openFrom p s h before).2 (r.path ++ ": " ++ e.brief)) := by
  obtain ⟨hopened, hshape⟩ := openFrom_shape p h before hvalid
  have hfault := hshape.opened_error hfails.fault
  rw [openFrom_append (hopened.trans hfails.opens), openFrom, if_neg hfails.known,
    Host.openFile_eq, hfault]
  rfl

/-- Redirections that can be opened leave the files as they are prepared, and the session's standard
error with the notices of those that were passed over. Nothing else is changed. -/
theorem openFrom_told (herror : p.descriptors.get? 2 = some .error)
    (hopens : (h.files.prepare p.directory before).complete = true) :
    ∃ openFiles error, (openFrom p s h before).2 = { h with
        files := (h.files.prepare p.directory before).files
        openFiles := openFiles
        error := error } ∧
      error.bytes = h.error.bytes ++ p.told (skippedAmong before) := by
  induction before generalizing s h with
  | nil => exact ⟨h.openFiles, h.error, rfl, by simp [skippedAmong, Process.told]⟩
  | cons first before ih =>
    rw [FileSystem.prepare] at hopens ⊢
    rw [openFrom]
    split
    · next hunknown =>
      rw [if_pos hunknown] at hopens
      obtain ⟨error, htell, hbytes⟩ := Process.tell_spec herror h (skipped first)
      rw [htell]
      obtain ⟨openFiles, error', hrest, hbytes'⟩ := ih (s := s) (h := { h with error := error }) hopens
      refine ⟨openFiles, error', hrest, ?_⟩
      have hfirst : skippedAmong (first :: before) = [skipped first] ++ skippedAmong before := by
        simp [skippedAmong, hunknown]
      rw [hbytes', hbytes, hfirst, Process.told_append, List.append_assoc]
    · next hknown =>
      rw [if_neg hknown] at hopens
      have hfirst : skippedAmong (first :: before) = skippedAmong before := by
        simp [skippedAmong, hknown]
      rw [Host.openFile_eq, hfirst]
      rcases ho : h.files.opened p.directory first.path first.append with f | ⟨l, fs⟩
      · simp [ho] at hopens
      · rw [ho] at hopens
        exact ih (h := hostOpened h fs l first.append) hopens

end Streams

/-! ## Stages that fail -/

namespace Shell

variable {sh : Shell} {before : List Redirection} {r : Redirection} {e : Fault}

/-- A stage ends where a redirection fails, before anything of it is run: whatever it stands for and
whatever redirections follow, its status is one and the shell is as it was, but for its host. There
the redirections before were opened, and then the fault is told on the standard error of the process,
wherever that of the stage went. Of the files, those were made or emptied that these redirections
name; besides, standard error has received the line about the fault, after the notices of
redirections of no stream, if such are told. -/
theorem aborts_of_failsAt (sh : Shell)
    (hfails : sh.host.files.FailsAt sh.process.directory before r e) :
    let prepared := sh.host.files.prepare sh.process.directory before
    let opened := (Streams.ofRedirections sh.process sh.host before).2
    let line := r.path ++ ": " ++ e.brief
    let failed : Shell := { sh with host := sh.process.complain opened line }
    (∀ registry manner arguments after,
        let stage : Stage := ⟨arguments, before ++ r :: after⟩
        sh.beginStage registry manner stage = (.ended 1, failed) ∧
          sh.run registry [stage] = (1, failed)) ∧
      prepared.files.SameShape opened.files ∧
      (∀ l, prepared.files.get? l = sh.host.files.get? l ∨
        ∃ r' ∈ before, r'.target ≠ .unknown ∧
          sh.host.files.resolveNew sh.process.directory r'.path = .ok l ∧
          sh.host.files.Refreshed prepared.files l r'.append) ∧
      (sh.process.descriptors.get? 2 = some .error →
        ∃ openFiles error, failed.host = { sh.host with
            files := prepared.files
            openFiles := openFiles
            error := error } ∧
          error.bytes = sh.host.error.bytes ++ sh.process.told (Streams.skippedAmong before) ++
            Text.encode (line ++ "\n") ∧
          ((∀ n ∈ Streams.skippedAmong before, sh.process.filter.tells n = false) →
            error.bytes = sh.host.error.bytes ++ Text.encode (line ++ "\n"))) := by
  intro prepared opened line failed
  obtain ⟨-, hshape⟩ := Streams.ofRedirections_shape sh.process sh.host before
  have hbegin (registry : Registry) (manner : Program.Manner) (arguments : List String)
      (after : List Redirection) :
      sh.beginStage registry manner ⟨arguments, before ++ r :: after⟩ = (.ended 1, failed) := by
    rw [beginStage, Streams.ofRedirections, Streams.openFrom_of_failsAt rfl hfails after]
    rfl
  refine ⟨?_, hshape, FileSystem.refreshed_prepare _ _ before, ?_⟩
  · intro registry manner arguments after stage
    refine ⟨hbegin registry manner arguments after, ?_⟩
    rw [run, runStage, hbegin]
  · intro herror
    obtain ⟨openFiles, error, hopened, hbytes⟩ :=
      Streams.openFrom_told (s := .inherited) herror hfails.opens
    obtain ⟨error', hcomplain, hbytes'⟩ := Process.complain_spec herror opened line
    have hopened' : opened = _ := hopened
    rw [hopened'] at hcomplain hbytes'
    have hall := hbytes'.trans (congrArg (· ++ Text.encode (line ++ "\n")) hbytes)
    refine ⟨openFiles, error', ?_, hall, ?_⟩
    · show sh.process.complain opened line = _
      rw [hopened', hcomplain]
    · intro hquiet
      rw [hall, Process.told_eq_nil hquiet, List.append_nil]

/-- An `exit` whose streams were sent to two files before a third cannot be opened: the shell is not
about to leave, one file was made and the other emptied, and the session's standard error has the
line. -/
theorem aborts_of_failsAt_exit :
    let files := (FileSystem.empty.put ["tmp"] .directory).put ["tmp", "x"]
      (.file 0o644 (Text.encode "old\n"))
    let sh : Shell := .start ⟨[], "/tmp", false⟩ ["tmp"] (.start files [] [])
    let before : List Redirection :=
      [⟨.error, "e", false⟩, ⟨.unknown, "u", false⟩, ⟨.output, "x", false⟩]
    let stage : Stage :=
      ⟨["exit"], before ++ ⟨.output, "no/z", false⟩ :: [⟨.output, "y", false⟩]⟩
    let ran := sh.run .default [stage]
    files.FailsAt ["tmp"] before ⟨.output, "no/z", false⟩ .noEntry ∧
      ran.1 = 1 ∧ ran.2.environment.leaving = false ∧
      ran.2.host.error.bytes = Text.encode "no/z: No such file or directory\n" ∧
      ran.2.host.output.bytes = [] ∧
      ran.2.host.files.get? ["tmp", "e"] = some (.file 0o644 []) ∧
      ran.2.host.files.get? ["tmp", "x"] = some (.file 0o644 []) ∧
      ran.2.host.files.get? ["tmp", "u"] = none ∧ ran.2.host.files.get? ["tmp", "y"] = none := by
  intro files sh before stage ran
  have hfails : files.FailsAt ["tmp"] before ⟨.output, "no/z", false⟩ .noEntry :=
    ⟨by cbv, by decide, by cbv⟩
  obtain ⟨hrun, -, -, hexact⟩ := aborts_of_failsAt sh hfails
  obtain ⟨openFiles, error, hhost, -, hbytes⟩ := hexact rfl
  have hran : ran = _ := (hrun .default .spawn ["exit"] [⟨.output, "y", false⟩]).2
  have hfiles : ran.2.host.files = (files.prepare ["tmp"] before).files := by
    rw [hran, hhost]
    rfl
  refine ⟨hfails, by rw [hran], by rw [hran]; rfl, ?_, ?_, ?_, ?_, ?_, ?_⟩
  · rw [hran, hhost]
    exact (hbytes fun _ _ => rfl).trans (List.nil_append _)
  · rw [hran, hhost]
    rfl
  all_goals
    rw [hfiles]
    cbv

end Shell

end CommandShell
