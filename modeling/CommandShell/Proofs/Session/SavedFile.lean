import CommandShell.Proofs.Session.HistoryFile
import CommandShell.Proofs.Session.Input
import CommandShell.Proofs.Session.WorkingDirectory

/-!
# The file that the history is saved in

The path of the history file is followed anew when the history is saved, from the directory in which
the session has come to be. It leads to the file that was looked for at the start if it is absolute
or the session is back in the directory that it started in, and otherwise it may lead elsewhere.
-/

namespace CommandShell.Session

variable {s t : Session} {path line : String} {lines : List String} {l : Location}

/-! ## From the start to the end of a session -/

/-- Reading the history file changes the history and the host, and whether it was read. -/
theorem loadHistory_eq (s : Session) :
    ∃ history h loaded, s.loadHistory = { s with
      shell := { s.shell with history := history, host := h }
      historyLoaded := loaded } := by
  rw [loadHistory]
  split
  · exact ⟨s.shell.history, s.shell.host, s.historyLoaded, rfl⟩
  · simp only
    split
    · exact ⟨_, _, _, rfl⟩
    · split
      · exact ⟨_, _, _, rfl⟩
      · exact ⟨_, _, _, rfl⟩

/-- Whether a session has from another what no line changes. -/
structure Persists (s t : Session) : Prop where
  config : t.config = s.config
  historyLoaded : t.historyLoaded = s.historyLoaded
  descriptors : t.shell.process.descriptors = s.shell.process.descriptors

theorem Persists.refl (s : Session) : s.Persists s := ⟨rfl, rfl, rfl⟩

theorem Persists.trans {u : Session} (h : s.Persists t) (h' : t.Persists u) : s.Persists u :=
  ⟨h'.config.trans h.config, h'.historyLoaded.trans h.historyLoaded,
    h'.descriptors.trans h.descriptors⟩

theorem persists_evaluate (s : Session) (line : String) : s.Persists (s.evaluate line).2 := by
  obtain ⟨g, h, -, heq, -⟩ := s.evaluate_eq line
  rw [heq]
  exact ⟨rfl, rfl, Shell.descriptors_run { s.shell with host := g } s.registry (parse line)⟩

/-- How a session comes from another by lines that are run, with or without a record in the
history. -/
inductive RunsTo (s : Session) : List String → Session → Prop
  | start : RunsTo s [] s
  | evaluate {lines : List String} {t : Session} (line : String) :
      RunsTo s lines t → RunsTo s (lines ++ [line]) (t.evaluate line).2
  | submit {lines : List String} {t : Session} (line : String) :
      RunsTo s lines t → RunsTo s (lines ++ [line]) (t.submit line)

/-- The session with a line recorded in its history. -/
def recorded (s : Session) (line : String) : Session :=
  { s with shell := { s.shell with history := s.shell.history.add line } }

theorem RunsTo.persists (h : s.RunsTo lines t) : s.Persists t := by
  induction h with
  | start => exact .refl s
  | @evaluate _ t line _ ih => exact ih.trans (t.persists_evaluate line)
  | @submit _ t line _ ih =>
    have hrecorded : t.Persists (t.recorded line) := ⟨rfl, rfl, rfl⟩
    exact ih.trans (hrecorded.trans ((t.recorded line).persists_evaluate line))

/-- Lines none of which is a single `cd` leave the session in its directory. -/
theorem RunsTo.directory_eq (h : s.RunsTo lines t)
    (hcd : ∀ line ∈ lines, ∀ stage, parse line = [stage] →
      s.registry.lookup stage.program ≠ some .cd) :
    t.shell.process.directory = s.shell.process.directory := by
  induction h with
  | start => rfl
  | @evaluate lines t line _ ih =>
    have hstays : t.shell.Stays _ := stays_evaluate (hcd line (by simp))
    exact hstays.directory.trans (ih fun other hother => hcd other (by simp [hother]))
  | @submit lines t line _ ih =>
    have hstays : (t.recorded line).shell.Stays _ := stays_evaluate (hcd line (by simp))
    exact hstays.directory.trans (ih fun other hother => hcd other (by simp [hother]))

/-! ## Saving -/

/-- Whether saving the history leaves it in the file at a location, which the path leads to from the
directory of the session as it is then: the whole history in place of what the file held if a
history file was read, and otherwise what is pending behind that. Nothing else is changed. -/
structure SavesAt (t : Session) (path : String) (l : Location) : Prop where
  leads : t.shell.host.files.resolveNew t.shell.process.directory path = .ok l
  others : ∀ m, m ≠ l → t.saveHistory.2.shell.host.files.get? m = t.shell.host.files.get? m
  content : t.shell.host.files.isPlain l = true →
    t.saveHistory.2.shell.host.files.content l =
      (if t.historyLoaded then [] else t.shell.host.files.content l) ++
        Text.encode (History.textOf t.unsaved)

/-- A history that is saved is saved at one location. -/
theorem exists_savesAt (hfile : t.config.historyFile = some path)
    (herror : t.shell.process.descriptors.get? 2 = some .error)
    (hsaved : t.saveHistory.1 = .ok ()) : ∃ l, t.SavesAt path l := by
  obtain ⟨host, hsave, hfiles⟩ : ∃ host, History.save t.unsaved t.shell.host
      t.shell.process.directory path (!t.historyLoaded) = (.ok (), host) ∧
      t.saveHistory.2.shell.host.files = host.files := by
    obtain ⟨hok, hfiles⟩ := saveHistory_eq_save hfile herror
    exact ⟨_, Prod.ext (hok.mp hsaved) rfl, hfiles⟩
  obtain ⟨l, fs, hopened, hextended⟩ := History.opened_of_save hsave
  have hl := FileSystem.resolveNew_of_opened hopened
  refine ⟨l, hl, ?_, ?_⟩
  · intro m hm
    rw [hfiles, hextended, FileSystem.get?_extended_of_ne hm, FileSystem.get?_of_opened hopened hm]
  · intro hplain
    obtain ⟨⟨mode, hget⟩, -⟩ := History.save_stores hsave hl hplain
    rw [hfiles, FileSystem.content_of_file hget]
    cases t.historyLoaded <;> rfl

/-- The history is saved in the file that the path leads to from the directory that the session has
come to. If no directory or link has changed, it is the file that was looked for at the start where
the path is absolute or the session is back where it started, as it is if no line was a single
`cd`. -/
theorem saved_from_last_directory (hfile : s.config.historyFile = some path)
    (herror : s.shell.process.descriptors.get? 2 = some .error)
    (hruns : s.loadHistory.RunsTo lines t) (hsaved : t.saveHistory.1 = .ok ()) :
    ∃ l, t.SavesAt path l ∧
      (s.shell.host.files.Alike t.shell.host.files →
        s.shell.host.files.resolveNew t.shell.process.directory path = .ok l ∧
        (Path.isAbsolute path = true ∨ t.shell.process.directory = s.shell.process.directory →
          s.shell.host.files.resolveNew s.shell.process.directory path = .ok l)) ∧
      ((∀ line ∈ lines, ∀ stage, parse line = [stage] →
          s.registry.lookup stage.program ≠ some .cd) →
        t.shell.process.directory = s.shell.process.directory) := by
  obtain ⟨history, h, loaded, hload⟩ := s.loadHistory_eq
  rw [hload] at hruns
  have hpersists := hruns.persists
  obtain ⟨l, hl⟩ := exists_savesAt (hpersists.config ▸ hfile) (hpersists.descriptors ▸ herror) hsaved
  refine ⟨l, hl, ?_, fun hcd => hruns.directory_eq hcd⟩
  intro halike
  -- Paths lead at the start where they lead at the end, from the same directory.
  have hstart := halike.symm.resolveNew_ok hl.leads
  refine ⟨hstart, ?_⟩
  rintro (habsolute | hback)
  · rw [FileSystem.resolveNew, FileSystem.follow_of_isAbsolute habsolute] at hstart ⊢
    exact hstart
  · rwa [hback] at hstart

/-! ## A session that leaves its directory -/

/-- A session with a relative history file, next to which there is a directory. -/
def besideDirectory : Session :=
  .start (.start ⟨[], "/tmp", false⟩ ["tmp"] (.start (((FileSystem.empty.put ["tmp"] .directory).put
    ["tmp", "sub"] .directory).put ["tmp", "h"] (.file 0o644 (Text.encode "old\n"))) [] []))
    ⟨"$ ", some "h", false⟩

/-- Where the history file is, seen from a directory. -/
theorem resolveNew_besideDirectory {directory : Location}
    (hd : besideDirectory.shell.host.files.walk true maxLinks directory ["h"] false = .ok l) :
    besideDirectory.shell.host.files.resolveNew directory "h" = .ok l := by
  have hroute : Route.ofPath "h" = ⟨false, ["h"], false⟩ := by decide
  rw [FileSystem.resolveNew, FileSystem.follow_eq_walk ⟨by decide, by decide, by decide⟩, hroute]
  exact hd

theorem loadHistory_besideDirectory :
    besideDirectory.loadHistory = { besideDirectory with
      shell := { besideDirectory.shell with history := ⟨["old"], 0⟩ }
      historyLoaded := true } := by
  have hfile : besideDirectory.config.historyFile = some "h" := rfl
  have hlookup : besideDirectory.shell.host.files.lookup besideDirectory.shell.process.directory "h" =
      .ok (.file 0o644 (Text.encode "old\n")) := by
    have hroute : Route.ofPath "h" = ⟨false, ["h"], false⟩ := by decide
    rw [FileSystem.lookup, FileSystem.resolve,
      FileSystem.follow_eq_walk ⟨by decide, by decide, by decide⟩, hroute]
    cbv
  have hexists : besideDirectory.shell.host.files.pathExists
      besideDirectory.shell.process.directory "h" = true := by
    rw [FileSystem.pathExists, hlookup]
    rfl
  have hread : besideDirectory.shell.host.files.read besideDirectory.shell.process.directory "h" =
      .ok (Text.encode "old\n") := by
    rw [FileSystem.read, hlookup]
    rfl
  have hentries : History.entriesOf "old\n" = ["old"] := by decide
  rw [loadHistory, hfile]
  simp only [hexists, Bool.not_true, Bool.false_eq_true, ↓reduceIte, History.read, hread,
    Text.decode?_encode, hentries]
  rfl

/-- The session goes into the directory. -/
theorem submit_besideDirectory :
    ∃ h, besideDirectory.loadHistory.submit "cd sub" = { besideDirectory with
        shell := { besideDirectory.shell.changed (.move ["tmp", "sub"]) with
          history := ⟨["old", "cd sub"], 0⟩, host := h }
        historyLoaded := true } ∧
      besideDirectory.shell.host.files.SameShape h.files := by
  have hline : parse "cd sub" = [⟨["cd", "sub"], []⟩] := by cbv
  have hcd : besideDirectory.registry.lookup "cd" = some .cd := by cbv
  have hread : Grammar.cd.read ["sub"] = .ok ⟨false, true, [], ["sub"]⟩ := by cbv
  have hroute : Route.ofPath "/tmp/sub" = ⟨true, ["tmp", "sub"], false⟩ := by decide
  have hjoin : Path.join "/tmp" "sub" = "/tmp/sub" := by decide
  have hwalk : besideDirectory.shell.host.files.walkByPath maxLinks [] ["tmp", "sub"] false =
      .ok ["tmp", "sub"] := by cbv
  have hcanonical : besideDirectory.shell.host.files.canonicalDirectory (Path.join "/tmp" "sub") =
      .ok ["tmp", "sub"] := by
    rw [hjoin, FileSystem.canonicalDirectory_eq_ok_iff, hroute]
    exact ⟨by decide, by decide, hwalk, by decide⟩
  -- The line is in the history before it is run.
  let u := besideDirectory.loadHistory.recorded "cd sub"
  have hu : u = { besideDirectory with
      shell := { besideDirectory.shell with history := ⟨["old", "cd sub"], 0⟩ }
      historyLoaded := true } := by
    simp only [u, recorded, loadHistory_besideDirectory]
    rfl
  have hmove : u.shell.change ⟨["cd", "sub"], []⟩ = .move ["tmp", "sub"] := by
    rw [hu]
    exact Shell.change_eq_move_iff.mpr ⟨rfl, _, "sub", hread, rfl, by decide, hcanonical⟩
  obtain ⟨h, heq, hshape⟩ := evaluate_cd (s := u) hline (by rw [hu]; exact hcd)
  refine ⟨h, ?_, ?_⟩
  · show (u.evaluate "cd sub").2 = _
    rw [heq, hmove, hu]
    rfl
  · rw [hu] at hshape
    exact hshape

/-- The session saves its history, in the directory that it has come to. -/
theorem saves_besideDirectory :
    (besideDirectory.loadHistory.submit "cd sub").saveHistory.1 = .ok () ∧
      (besideDirectory.loadHistory.submit "cd sub").shell.host.files.resolveNew ["tmp", "sub"] "h" =
        .ok ["tmp", "sub", "h"] := by
  obtain ⟨h, hsubmit, hshape⟩ := submit_besideDirectory
  rw [hsubmit]
  have hl : h.files.resolveNew ["tmp", "sub"] "h" = .ok ["tmp", "sub", "h"] :=
    hshape.alike.resolveNew_ok (resolveNew_besideDirectory (by cbv))
  have hnone : h.files.get? ["tmp", "sub", "h"] = none := hshape.get?_none (by decide)
  refine ⟨?_, hl⟩
  have hsave : (History.save ["old", "cd sub"] h ["tmp", "sub"] "h" false).1 = .ok () :=
    History.save_new hl hnone (hshape.isOpen_eq _)
  have hfile : besideDirectory.config.historyFile = some "h" := rfl
  rw [saveHistory]
  simp only [hfile, ↓reduceIte, History.write, Shell.changed]
  rw [hsave]
  rfl

/-- The session in its directory and in the one that it goes into: the file is looked for in the one
and saved in the other. -/
theorem saved_from_last_directory_beside :
    let s := besideDirectory
    let t := s.loadHistory.submit "cd sub"
    s.config.historyFile = some "h" ∧ s.shell.process.descriptors.get? 2 = some .error ∧
      s.loadHistory.RunsTo ["cd sub"] t ∧ t.saveHistory.1 = .ok () ∧
      s.shell.host.files.Alike t.shell.host.files ∧
      ∃ l, t.SavesAt "h" l ∧
        s.shell.host.files.resolveNew t.shell.process.directory "h" = .ok l := by
  intro s t
  have hruns : s.loadHistory.RunsTo ["cd sub"] t := .submit "cd sub" .start
  have halike : s.shell.host.files.Alike t.shell.host.files := by
    obtain ⟨h, hsubmit, hshape⟩ := submit_besideDirectory
    rw [show t = _ from hsubmit]
    exact hshape.alike
  obtain ⟨l, hl, hwhere, -⟩ :=
    saved_from_last_directory (s := s) rfl rfl hruns saves_besideDirectory.1
  exact ⟨rfl, rfl, hruns, saves_besideDirectory.1, halike, l, hl, (hwhere halike).1⟩

/-- The file that was read at the start is left as it was when the session ends in another
directory: the history is saved in a file of the same name there. -/
theorem not_saved_where_loaded :
    let s := besideDirectory
    let t := s.loadHistory.submit "cd sub"
    s.loadHistory.historyLoaded = true ∧ t.saveHistory.1 = .ok () ∧
      s.shell.host.files.resolveNew s.shell.process.directory "h" = .ok ["tmp", "h"] ∧
      t.SavesAt "h" ["tmp", "sub", "h"] ∧ t.unsaved = ["old", "cd sub"] ∧
      ¬t.SavesAt "h" ["tmp", "h"] := by
  intro s t
  obtain ⟨hsaved, hend⟩ := saves_besideDirectory
  obtain ⟨h, hsubmit, -⟩ := submit_besideDirectory
  have ht : t = _ := hsubmit
  have hdirectory : t.shell.process.directory = ["tmp", "sub"] := by
    rw [ht]
    rfl
  have hunsaved : t.unsaved = ["old", "cd sub"] := by
    rw [ht]
    rfl
  have hloaded : s.loadHistory.historyLoaded = true := by
    rw [show s.loadHistory = _ from loadHistory_besideDirectory]
  obtain ⟨l, hl⟩ : ∃ l, t.SavesAt "h" l :=
    exists_savesAt (by rw [ht]; rfl) (by rw [ht]; rfl) hsaved
  obtain rfl : ["tmp", "sub", "h"] = l := by
    have hleads := hl.leads
    rw [hdirectory, show t.shell.host.files.resolveNew ["tmp", "sub"] "h" = _ from hend] at hleads
    exact Except.ok.inj hleads
  refine ⟨hloaded, hsaved, resolveNew_besideDirectory (by cbv), hl, hunsaved, ?_⟩
  intro hstart
  have hleads := hstart.leads
  rw [hdirectory, show t.shell.host.files.resolveNew ["tmp", "sub"] "h" = _ from hend] at hleads
  exact absurd (Except.ok.inj hleads) (by decide)

end CommandShell.Session
