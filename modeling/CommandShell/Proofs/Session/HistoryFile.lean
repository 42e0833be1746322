import Mathlib
import CommandShell.Proofs.History.RoundTrip
import CommandShell.Proofs.Session.Converse

/-!
# The history file from session to session

A session reads its history file at the start and saves it at the end: it writes the file anew if it
has read it, and appends to it otherwise. Either way, `history_file_of_sessions` says, the file
comes to hold what was in it and then all lines that were submitted, each once and in order.
-/

namespace CommandShell

namespace FileSystem

variable {fs fs' : FileSystem} {path : String} {l : Location}

/-- Whether an absolute path leads to the same place on two file systems, and to the same node, and
a file can be made there on both or on neither. -/
structure SameAt (path : String) (fs fs' : FileSystem) : Prop where
  place : fs'.resolveNew [] path = fs.resolveNew [] path
  node : ∀ l, fs.resolveNew [] path = .ok l → fs'.get? l = fs.get? l
  isOpen : ∀ l, fs.resolveNew [] path = .ok l → fs'.isOpen l.dropLast = fs.isOpen l.dropLast

/-- What the file holds that an absolute path names and that may be read and written to: nothing if
it is yet to be made, in a directory where files can be made. -/
inductive HoldsText (fs : FileSystem) (path : String) : Option String → Prop
  | absent {l : Location} :
      fs.resolveNew [] path = .ok l → fs.get? l = none → fs.isOpen l.dropLast = true →
        HoldsText fs path none
  | text {l : Location} {mode : Nat} {text : String} :
      fs.resolveNew [] path = .ok l → fs.get? l = some (.file mode (Text.encode text)) →
        (Node.file mode (Text.encode text)).mayWrite = true →
        (Node.file mode (Text.encode text)).mayRead = true → HoldsText fs path (some text)

theorem SameAt.refl (path : String) (fs : FileSystem) : SameAt path fs fs :=
  ⟨rfl, fun _ _ => rfl, fun _ _ => rfl⟩

theorem SameAt.trans {fs'' : FileSystem} (h : SameAt path fs fs') (h' : SameAt path fs' fs'') :
    SameAt path fs fs'' where
  place := h'.place.trans h.place
  node := fun l hl => (h'.node l (h.place.trans hl)).trans (h.node l hl)
  isOpen := fun l hl => (h'.isOpen l (h.place.trans hl)).trans (h.isOpen l hl)

theorem SameAt.of_eq (h : fs' = fs) : SameAt path fs fs' := h ▸ .refl path fs

theorem HoldsText.congr {text : Option String} (hold : fs.HoldsText path text)
    (h : SameAt path fs fs') : fs'.HoldsText path text := by
  cases hold with
  | absent hl hget hopen =>
    exact .absent (h.place.trans hl) ((h.node _ hl).trans hget) ((h.isOpen _ hl).trans hopen)
  | text hl hget hwrite hread =>
    exact .text (h.place.trans hl) ((h.node _ hl).trans hget) hwrite hread

/-- A file that holds a text, or is yet to be made, is a store. -/
theorem HoldsText.exists_store {text : Option String} (hold : fs.HoldsText path text) :
    ∃ l, fs.resolveNew [] path = .ok l ∧ fs.IsStore l ∧
      (text = none → fs.content l = []) := by
  cases hold with
  | absent hl hget hopen => exact ⟨_, hl, .absent hget hopen, fun _ => content_of_none hget⟩
  | text hl hget hwrite hread => exact ⟨_, hl, .file hget hwrite hread, fun h => by cases h⟩

/-- A store that a text is read from holds the text. -/
theorem IsStore.holdsText {text : String} (h : fs.IsStore l) (hl : fs.resolveNew [] path = .ok l)
    (hread : fs.read [] path = .ok (Text.encode text)) : fs.HoldsText path (some text) := by
  cases h with
  | absent hget =>
    rw [FileSystem.read, lookup_of_resolveNew hl, hget] at hread
    cases hread
  | file hget hwrite hmay =>
    have hcontent := (IsStore.file hget hwrite hmay).read hl (by simp [hget])
    rw [content_of_file hget, hread] at hcontent
    cases hcontent
    exact .text hl hget hwrite hmay

/-- An absolute path does not depend on the directory. -/
theorem follow_of_isAbsolute (ha : Path.isAbsolute path = true) (creating : Bool)
    (directory : Location) : fs.follow creating directory path = fs.follow creating [] path := by
  have hroute : (Route.ofPath path).absolute = true := ha
  simp [follow, hroute]

theorem lookup_of_isAbsolute (ha : Path.isAbsolute path = true) (directory : Location) :
    fs.lookup directory path = fs.lookup [] path := by
  rw [lookup, lookup, resolve, resolve, follow_of_isAbsolute ha]

end FileSystem

namespace Session

variable {s t : Session} {path : String} {text : Option String} {lines : List String}

/-! ## Loading and saving -/

/-- What a session knows of its history when it has just started. -/
structure IsFresh (path : String) (s : Session) : Prop where
  historyFile : s.config.historyFile = some path
  notInteractive : s.config.interactive = false
  notLoaded : s.historyLoaded = false
  history : s.shell.history = .empty
  descriptors : s.shell.process.descriptors = .standard

/-- A file that is there is read, and one that is not is not. Then the session tells which. -/
theorem loadHistory_eq_tell (hf : s.IsFresh path) (ha : Path.isAbsolute path = true)
    (hold : s.shell.host.files.HoldsText path text) :
    ∃ level message fields, s.loadHistory = ({ s with
      shell := { s.shell with history := ⟨History.entriesOf (text.getD ""), 0⟩ }
      historyLoaded := text.isSome } : Session).tell level message fields := by
  have hroot : s.shell.host.files.lookup s.shell.process.directory path =
      s.shell.host.files.lookup [] path := FileSystem.lookup_of_isAbsolute ha _
  rw [loadHistory, hf.historyFile]
  cases hold with
  | absent hl hget hopen =>
    have hexists : s.shell.host.files.pathExists s.shell.process.directory path = false := by
      rw [FileSystem.pathExists, hroot, FileSystem.lookup_of_resolveNew hl, hget]
      rfl
    have hhistory : s.shell.history = ⟨History.entriesOf "", 0⟩ := hf.history
    simp only [hexists, Bool.not_false, ↓reduceIte]
    refine ⟨_, _, _, congrArg (Session.tell · _ _ _) ?_⟩
    rw [Option.getD_none, Option.isSome_none, ← hhistory, ← hf.notLoaded]
  | @text l mode text hl hget hwrite hread =>
    rw [FileSystem.lookup_of_resolveNew hl, hget] at hroot
    have hexists : s.shell.host.files.pathExists s.shell.process.directory path = true := by
      rw [FileSystem.pathExists, hroot]
      rfl
    have hbytes : s.shell.host.files.read s.shell.process.directory path =
        .ok (Text.encode text) := by
      rw [FileSystem.read, hroot]
      simp only [bind, Except.bind, hread, ↓reduceIte, Node.bytes]
    simp only [hexists, Bool.not_true, Bool.false_eq_true, ↓reduceIte,
      History.read_of_text _ hbytes]
    refine ⟨_, _, _, congrArg (Session.tell · _ _ _) ?_⟩
    rw [Option.getD_some, Option.isSome_some, hf.history]
    rfl

/-- What a session knows after it has read a file that is there, or none. -/
theorem loadHistory_spec (hf : s.IsFresh path) (ha : Path.isAbsolute path = true)
    (hold : s.shell.host.files.HoldsText path text) :
    s.loadHistory.historyLoaded = text.isSome ∧
      s.loadHistory.shell.history = ⟨History.entriesOf (text.getD ""), 0⟩ ∧
      s.loadHistory.shell.host.files = s.shell.host.files ∧
      s.loadHistory.shell.process = s.shell.process ∧ s.loadHistory.config = s.config := by
  obtain ⟨level, message, fields, hload⟩ := loadHistory_eq_tell hf ha hold
  rw [hload]
  exact ⟨rfl, rfl, files_tell (error_of_standard hf.descriptors) _, rfl, rfl⟩

/-- Entries can be saved in the file. They are then what it holds, unless they were appended to what
was there. -/
theorem exists_save {host : Host} {append : Bool} (ha : Path.isAbsolute path = true)
    (hold : host.files.HoldsText path text) (happend : append = true → text = none)
    (entries : List String) (directory : Location) :
    ∃ host', History.save entries host directory path append = (.ok (), host') ∧
      host'.files.HoldsText path (some (History.textOf entries)) := by
  have hroot (fs : FileSystem) : fs.resolveNew directory path = fs.resolveNew [] path := by
    rw [FileSystem.resolveNew, FileSystem.resolveNew, FileSystem.follow_of_isAbsolute ha]
  obtain ⟨l, hl, hstore, hempty⟩ := hold.exists_store
  obtain ⟨host', hsave, hl', hstore', hcontent, hread⟩ :=
    History.save_store ((hroot _).trans hl) hstore entries append
  have hbefore : (if append then host.files.content l else []) = [] := by
    split
    · next h => exact hempty (happend h)
    · rfl
  rw [hbefore, List.nil_append] at hcontent
  rw [hcontent, FileSystem.read, FileSystem.lookup_of_isAbsolute ha] at hread
  exact ⟨host', hsave, hstore'.holdsText ((hroot _).symm.trans hl') hread⟩

/-- The entries that saving writes: all if it writes the file anew, and the pending ones if it
appends to it. -/
def unsaved (s : Session) : List String :=
  if s.historyLoaded then s.shell.history.entries else s.shell.history.pending

/-- The session saves its history if the unsaved entries can be saved, and changes nothing else in
the files. -/
theorem saveHistory_eq_save (hfile : s.config.historyFile = some path)
    (herror : s.shell.process.descriptors.get? 2 = some .error) :
    let saved := History.save s.unsaved s.shell.host s.shell.process.directory path
      (!s.historyLoaded)
    (s.saveHistory.1 = .ok () ↔ saved.1 = .ok ()) ∧
      s.saveHistory.2.shell.host.files = saved.2.files := by
  rw [saveHistory, hfile]
  rcases hloaded : s.historyLoaded with _ | _
  · simp only [unsaved, hloaded, Bool.false_eq_true, ↓reduceIte, History.append, Bool.not_false]
    rcases History.save s.shell.history.pending s.shell.host s.shell.process.directory path true
      with ⟨_ | _, host⟩
    · exact ⟨by simp, rfl⟩
    · have herror' (history : History) : ({ s.shell with history := history, host := host } :
          Shell).process.descriptors.get? 2 = some .error := herror
      exact ⟨by simp, files_tell (herror' _) _⟩
  · simp only [unsaved, hloaded, ↓reduceIte, History.write, Bool.not_true]
    rcases History.save s.shell.history.entries s.shell.host s.shell.process.directory path false
      with ⟨_ | _, host⟩
    · exact ⟨by simp [Except.mapError], trivial⟩
    · exact ⟨by simp [Except.mapError], trivial⟩

/-- Saving leaves all entries in the file, whether it is written anew or appended to. -/
theorem saveHistory_spec (hfile : s.config.historyFile = some path)
    (hd : s.shell.process.descriptors = .standard) (ha : Path.isAbsolute path = true)
    (hold : s.shell.host.files.HoldsText path text) (hloaded : s.historyLoaded = text.isSome)
    (happended : s.shell.history.appended = 0) :
    s.saveHistory.1 = .ok () ∧ s.saveHistory.2.shell.host.files.HoldsText path
      (some (History.textOf s.shell.history.entries)) := by
  have hunsaved : s.unsaved = s.shell.history.entries := by
    rw [unsaved, History.pending, happended, List.drop_zero, ite_self]
  -- Only a file that was not there is appended to, so nothing stands before the entries.
  have happend : (!s.historyLoaded) = true → text = none := by
    intro happend
    simpa [hloaded] using happend
  obtain ⟨host, hs, hafter⟩ :=
    exists_save ha hold happend s.shell.history.entries s.shell.process.directory
  obtain ⟨hok, hfiles⟩ := saveHistory_eq_save hfile (error_of_standard hd)
  rw [hunsaved, hs] at hok hfiles
  exact ⟨hok.mpr rfl, by rwa [hfiles]⟩

/-! ## A whole session -/

/-- Whether a line keeps off the history file: no stage of it reads, writes or appends the history,
and the file is afterwards what it was before. -/
structure KeepsOff (path : String) (s : Session) (line : String) : Prop where
  unnamed : ∀ stage ∈ parse line,
    s.registry.lookup stage.program = some .history → stage.namesHistoryFile = false
  untouched : FileSystem.SameAt path s.shell.host.files (s.submit line).shell.host.files

/-- What a conversation adds to the history and does not change, when its lines keep off the history
file. -/
structure Recorded (path : String) (s : Session) (lines : List String) (t : Session) : Prop where
  entries : t.shell.history.entries = s.shell.history.entries ++ lines
  appended : t.shell.history.appended = s.shell.history.appended
  descriptors : t.shell.process.descriptors = s.shell.process.descriptors
  config : t.config = s.config
  historyLoaded : t.historyLoaded = s.historyLoaded
  untouched : FileSystem.SameAt path s.shell.host.files t.shell.host.files
  isEntry : ∀ line ∈ lines, History.IsEntry line

theorem Keeps.recorded (h : s.Keeps t) (hfiles : t.shell.host.files = s.shell.host.files) :
    Recorded path s [] t where
  entries := by rw [h.shell.history, List.append_nil]
  appended := by rw [h.shell.history]
  descriptors := h.shell.descriptors
  config := h.config
  historyLoaded := h.historyLoaded
  untouched := .of_eq hfiles
  isEntry := by simp

theorem Recorded.trans {u : Session} {more : List String} (h : Recorded path s lines t)
    (h' : Recorded path t more u) : Recorded path s (lines ++ more) u where
  entries := by rw [h'.entries, h.entries, List.append_assoc]
  appended := h'.appended.trans h.appended
  descriptors := h'.descriptors.trans h.descriptors
  config := h'.config.trans h.config
  historyLoaded := h'.historyLoaded.trans h.historyLoaded
  untouched := h.untouched.trans h'.untouched
  isEntry := fun line hline => (List.mem_append.mp hline).elim (h.isEntry line) (h'.isEntry line)

/-- A line that keeps off the history file is recorded. -/
theorem recorded_submit {line : String} (h : KeepsOff path s line) (he : History.IsEntry line) :
    Recorded path s [line] (s.submit line) := by
  have hkeeps := keeps_evaluate (s := { s with shell := { s.shell with
    history := s.shell.history.add line } }) h.unnamed
  exact {
    entries := by rw [submit, hkeeps.shell.history]; rfl
    appended := by rw [submit, hkeeps.shell.history]; rfl
    descriptors := hkeeps.shell.descriptors
    config := hkeeps.config
    historyLoaded := hkeeps.historyLoaded
    untouched := h.untouched
    isEntry := by simpa using he }

/-- The lines of a conversation on standard input are recorded, each once and in order. -/
theorem Converses.recorded {submitted : List (Session × String)}
    {result : Except Fault Unit × Session × Console}
    (h : Converses .quiet s plainConsole submitted result)
    (hd : s.shell.process.descriptors = .standard)
    (hoff : ∀ x ∈ submitted, KeepsOff path x.1 x.2) :
    Recorded path s (submitted.map Prod.snd) result.2.1 := by
  generalize hc : plainConsole = c at h
  -- The console stays as it is from line to line, so that each line is read as the first one is.
  induction h with
  | leaving hl => exact (Keeps.refl _).recorded rfl
  | failed hl hread hf =>
    subst hc
    obtain ⟨hkeeps, hfiles, -, -⟩ := readLine_quiet hd hread
    exact hkeeps.recorded hfiles
  | quit hl hread =>
    subst hc
    obtain ⟨hkeeps, hfiles, -, -⟩ := readLine_quiet hd hread
    exact hkeeps.recorded hfiles
  | interrupted hl hread hf _ ih =>
    subst hc
    obtain ⟨hkeeps, hfiles, hconsole, -⟩ := readLine_quiet hd hread
    exact (hkeeps.recorded hfiles).trans (ih (hkeeps.shell.descriptors.trans hd) hoff hconsole.symm)
  | empty hl hread _ ih =>
    subst hc
    obtain ⟨hkeeps, hfiles, hconsole, -⟩ := readLine_quiet hd hread
    exact (hkeeps.recorded hfiles).trans (ih (hkeeps.shell.descriptors.trans hd) hoff hconsole.symm)
  | line hl hread _ ih =>
    subst hc
    obtain ⟨hkeeps, hfiles, hconsole, hentry⟩ := readLine_quiet hd hread
    have hline := recorded_submit (hoff _ (List.mem_cons_self ..)) (hentry _ rfl)
    have hrest := ih (hline.descriptors.trans (hkeeps.shell.descriptors.trans hd))
      (fun x hx => hoff x (List.mem_cons_of_mem _ hx)) hconsole.symm
    exact (hkeeps.recorded hfiles).trans (hline.trans hrest)

/-- Whether a session that starts afresh runs to its end on its standard input, and submits some
lines that all keep off its history file. -/
structure Runs (path : String) (s : Session) (lines : List String) : Prop where
  fresh : s.IsFresh path
  converses : ∃ submitted result, Converses .quiet s.loadHistory plainConsole submitted result ∧
    submitted.map Prod.snd = lines ∧ ∀ x ∈ submitted, KeepsOff path x.1 x.2

/-- After a session, the history file holds what it held before and then the submitted lines. -/
theorem Runs.holdsText (h : s.Runs path lines) (ha : Path.isAbsolute path = true)
    (hold : s.shell.host.files.HoldsText path text) :
    (∀ line ∈ lines, History.IsEntry line) ∧ s.run.2.shell.host.files.HoldsText path
      (some (History.textOf (History.entriesOf (text.getD "") ++ lines))) := by
  obtain ⟨hfresh, submitted, ⟨result, t, c⟩, hconv, rfl, hoff⟩ := h
  obtain ⟨hloaded, hhistory, hfiles, hprocess, hconfig⟩ := loadHistory_spec hfresh ha hold
  have hd : s.loadHistory.shell.process.descriptors = .standard := by
    rw [hprocess, hfresh.descriptors]
  have hrec := hconv.recorded hd hoff
  obtain ⟨hsaved, hafter⟩ :=
    saveHistory_spec ((congrArg _ (hrec.config.trans hconfig)).trans hfresh.historyFile)
      (hrec.descriptors.trans hd) ha ((hold.congr (.of_eq hfiles)).congr hrec.untouched)
      (hrec.historyLoaded.trans hloaded) (by rw [hrec.appended, hhistory])
  have hrun : s.run.2 = t.saveHistory.2 := by
    have hconverse : s.loadHistory.runEditor .quiet ⟨.standardInput, ⟨[], []⟩⟩ = (result, t, c) :=
      hconv.converse_eq
    rw [run]
    simp only [hconfig, hfresh.notInteractive, Bool.false_eq_true, ↓reduceIte, hconverse]
    generalize t.saveHistory = saved at hsaved ⊢
    obtain ⟨_, u⟩ := saved
    cases hsaved
    rfl
  rw [hrec.entries, hhistory] at hafter
  exact ⟨hrec.isEntry, hrun ▸ hafter⟩

/-! ## Session after session -/

/-- Whether sessions run one after the other between two states of the files, each with the lines
that it submits, and nothing else touches the history file in between. -/
def RunInTurn (path : String) : FileSystem → List (Session × List String) → FileSystem → Prop
  | fs, [], fs' => FileSystem.SameAt path fs fs'
  | fs, (s, lines) :: rest, fs' =>
    FileSystem.SameAt path fs s.shell.host.files ∧ s.Runs path lines ∧
      RunInTurn path s.run.2.shell.host.files rest fs'

/-- After some sessions, the history file holds the lines that it held at first, without carriage
returns at their ends and without empty lines, and then all lines that were submitted, in order and
each once. -/
theorem history_file_of_sessions {fs fs' : FileSystem} {sessions : List (Session × List String)}
    (ha : Path.isAbsolute path = true) (hold : fs.HoldsText path text) (hne : sessions ≠ [])
    (h : RunInTurn path fs sessions fs') :
    fs'.HoldsText path
      (some (History.textOf (History.entriesOf (text.getD "") ++ sessions.flatMap Prod.snd))) := by
  induction sessions generalizing fs text with
  | nil => exact absurd rfl hne
  | cons x rest ih =>
    obtain ⟨s, lines⟩ := x
    obtain ⟨hsame, hruns, hrest⟩ := h
    obtain ⟨hentry, hafter⟩ := hruns.holdsText ha (hold.congr hsame)
    cases rest with
    | nil =>
      rw [List.flatMap_singleton]
      exact hafter.congr hrest
    | cons y rest =>
      -- What the first session left is read back as the entries that it wrote.
      have hentries : ∀ e ∈ History.entriesOf (text.getD "") ++ lines, History.IsEntry e :=
        fun e he => (List.mem_append.mp he).elim History.isEntry_of_mem_entriesOf (hentry e)
      have hlast := ih hafter (by simp) hrest
      rw [Option.getD_some, History.entriesOf_textOf hentries, List.append_assoc] at hlast
      exact hlast

/-- A session with a history file that is given two lines, the second of which makes it leave. -/
def leavingSecond (files : FileSystem) (path : String) : Session :=
  start (.start ⟨[], "/tmp", false⟩ ["tmp"] (.start files (Text.encode "pwd\nexit\n") []))
    ⟨"", some path, false⟩

/-- The session submits both lines, neither of which touches a file. -/
theorem runs_leavingSecond {files : FileSystem} (ha : Path.isAbsolute path = true)
    (hold : files.HoldsText path text) : (leavingSecond files path).Runs path ["pwd", "exit"] := by
  have hfresh : (leavingSecond files path).IsFresh path := ⟨rfl, rfl, rfl, rfl, rfl⟩
  obtain ⟨level, message, fields, hload⟩ := loadHistory_eq_tell hfresh ha hold
  rw [tell, Shell.tell, Process.tell_silent rfl] at hload
  generalize History.entriesOf (text.getD "") = entries at hload
  generalize text.isSome = loaded at hload
  -- The sessions that the two lines are submitted to.
  let s := ((leavingSecond files path).loadHistory.readLine .quiet plainConsole).2.1
  let t := ((s.submit "pwd").readLine .quiet plainConsole).2.1
  have hfirst : (leavingSecond files path).loadHistory.readLine .quiet plainConsole =
      (.ok (.line "pwd"), s, plainConsole) := by
    refine Prod.ext ?_ (Prod.ext rfl ?_) <;> rw [hload] <;> cbv
  have hsecond : (s.submit "pwd").readLine .quiet plainConsole =
      (.ok (.line "exit"), t, plainConsole) := by
    simp only [s, t, hload]
    refine Prod.ext ?_ (Prod.ext rfl ?_) <;> cbv
  have hstart : (leavingSecond files path).loadHistory.leaving = false := by
    rw [hload]
    cbv
  have hstays : (s.submit "pwd").leaving = false := by
    simp only [s, hload]
    cbv
  have hleaves : (t.submit "exit").leaving = true := by
    simp only [s, t, hload]
    cbv
  have hoff : KeepsOff path s "pwd" := by
    refine ⟨?_, .of_eq ?_⟩
    · rw [show parse "pwd" = [⟨["pwd"], []⟩] by cbv, List.forall_mem_singleton]
      intro h
      cases h
    · simp only [s, hload]
      cbv
  have hoff' : KeepsOff path t "exit" := by
    refine ⟨?_, .of_eq ?_⟩
    · rw [show parse "exit" = [⟨["exit"], []⟩] by cbv, List.forall_mem_singleton]
      intro h
      cases h
    · simp only [s, t, hload]
      cbv
  have hconv : Converses .quiet (leavingSecond files path).loadHistory plainConsole
      [(s, "pwd"), (t, "exit")] (.ok (), t.submit "exit", plainConsole) :=
    .line hstart hfirst (.line hstays hsecond (.leaving hleaves))
  exact ⟨hfresh, _, _, hconv, rfl, by simpa using ⟨hoff, hoff'⟩⟩

/-- Two sessions one after the other, with a file that the first of them makes and the second reads
and writes anew, and with one that both of them read and write anew. -/
theorem history_file_of_two_sessions :
    let path := "/tmp/h"
    let missing := FileSystem.empty.put ["tmp"] .directory
    let there := missing.put ["tmp", "h"] (.file 0o600 (Text.encode "a\r\n\nb"))
    let first (files : FileSystem) := leavingSecond files path
    let second (files : FileSystem) := leavingSecond (first files).run.2.shell.host.files path
    (∀ files ∈ [missing, there], RunInTurn path files
        [(first files, ["pwd", "exit"]), (second files, ["pwd", "exit"])]
        (second files).run.2.shell.host.files) ∧
      (second missing).run.2.shell.host.files.HoldsText path (some "pwd\nexit\npwd\nexit\n") ∧
      (second there).run.2.shell.host.files.HoldsText path
        (some "a\nb\npwd\nexit\npwd\nexit\n") := by
  intro path missing there first second
  have ha : Path.isAbsolute path = true := by decide
  have hmissing : missing.HoldsText path none :=
    .absent (l := ["tmp", "h"]) (by cbv) (by decide) (by decide)
  have hthere : there.HoldsText path (some "a\r\n\nb") :=
    .text (l := ["tmp", "h"]) (by cbv) rfl rfl rfl
  have hturn {files : FileSystem} {text : Option String} (hold : files.HoldsText path text) :
      RunInTurn path files [(first files, ["pwd", "exit"]), (second files, ["pwd", "exit"])]
        (second files).run.2.shell.host.files := by
    have hruns : (first files).Runs path ["pwd", "exit"] := runs_leavingSecond ha hold
    obtain ⟨-, hafter⟩ := hruns.holdsText ha hold
    exact ⟨.refl .., hruns, .refl .., runs_leavingSecond ha hafter, .refl ..⟩
  have hlast {files : FileSystem} {text : Option String} (hold : files.HoldsText path text) :
      (second files).run.2.shell.host.files.HoldsText path (some (History.textOf
        (History.entriesOf (text.getD "") ++ ["pwd", "exit", "pwd", "exit"]))) :=
    history_file_of_sessions ha hold (List.cons_ne_nil _ _) (hturn hold)
  refine ⟨?_, ?_, ?_⟩
  · simp only [List.forall_mem_cons, List.not_mem_nil, IsEmpty.forall_iff, implies_true, and_true]
    exact ⟨hturn hmissing, hturn hthere⟩
  · have htext : History.textOf (History.entriesOf "" ++ ["pwd", "exit", "pwd", "exit"]) =
        "pwd\nexit\npwd\nexit\n" := by cbv
    have hafter := hlast hmissing
    rwa [Option.getD_none, htext] at hafter
  · have htext : History.textOf (History.entriesOf "a\r\n\nb" ++ ["pwd", "exit", "pwd", "exit"]) =
        "a\nb\npwd\nexit\npwd\nexit\n" := by cbv
    have hafter := hlast hthere
    rwa [Option.getD_some, htext] at hafter

end Session

end CommandShell
