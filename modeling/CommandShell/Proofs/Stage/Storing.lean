import Mathlib
import CommandShell.Pipeline.Run
import CommandShell.Proofs.File.Opened

/-!
# What redirected stages store

Stages of `echo` that run one after another, with any redirections, do to the files what `Store`
says without open files and positions: a stage opens the files that its redirections name, one after
another, and puts its text behind what the last of them for standard output holds by then.
`runEach_echo` says so of any number of stages; a stage that is run again and again leaves one copy
of its text or one more each time.
-/

namespace CommandShell

/-! ## The reference -/

/-- What comes of opening files for redirections. -/
structure Prepared where
  /-- The files that were opened, in order, each with the stream that was to go to it. -/
  opened : List (Target × Location)
  /-- Whether all could be opened. -/
  complete : Bool
  files : FileSystem

/-- Opens the files of redirections in order, up to the first that cannot be opened. -/
def FileSystem.prepare (directory : Location) (fs : FileSystem) : List Redirection → Prepared
  | [] => ⟨[], true, fs⟩
  | r :: rs =>
    if r.target = .unknown then fs.prepare directory rs
    else
      match fs.opened directory r.path r.append with
      | .error _ => ⟨[], false, fs⟩
      | .ok (l, fs) =>
        let rest := fs.prepare directory rs
        { rest with opened := (r.target, l) :: rest.opened }

/-- The last file that was opened for standard output. -/
def Prepared.output? (q : Prepared) : Option Location :=
  ((q.opened.filter (·.1 = .output)).getLast?).map Prod.snd

/-- A file that was opened for standard output is the last one if no other follows. -/
theorem Prepared.output?_cons (rest : Prepared) (target : Target) (l : Location) :
    ({ rest with opened := (target, l) :: rest.opened } : Prepared).output? =
      rest.output?.or (if target = .output then some l else none) := by
  by_cases ht : target = .output
  · rw [output?, List.filter_cons_of_pos (by simpa using ht), List.getLast?_cons, if_pos ht, output?]
    generalize (List.filter _ rest.opened).getLast? = last
    cases last <;> rfl
  · rw [output?, List.filter_cons_of_neg (by simpa using ht), if_neg ht, Option.or_none, output?]

/-- The files, and the bytes that standard output has received. -/
structure Store where
  files : FileSystem
  output : Bytes

/-- The line that `echo` writes: its arguments, separated by blanks. -/
def Stage.echoed (stage : Stage) : Bytes :=
  Text.encode (String.intercalate " " (stage.arguments.drop 1) ++ "\n")

namespace Store

/-- What an `echo` with redirections leaves, and its status. -/
def echo (directory : Location) (s : Store) (stage : Stage) : Status × Store :=
  let q := s.files.prepare directory stage.redirections
  if q.complete then
    match q.output? with
    | some l => (0, ⟨q.files.extended l stage.echoed, s.output⟩)
    | none => (0, ⟨q.files, s.output ++ stage.echoed⟩)
  else (1, ⟨q.files, s.output⟩)

/-- What stages leave that follow each other, and their statuses. -/
def echoEach (directory : Location) : Store → List Stage → List Status × Store
  | s, [] => ([], s)
  | s, stage :: stages =>
    let (status, s) := s.echo directory stage
    let (statuses, s) := echoEach directory s stages
    (status :: statuses, s)

end Store

/-- Runs stages one after another, each as a line of its own. -/
def Shell.runEach (registry : Registry) : Shell → List Stage → List Status × Shell
  | sh, [] => ([], sh)
  | sh, stage :: stages =>
    let (status, sh) := sh.run registry [stage]
    let (statuses, sh) := runEach registry sh stages
    (status :: statuses, sh)

/-! ## Files and directories -/

namespace FileSystem

/-- Whether a file system holds nothing but directories and regular files. -/
def HoldsFiles (fs : FileSystem) : Prop :=
  ∀ l n, fs.get? l = some n → n = .directory ∨ n.isRegular = true

variable {fs fs' : FileSystem} {directory l : Location} {path : String} {keep : Bool}

theorem HoldsFiles.put (h : fs.HoldsFiles) (hl : l ≠ []) (mode : Nat) (content : Bytes) :
    (fs.put l (.file mode content)).HoldsFiles := by
  intro m n hn
  rw [get?_put fs hl] at hn
  split at hn
  · cases hn
    exact .inr rfl
  · exact h m n hn

/-- Where there are only files and directories, a path is opened at a regular file or at a place for
one. -/
theorem HoldsFiles.isPlain_of_opened (h : fs.HoldsFiles)
    (ho : fs.opened directory path keep = .ok (l, fs')) : fs.isPlain l = true := by
  obtain ⟨hl, ⟨hget, -, -⟩ | ⟨mode, content, hget, -, -⟩ | ⟨hplain, -⟩⟩ := opened_cases ho
  · exact isPlain_of_none hget
  · exact isPlain_of_file hget
  · rw [opened, hl] at ho
    rcases hget : fs.get? l with _ | n
    · exact isPlain_of_none hget
    · simp only [bind, Except.bind, hget] at ho
      rcases h l n hget with rfl | hn
      · cases ho
      · cases n <;> simp_all [Node.isRegular, isPlain]

theorem HoldsFiles.opened (h : fs.HoldsFiles)
    (ho : fs.opened directory path keep = .ok (l, fs')) : fs'.HoldsFiles := by
  have hne := ne_nil_of_isPlain (h.isPlain_of_opened ho)
  obtain ⟨-, ⟨-, -, rfl⟩ | ⟨mode, content, -, -, rfl⟩ | ⟨-, rfl⟩⟩ := opened_cases ho
  · exact h.put hne _ _
  · split
    · exact h
    · exact h.put hne _ _
  · exact h

theorem HoldsFiles.extended (h : fs.HoldsFiles) (l : Location) (bytes : Bytes) :
    (fs.extended l bytes).HoldsFiles := by
  rw [FileSystem.extended]
  split
  · next hget => exact h.put (ne_nil_of_isPlain (isPlain_of_file hget)) _ _
  · exact h

theorem HoldsFiles.prepare (h : fs.HoldsFiles) (directory : Location) (rs : List Redirection) :
    (fs.prepare directory rs).files.HoldsFiles := by
  induction rs generalizing fs with
  | nil => exact h
  | cons r rs ih =>
    rw [FileSystem.prepare]
    split
    · exact ih h
    · split
      · exact h
      · next ho => exact ih (h.opened ho)

/-- Redirections change no files but those that are opened for them. -/
theorem get?_prepare {m : Location} {rs : List Redirection}
    (hm : m ∉ (fs.prepare directory rs).opened.map Prod.snd) :
    (fs.prepare directory rs).files.get? m = fs.get? m := by
  induction rs generalizing fs with
  | nil => rfl
  | cons r rs ih =>
    rw [prepare] at hm ⊢
    split
    · next hunknown =>
      rw [if_pos hunknown] at hm
      exact ih hm
    · next hknown =>
      rw [if_neg hknown] at hm
      split
      · rfl
      · next l fs' ho =>
        rw [ho] at hm
        simp only [List.map_cons, List.mem_cons, not_or] at hm
        exact (ih hm.2).trans (get?_of_opened ho hm.1)

end FileSystem

/-! ## Opening streams -/

/-- The session's standard error takes whatever is written to it, and nothing else is changed. -/
theorem Host.exists_write_error (h : Host) (bytes : Bytes) :
    ∃ error, h.write .error bytes = .ok { h with error := error } ∧
      error.bytes = h.error.bytes ++ bytes := by
  rw [write]
  split
  · next hempty => exact ⟨h.error, rfl, by rw [List.isEmpty_iff.mp hempty, List.append_nil]⟩
  · exact ⟨h.error.add bytes, rfl, Received.bytes_add _ _⟩

namespace Process

variable {p : Process}

/-- What a process says on its standard error by notices, as far as it tells them. -/
def told (p : Process) (ns : List Notice) : Bytes :=
  (ns.filter p.filter.tells).flatMap fun n => Text.encode (n.text ++ "\n")

/-- What is said on the session's standard error comes behind what it has received, and is all that a
complaint changes. -/
theorem complain_spec (herror : p.descriptors.get? 2 = some .error) (h : Host) (line : String) :
    ∃ error, p.complain h line = { h with error := error } ∧
      error.bytes = h.error.bytes ++ Text.encode (line ++ "\n") := by
  obtain ⟨error, hwrite, hbytes⟩ := h.exists_write_error (Text.encode (line ++ "\n"))
  refine ⟨error, ?_, hbytes⟩
  simp only [complain, herror, Host.tryWriteLine, Host.tryWrite, hwrite, Host.orElseWritten]

/-- A notice comes behind what the session's standard error has received, if it is told, and is all
that telling it changes. -/
theorem tell_spec (herror : p.descriptors.get? 2 = some .error) (h : Host) (n : Notice) :
    ∃ error, p.tell h n = { h with error := error } ∧ error.bytes = h.error.bytes ++ p.told [n] := by
  rw [tell, told]
  rcases htells : p.filter.tells n with _ | _
  · exact ⟨h.error, rfl, by simp [htells]⟩
  · obtain ⟨error, hcomplain, hbytes⟩ := complain_spec herror h n.text
    exact ⟨error, hcomplain, by simp [htells, hbytes]⟩

end Process

namespace Streams

/-- Whether standard output goes to the end of the regular file at a location, or, where none is
given, to that of the process. -/
inductive GoesTo (s : Streams) (h : Host) : Option Location → Prop
  | inherited : s.output = none → GoesTo s h none
  | file {id mode : Nat} {f : OpenFile} {content : Bytes} :
      s.output = some (.file id) → h.openFiles[id]? = some f → f.writable = true →
        h.files.get? f.location = some (.file mode content) →
        (f.append = true ∨ f.position = 0 ∧ content = []) → GoesTo s h (some f.location)

variable {s s' : Streams} {h : Host} {target : Option Location}

/-- Where standard output goes does not depend on what else a stage has and what it said. -/
theorem GoesTo.congr (hs : s.GoesTo h target) (hout : s'.output = s.output) (error : Received) :
    s'.GoesTo { h with error := error } target := by
  cases hs with
  | inherited ho => exact .inherited (hout.trans ho)
  | file ho hf hw hget hpos => exact .file (hout.trans ho) hf hw hget hpos

variable {directory l : Location} {path : String} {append : Bool} {fs : FileSystem}

/-- The host after a file was opened for writing. -/
def hostOpened (h : Host) (fs : FileSystem) (l : Location) (append : Bool) : Host :=
  { h with files := fs, openFiles := h.openFiles ++ [⟨l, 0, append, false, true⟩] }

/-- A stream that is sent to a file that was just opened goes to its end. -/
theorem goesTo_opened (hfiles : h.files.HoldsFiles)
    (ho : h.files.opened directory path append = .ok (l, fs)) :
    (s.redirect .output (.file h.openFiles.length)).GoesTo (hostOpened h fs l append) (some l) := by
  obtain ⟨mode, content, hget, -, hcontent⟩ :=
    FileSystem.file_of_opened ho (hfiles.isPlain_of_opened ho)
  have hopen : (hostOpened h fs l append).openFiles[h.openFiles.length]? =
      some ⟨l, 0, append, false, true⟩ := List.getElem?_concat_length ..
  refine .file rfl hopen rfl hget ?_
  cases append with
  | true => exact .inl rfl
  | false => exact .inr ⟨rfl, hcontent⟩

/-- A stream keeps to the end of its file when one more file is opened, be it the same. -/
theorem GoesTo.opened (hs : s.GoesTo h target) (hfiles : h.files.HoldsFiles)
    (ho : h.files.opened directory path append = .ok (l, fs)) :
    s.GoesTo (hostOpened h fs l append) target := by
  cases hs with
  | inherited hout => exact .inherited hout
  | @file id mode f content hout hf hw hget hpos =>
    have hid : id < h.openFiles.length := (List.getElem?_eq_some_iff.mp hf).1
    have hf' : (hostOpened h fs l append).openFiles[id]? = some f := by
      rw [hostOpened, List.getElem?_append_left hid, hf]
    by_cases hl : f.location = l
    · -- The file was emptied, or it is as it was.
      obtain ⟨mode', content', hget', -, hcontent⟩ :=
        FileSystem.file_of_opened ho (hfiles.isPlain_of_opened ho)
      rw [← hl, FileSystem.content_of_file hget] at hcontent
      refine .file hout hf' hw (hl ▸ hget') ?_
      rcases hpos with ha | ⟨hp, rfl⟩
      · exact .inl ha
      · exact .inr ⟨hp, by rw [hcontent, ite_self]⟩
    · exact .file hout hf' hw ((FileSystem.get?_of_opened ho hl).trans hget) hpos

variable {p : Process}

/-- Opening redirections does to the files what the reference says, leaves standard output alone,
and sends the stage's output to the end of the last file that was opened for it. -/
theorem openFrom_prepare (herror : p.descriptors.get? 2 = some .error) (rs : List Redirection)
    (hs : s.GoesTo h target) (hvalid : s.valid = true) (hfiles : h.files.HoldsFiles) :
    (openFrom p s h rs).1.valid = (h.files.prepare p.directory rs).complete ∧
      (openFrom p s h rs).2.files = (h.files.prepare p.directory rs).files ∧
      (openFrom p s h rs).2.output = h.output ∧
      ((h.files.prepare p.directory rs).complete = true →
        (openFrom p s h rs).1.GoesTo (openFrom p s h rs).2
          ((h.files.prepare p.directory rs).output?.or target)) := by
  induction rs generalizing s h target with
  | nil => exact ⟨hvalid, rfl, rfl, fun _ => hs⟩
  | cons r rs ih =>
    rw [openFrom, FileSystem.prepare]
    split
    · obtain ⟨error, htell, -⟩ := Process.tell_spec herror h (skipped r)
      rw [htell]
      exact ih (hs.congr rfl error) hvalid hfiles
    next hknown =>
    rw [Host.openFile_eq]
    rcases ho : h.files.opened p.directory r.path r.append with e | ⟨l, fs⟩
    · obtain ⟨error, hcomplain, -⟩ := Process.complain_spec herror h (r.path ++ ": " ++ e.brief)
      simp only [Except.map, hcomplain, true_and]
      exact fun hc => nomatch hc
    -- The stream is sent to the file, whichever stream it is, and the rest follows.
    have hsent : (s.redirect r.target (.file h.openFiles.length)).GoesTo
        (hostOpened h fs l r.append) ((if r.target = .output then some l else none).or target) := by
      rcases r with ⟨stream, path, append⟩
      cases stream with
      | output => exact goesTo_opened hfiles ho
      | error =>
        refine (hs.opened hfiles ho).congr ?_ h.error
        rfl
      | unknown => exact absurd rfl hknown
    have hvalid' : (s.redirect r.target (.file h.openFiles.length)).valid = true := by
      cases r.target <;> exact hvalid
    have hrest := ih hsent hvalid' (hfiles.opened ho)
    simp only [Except.map, Prepared.output?_cons, Option.or_assoc]
    exact hrest

/-- A text on standard output comes behind what the file holds that it is sent to, or else behind
what the session's standard output has received. -/
theorem GoesTo.write (hs : s.GoesTo h target) (houtput : p.descriptors.get? 1 = some .output)
    {bytes : Bytes} (hne : bytes ≠ []) :
    ∃ handle h', s.outputHandle p = some handle ∧ h.write handle bytes = .ok h' ∧
      h'.files = target.elim h.files (h.files.extended · bytes) ∧
      h'.output.bytes = target.elim (h.output.bytes ++ bytes) fun _ => h.output.bytes := by
  cases hs with
  | inherited ho =>
    refine ⟨.output, { h with output := h.output.add bytes }, ?_, ?_, rfl, ?_⟩
    · rw [outputHandle, ho, houtput]
      rfl
    · rw [Host.write, if_neg (by simpa using hne)]
    · exact Received.bytes_add _ _
  | file ho hf hw hget hpos =>
    refine ⟨_, _, ?_, Host.write_file hf hw hget ?_ hne, rfl, rfl⟩
    · rw [outputHandle, ho]
      rfl
    · exact hpos.imp id fun hp => by rw [hp.1, hp.2]; rfl

end Streams

/-! ## Stages -/

namespace Shell

variable {sh : Shell} {registry : Registry} {stage : Stage}

/-- The line of an `echo` is never empty. -/
theorem echoed_ne_nil (stage : Stage) : stage.echoed ≠ [] := by
  rw [Stage.echoed, Text.encode_append]
  exact List.append_ne_nil_of_right_ne_nil _ (by decide)

/-- An `echo` on open streams has its line to write, and has told at most a notice. -/
theorem runResolved_echo (sh : Shell) (hecho : registry.lookup stage.program = some .echo)
    (herror : sh.process.descriptors.get? 2 = some .error) (streams : Streams) :
    ∃ error failure, sh.runResolved registry .spawn stage streams =
      (.writing [⟨streams.outputHandle sh.process, stage.echoed, .stop, none⟩] failure 0,
        { sh with host := { sh.host with error := error } }) := by
  obtain ⟨error, htell, -⟩ := Process.tell_spec herror sh.host
    (.ofStages .trace "running builtin" [("program", Notice.quoted stage.program)])
  have hresolve : sh.resolve registry stage.program = .builtin .echo := by
    rw [resolve, hecho]
  refine ⟨error, streams.errorHandle sh.process, ?_⟩
  simp only [runResolved, hresolve, tell, htell, Builtin.answer, Builtin.runEcho, Builtin.emission,
    ite_self]
  rfl

/-- Where a stage of `echo` leaves the shell, and its status: as the reference says. -/
theorem run_echo (hecho : registry.lookup stage.program = some .echo)
    (houtput : sh.process.descriptors.get? 1 = some .output)
    (herror : sh.process.descriptors.get? 2 = some .error) (hfiles : sh.host.files.HoldsFiles) :
    ∃ h, sh.run registry [stage] = ((Store.echo sh.process.directory
          ⟨sh.host.files, sh.host.output.bytes⟩ stage).1, { sh with host := h }) ∧
      ⟨h.files, h.output.bytes⟩ = (Store.echo sh.process.directory
        ⟨sh.host.files, sh.host.output.bytes⟩ stage).2 := by
  obtain ⟨hvalid, hstored, hkept, hgoes⟩ := Streams.openFrom_prepare herror stage.redirections
    (.inherited (h := sh.host) (s := .inherited) rfl) rfl hfiles
  rcases hopen : Streams.openFrom sh.process .inherited sh.host stage.redirections with ⟨streams, h⟩
  rw [hopen] at hvalid hstored hkept hgoes
  have hbegin : sh.beginStage registry .spawn stage =
      if streams.valid then ({ sh with host := h } : Shell).runResolved registry .spawn stage streams
      else (.ended .failed, { sh with host := h }) := by
    rw [beginStage, Streams.ofRedirections, hopen]
  rw [run, runStage, hbegin, hvalid, Store.echo]
  rcases hcomplete : (sh.host.files.prepare sh.process.directory stage.redirections).complete with _ | _
  · -- Not all redirections were opened, so nothing is written.
    exact ⟨h, rfl, by rw [hstored, hkept]; rfl⟩
  obtain ⟨error, failure, hresolved⟩ := runResolved_echo { sh with host := h } hecho herror streams
  rw [Option.or_none] at hgoes
  obtain ⟨handle, h', hhandle, hwrite, hfiles', houtput'⟩ :=
    ((hgoes hcomplete).congr rfl error).write houtput (echoed_ne_nil stage)
  simp only [↓reduceIte, hresolved, Emission.writeAll, Emission.write, hhandle, hwrite]
  refine ⟨h', ?_⟩
  rw [hfiles', houtput', hstored, hkept]
  cases Prepared.output? _ <;> exact ⟨rfl, rfl⟩

end Shell

/-! ## Stages one after another -/

theorem Prepared.mem_of_output? {q : Prepared} {l : Location} (h : q.output? = some l) :
    l ∈ q.opened.map Prod.snd := by
  obtain ⟨x, hx, rfl⟩ := Option.map_eq_some_iff.mp h
  exact List.mem_map_of_mem (List.mem_filter.mp (List.mem_of_getLast? hx)).1

namespace Store

variable {s : Store} {directory l : Location} {stage : Stage}

theorem holdsFiles_echo (hs : s.files.HoldsFiles) (directory : Location) (stage : Stage) :
    (s.echo directory stage).2.files.HoldsFiles := by
  have hq := hs.prepare directory stage.redirections
  rw [echo]
  split
  · split
    · exact hq.extended _ _
    · exact hq
  · exact hq

/-- An `echo` changes no files but those that its redirections open. -/
theorem get?_echo (hl : l ∉ (s.files.prepare directory stage.redirections).opened.map Prod.snd) :
    (s.echo directory stage).2.files.get? l = s.files.get? l := by
  have hq := FileSystem.get?_prepare hl
  rw [echo]
  split
  · split
    · next target htarget =>
      have hne : l ≠ target := fun heq => hl (heq ▸ Prepared.mem_of_output? htarget)
      exact (FileSystem.get?_extended_of_ne hne _).trans hq
    · exact hq
  · exact hq

/-- Stages change no files but those that the redirections of one of them open. -/
theorem get?_echoEach {stages : List Stage}
    (hl : ∀ before stage after, stages = before ++ stage :: after →
      l ∉ ((s.echoEach directory before).2.files.prepare directory stage.redirections).opened.map
        Prod.snd) :
    (s.echoEach directory stages).2.files.get? l = s.files.get? l := by
  induction stages generalizing s with
  | nil => rfl
  | cons stage stages ih =>
    have hrest := ih (s := (s.echo directory stage).2) fun before other after h =>
      hl (stage :: before) other after (by rw [h, List.cons_append])
    exact hrest.trans (get?_echo (hl [] stage stages rfl))

variable {fs : FileSystem} {path : String} {keep : Bool}

/-- An `echo` whose output is sent to a file leaves its line there, behind what the file held if
that is kept, and the file can be opened again. -/
theorem content_echo (hs : s.files.HoldsFiles)
    (hr : stage.redirections = [⟨.output, path, keep⟩])
    (ho : s.files.opened directory path keep = .ok (l, fs)) :
    (s.echo directory stage).2.files.content l =
        (if keep then s.files.content l else []) ++ stage.echoed ∧
      ∃ fs', (s.echo directory stage).2.files.opened directory path keep = .ok (l, fs') := by
  obtain ⟨mode, content, hget, -, hcontent⟩ := FileSystem.file_of_opened ho (hs.isPlain_of_opened ho)
  have hprepare : s.files.prepare directory stage.redirections = ⟨[(.output, l)], true, fs⟩ := by
    rw [hr, FileSystem.prepare, if_neg (by simp)]
    simp only [ho]
    rfl
  have hecho : s.echo directory stage = (0, ⟨fs.extended l stage.echoed, s.output⟩) := by
    rw [echo, hprepare]
    rfl
  rw [hecho]
  constructor
  · rw [FileSystem.content_of_file (FileSystem.get?_extended_self hget _), hcontent]
  · -- Where a path is opened does not depend on whether what the file holds is kept.
    have hwhere := (fs.extended l stage.echoed).map_fst_opened directory path keep true
    rw [FileSystem.opened_again ho] at hwhere
    rcases ho' : (fs.extended l stage.echoed).opened directory path keep with e | ⟨l', fs'⟩
    · rw [ho'] at hwhere
      cases hwhere
    · rw [ho'] at hwhere
      cases hwhere
      exact ⟨fs', rfl⟩

/-- An `echo` that is run again and again leaves its line as many times, or once if what the file
holds is not kept. -/
theorem content_echoEach_replicate (hs : s.files.HoldsFiles)
    (hr : stage.redirections = [⟨.output, path, keep⟩])
    (ho : s.files.opened directory path keep = .ok (l, fs)) (k : Nat) :
    (s.echoEach directory (List.replicate (k + 1) stage)).2.files.content l =
      if keep then s.files.content l ++ (List.replicate (k + 1) stage.echoed).flatten
      else stage.echoed := by
  -- The first run leaves a file that the path can be opened at again, with its line in it.
  induction k generalizing s fs with
  | zero =>
    obtain ⟨hcontent, -⟩ := content_echo hs hr ho
    cases keep <;> simpa [echoEach] using hcontent
  | succ k ih =>
    obtain ⟨hcontent, fs', ho'⟩ := content_echo hs hr ho
    have hrest := ih (holdsFiles_echo hs directory stage) ho'
    rw [hcontent] at hrest
    rw [List.replicate_succ, echoEach]
    refine hrest.trans ?_
    cases keep with
    | false => rfl
    | true => simp only [↓reduceIte, List.append_assoc, List.replicate_succ, List.flatten_cons]

end Store

namespace Shell

variable {sh : Shell} {registry : Registry} {stages : List Stage}

/-- Stages of `echo` change nothing but the host, and do to it what the reference says. -/
theorem runEach_eq (hecho : ∀ stage ∈ stages, registry.lookup stage.program = some .echo)
    (houtput : sh.process.descriptors.get? 1 = some .output)
    (herror : sh.process.descriptors.get? 2 = some .error) (hfiles : sh.host.files.HoldsFiles) :
    ∃ h, sh.runEach registry stages = ((Store.echoEach sh.process.directory
          ⟨sh.host.files, sh.host.output.bytes⟩ stages).1, { sh with host := h }) ∧
      ⟨h.files, h.output.bytes⟩ = (Store.echoEach sh.process.directory
        ⟨sh.host.files, sh.host.output.bytes⟩ stages).2 := by
  induction stages generalizing sh with
  | nil => exact ⟨sh.host, rfl, rfl⟩
  | cons stage stages ih =>
    rw [List.forall_mem_cons] at hecho
    obtain ⟨h, hrun, hstored⟩ := run_echo hecho.1 houtput herror hfiles
    have hfiles' := Store.holdsFiles_echo (s := ⟨sh.host.files, sh.host.output.bytes⟩) hfiles
      sh.process.directory stage
    rw [← hstored] at hfiles'
    obtain ⟨h', hrest, hstored'⟩ := @ih { sh with host := h } hecho.2 houtput herror hfiles'
    refine ⟨h', ?_, ?_⟩
    · rw [runEach, hrun]
      simp only [hrest, hstored, Store.echoEach]
    · rw [hstored', hstored, Store.echoEach]

/-- On files and directories alone, stages of `echo` that run one after another leave what opening
their redirections in order and putting each line behind the last file for standard output leaves,
with the same statuses. No file is changed that none of their redirections opens. The same stage run
a number of times leaves its line once, or that number of times behind what was there. -/
theorem runEach_echo (sh : Shell) (registry : Registry) (stages : List Stage)
    (hecho : registry.lookup "echo" = some .echo)
    (hprogram : ∀ stage ∈ stages, stage.program = "echo")
    (houtput : sh.process.descriptors.get? 1 = some .output)
    (herror : sh.process.descriptors.get? 2 = some .error) (hfiles : sh.host.files.HoldsFiles) :
    let directory := sh.process.directory
    let s : Store := ⟨sh.host.files, sh.host.output.bytes⟩
    let final := (sh.runEach registry stages).2.host
    (sh.runEach registry stages).1 = (s.echoEach directory stages).1 ∧
      (⟨final.files, final.output.bytes⟩ : Store) = (s.echoEach directory stages).2 ∧
      (∀ l, (∀ before stage after, stages = before ++ stage :: after →
          l ∉ ((s.echoEach directory before).2.files.prepare directory
            stage.redirections).opened.map Prod.snd) →
        final.files.get? l = s.files.get? l) ∧
      ∀ arguments path keep l fs k, s.files.opened directory path keep = .ok (l, fs) →
        let stage : Stage := ⟨"echo" :: arguments, [⟨.output, path, keep⟩]⟩
        (sh.runEach registry (List.replicate (k + 1) stage)).2.host.files.content l =
          if keep then s.files.content l ++ (List.replicate (k + 1) stage.echoed).flatten
          else stage.echoed := by
  intro directory s final
  have hall (stages : List Stage) (h : ∀ stage ∈ stages, stage.program = "echo") :
      ∀ stage ∈ stages, registry.lookup stage.program = some .echo := by
    intro stage hstage
    rw [h stage hstage, hecho]
  obtain ⟨h, hrun, hstored⟩ := runEach_eq (hall stages hprogram) houtput herror hfiles
  have hfinal : (⟨final.files, final.output.bytes⟩ : Store) = (s.echoEach directory stages).2 := by
    simp only [final, hrun, hstored]
    rfl
  refine ⟨by rw [hrun], hfinal, ?_, ?_⟩
  · intro l hl
    have hget := Store.get?_echoEach hl
    rwa [← hfinal] at hget
  · intro arguments path keep l fs k ho stage
    have hprogram' : ∀ other ∈ List.replicate (k + 1) stage, other.program = "echo" := by
      intro other hother
      rw [List.eq_of_mem_replicate hother]
      rfl
    obtain ⟨h', hrun', hstored'⟩ := runEach_eq (hall _ hprogram') houtput herror hfiles
    have hcontent : (s.echoEach directory (List.replicate (k + 1) stage)).2.files.content l = _ :=
      Store.content_echoEach_replicate hfiles rfl ho k
    rw [hrun']
    simp only [← hcontent]
    exact congrArg (fun t : Store => t.files.content l) hstored'

/-- Stages that append to a file and empty another, that fail midway, and that have no file, and one
that is run three times. -/
theorem runEach_echo_mixed :
    let sh : Shell := .start ⟨[], "/tmp", false⟩ ["tmp"]
      (.start (FileSystem.empty.put ["tmp"] .directory) [] [])
    let stages : List Stage := [
      ⟨["echo", "a"], [⟨.output, "x", false⟩]⟩,
      ⟨["echo", "b", "c"], [⟨.output, "y", false⟩, ⟨.error, "x", true⟩, ⟨.output, "x", true⟩]⟩,
      ⟨["echo", "d"], [⟨.output, "z", false⟩, ⟨.output, "no/z", false⟩, ⟨.error, "x", false⟩]⟩,
      ⟨["echo", "e"], [⟨.unknown, "x", false⟩]⟩]
    let final := (sh.runEach .default stages).2.host
    sh.host.files.HoldsFiles ∧ (∀ stage ∈ stages, stage.program = "echo") ∧
      (sh.runEach .default stages).1 = [0, 0, 1, 0] ∧
      final.files.get? ["tmp", "x"] = some (.file 0o644 (Text.encode "a\nb c\n")) ∧
      final.files.get? ["tmp", "z"] = some (.file 0o644 []) ∧
      final.output.bytes = Text.encode "e\n" ∧
      (sh.runEach .default
          (List.replicate 3 ⟨["echo", "f"], [⟨.output, "x", true⟩]⟩)).2.host.files.content
        ["tmp", "x"] = Text.encode "f\nf\nf\n" := by
  intro sh stages final
  have hfiles : sh.host.files.HoldsFiles := by
    intro l n hn
    have hget : sh.host.files.get? l =
        if l = ["tmp"] then some .directory else FileSystem.empty.get? l :=
      FileSystem.get?_put .empty (by decide) .directory l
    rw [hget, FileSystem.get?] at hn
    split at hn
    · exact .inl (Option.some.inj hn).symm
    · split at hn
      · exact .inl (Option.some.inj hn).symm
      · cases hn
  have hprogram : ∀ stage ∈ stages, stage.program = "echo" := by decide
  obtain ⟨hstatuses, hstored, -, hagain⟩ :=
    runEach_echo sh .default stages (by cbv) hprogram rfl rfl hfiles
  have hstored' : final.files = _ := congrArg Store.files hstored
  have houtput : final.output.bytes = _ := congrArg Store.output hstored
  obtain ⟨fs, hopened⟩ : ∃ fs, sh.host.files.opened ["tmp"] "x" true = .ok (["tmp", "x"], fs) :=
    ⟨sh.host.files.put ["tmp", "x"] (.file Host.newFileMode []), by cbv⟩
  have hthree := hagain ["f"] "x" true ["tmp", "x"] fs 2 hopened
  refine ⟨hfiles, hprogram, ?_, ?_, ?_, ?_, ?_⟩
  · rw [hstatuses]
    cbv
  · rw [hstored']
    cbv
  · rw [hstored']
    cbv
  · rw [houtput]
    cbv
  · rw [hthree]
    cbv

end Shell

end CommandShell
