import CommandShell.Proofs.Reading
import CommandShell.Proofs.Session.Kept

/-!
# What reading a line does to a session

Reading a line changes nothing of a session but the host, and takes the keys of the line off what
there is to read. Running a line may take more of standard input, but no line can change where the
shell reads from.
-/

namespace CommandShell

namespace Host

/-- No write to a file puts anything on standard input. -/
theorem input_writeFile {h h' : Host} {id : Nat} {bytes : Bytes}
    (hw : h.writeFile id bytes = .ok h') : h'.input = h.input := by
  rw [writeFile] at hw
  split at hw
  · cases hw
  split at hw
  · cases hw
  split at hw
  · cases hw
    rfl
  · cases hw
  · cases hw
    rfl

/-- No write puts anything on standard input. -/
theorem input_write {h h' : Host} {handle : Handle} {bytes : Bytes}
    (hw : h.write handle bytes = .ok h') : h'.input = h.input := by
  simp only [write] at hw
  split at hw
  · cases hw
    rfl
  split at hw
  · cases hw
    rfl
  · cases hw
    rfl
  · exact input_writeFile hw
  · split at hw
    · cases hw
    split at hw
    · cases hw
      rfl
    · cases hw
  · cases hw
  · cases hw

/-- Nothing is put on standard input, whether a write succeeds or not. -/
theorem input_orElseWritten {h : Host} {written : Except Fault Host}
    (hw : ∀ h', written = .ok h' → h'.input = h.input) :
    (h.orElseWritten written).input = h.input := by
  cases written with
  | ok h' => exact hw h' rfl
  | error f => rfl

end Host

namespace Shell

variable {sh : Shell}

/-- No notice puts anything on standard input. -/
theorem input_tell (sh : Shell) (n : Notice) : (sh.tell n).host.input = sh.host.input := by
  simp only [tell, Process.tell, Process.complain]
  repeat' split
  · exact Host.input_orElseWritten fun _ => Host.input_write
  · rfl
  · rfl

/-! ## Where the shell reads from -/

/-- Whether a shell has the descriptors of another. -/
def SameDescriptors (sh sh' : Shell) : Prop :=
  sh'.process.descriptors = sh.process.descriptors

theorem frames_sameDescriptors : Frames SameDescriptors :=
  ⟨fun _ _ => rfl, fun h h' => h'.trans h⟩

/-- No line changes the descriptors of the shell. -/
theorem descriptors_run (sh : Shell) (registry : Registry) (stages : List Stage) :
    (sh.run registry stages).2.process.descriptors = sh.process.descriptors := by
  refine frames_sameDescriptors.run ?_ sh
  intro stage _ b _ sh streams
  refine frames_sameDescriptors.answer (fun _ _ _ _ => rfl) ?_ rfl ?_ registry streams
  · exact fun _ target => (keeps_runCd sh target).descriptors
  · exact fun _ a _ _ count => frames_sameDescriptors.runHistory (fun _ _ => rfl) sh _ _ _ count

end Shell

namespace Session

variable {s : Session} {e : Editor} {c : Console}

/-- The session with another host. -/
def withHost (s : Session) (h : Host) : Session := { s with shell := { s.shell with host := h } }

/-- Whether the keys of a source are there for the session: standard input has to be open. -/
def IsFed (s : Session) : KeySource → Prop
  | .keys _ => True
  | .standardInput => s.shell.process.descriptors.get? 0 = some .input

/-- A session that has run a line still reads from where it has read the line. -/
theorem IsFed.submit {source : KeySource} (h : s.IsFed source) (line : String) :
    (s.submit line).IsFed source := by
  cases source with
  | keys ks => trivial
  | standardInput =>
    have hnotices := (keeps_foldl_tell { s.shell with history := s.shell.history.add line }
      (notices line) (fun sh n => sh.tell n.notice) fun sh _ => sh.keeps_host _).descriptors
    have hrun (sh : Shell) : (sh.evaluate s.registry line).2.process.descriptors =
        sh.process.descriptors :=
      sh.descriptors_run s.registry (parse line)
    have hsubmit : (s.submit line).shell.process.descriptors = s.shell.process.descriptors :=
      (hrun _).trans hnotices
    rw [IsFed, hsubmit]
    exact h

/-! ## Reading a line -/

/-- Telling what was read happens on the host alone, and puts nothing on standard input. -/
theorem tellKeys_eq (s : Session) (e : Editor) (read : List Key)
    (outcome : Except Fault ReadOutcome) :
    ∃ h, s.tellKeys e read outcome = s.withHost h ∧ h.input = s.shell.host.input := by
  have hignored (bs : List UInt8) (sh : Shell) (notice : UInt8 → Notice) :
      ∃ h, bs.foldl (fun sh b => sh.tell (notice b)) sh = { sh with host := h } ∧
        h.input = sh.host.input := by
    induction bs generalizing sh with
    | nil => exact ⟨sh.host, rfl, rfl⟩
    | cons b bs ih =>
      obtain ⟨h, heq, hinput⟩ := ih (sh.tell (notice b))
      exact ⟨h, heq, hinput.trans (Shell.input_tell sh _)⟩
  rw [tellKeys]
  split
  · exact ⟨s.shell.host, rfl, rfl⟩
  · obtain ⟨h, heq, hinput⟩ := hignored (read.filterMap Editor.ignored?) s.shell fun b =>
      ⟨"tinysh::editor", .trace, "ignoring control byte", [("byte", toString b.toNat)]⟩
    simp only [heq]
    split
    · exact ⟨_, rfl, (Shell.input_tell _ _).trans hinput⟩
    · exact ⟨h, rfl, hinput⟩

/-- The keys on standard input. -/
theorem IsFed.keysOf_standardInput (h : s.IsFed .standardInput) :
    s.keysOf .standardInput = s.shell.host.input.map .byte := by
  have hinput : s.shell.process.descriptors.get? 0 = some .input := h
  simp only [keysOf, hinput, Host.available]

/-- A read takes its keys off the source, and happens on the host alone. -/
theorem IsFed.afterRead_eq {source : KeySource} (hfed : s.IsFed source) {read rest : List Key}
    (hkeys : s.keysOf source = read ++ rest) (screen : Screen) :
    ∃ h, (s.afterRead source read.length screen rest).1 = s.withHost h ∧
      (s.withHost h).keysOf (s.afterRead source read.length screen rest).2.source = rest := by
  cases source with
  | keys ks => exact ⟨s.shell.host, rfl, rfl⟩
  | standardInput =>
    have hinput : s.shell.process.descriptors.get? 0 = some .input := hfed
    have hwritten (h : Host) : (h.orElseWritten (s.shell.process.write 1 h screen.shown)).input =
        h.input := by
      refine Host.input_orElseWritten fun h' hw => ?_
      rw [Process.write] at hw
      split at hw
      · exact Host.input_write hw
      · cases hw
    simp only [afterRead, hinput]
    refine ⟨_, rfl, ?_⟩
    have hfed' (h : Host) : (s.withHost h).IsFed .standardInput := hfed
    rw [(hfed' _).keysOf_standardInput]
    simp only [withHost, hwritten, Host.consume]
    rw [List.map_drop, ← hfed.keysOf_standardInput, hkeys, List.drop_left]

/-- Reading a line takes keys off the source as the editor takes them, leaves the others there, and
happens on the host alone. -/
theorem IsFed.readLine_takes (hfed : s.IsFed c.source) {outcome : Except Fault ReadOutcome}
    {t : Session} {d : Console} (h : s.readLine e c = (outcome, t, d)) :
    ∃ read, s.keysOf c.source = read ++ t.keysOf d.source ∧
      t = s.withHost t.shell.host ∧
      e.Takes s.editorContext c.screen read (t.keysOf d.source) outcome := by
  obtain ⟨read, hkeys, htakes⟩ :=
    Editor.readLine_takes e s.editorContext c.screen (s.keysOf c.source)
  generalize hresult : e.readLine s.editorContext c.screen (s.keysOf c.source) = result
    at hkeys htakes
  have htaken : (s.keysOf c.source).length - result.rest.length = read.length := by
    rw [hkeys, List.length_append, Nat.add_sub_cancel]
  simp only [readLine, hresult, htaken] at h
  obtain ⟨rfl, hread⟩ := Prod.mk.inj h
  obtain ⟨told, htold, hinput⟩ :=
    s.tellKeys_eq e ((s.keysOf c.source).take read.length) result.outcome
  rw [htold] at hread
  have hfed' : (s.withHost told).IsFed c.source := hfed
  -- Notices are told before the keys are taken, and leave them where they are.
  have hsame : (s.withHost told).keysOf c.source = s.keysOf c.source := by
    cases hsource : c.source with
    | keys ks => rfl
    | standardInput =>
      rw [hsource] at hfed hfed'
      rw [hfed.keysOf_standardInput, hfed'.keysOf_standardInput]
      exact congrArg _ hinput
  obtain ⟨host, hafter, hrest⟩ := hfed'.afterRead_eq (hsame.trans hkeys) result.screen
  rw [hread] at hafter hrest
  have ht : t = s.withHost host := hafter
  subst ht
  rw [show (s.withHost host).keysOf d.source = result.rest from hrest]
  exact ⟨read, hkeys, rfl, htakes⟩

end Session

end CommandShell
