import CommandShell.Proofs.Quiet
import CommandShell.Proofs.Session.Kept

/-!
# Reading and running lines

`Session.Converses` tells the course of a conversation, with the lines that were submitted in it. A
conversation on standard input through a quiet editor submits lines that a history file can keep.
-/

namespace CommandShell

namespace Host

/-- Reading from a handle changes no file. -/
@[simp] theorem files_consume (h : Host) (handle : Handle) (n : Nat) :
    (h.consume handle n).files = h.files := by
  cases handle with
  | pipeReader id => rw [consume]; split <;> rfl
  | file id => rw [consume]; split <;> rfl
  | _ => rfl

/-- Writing nothing changes nothing, even if nothing can be written. -/
theorem orElseWritten_nil (h : Host) (p : Process) (n : Nat) :
    h.orElseWritten (p.write n h []) = h := by
  rw [Process.write]
  split <;> rfl

end Host

namespace Session

variable {s t : Session}

/-! ## Notices -/

theorem error_of_standard {d : Descriptors} (hd : d = .standard) : d.get? 2 = some .error := by
  rw [hd]
  rfl

/-- A notice that goes to the session's standard error changes no file. -/
theorem files_tell {sh : Shell} (herror : sh.process.descriptors.get? 2 = some .error)
    (n : Notice) : (sh.tell n).host.files = sh.host.files := by
  simp only [Shell.tell, Process.tell, Process.complain, herror, Host.tryWriteLine, Host.tryWrite,
    Host.write]
  split
  · split <;> rfl
  · rfl

/-- Notices that go to the session's standard error change no file. -/
theorem files_foldl_tell {α : Type} {sh : Shell} (hd : sh.process.descriptors = .standard)
    (ns : List α) (notice : α → Notice) :
    (ns.foldl (fun sh n => Shell.tell sh (notice n)) sh).host.files = sh.host.files := by
  induction ns generalizing sh with
  | nil => rfl
  | cons n ns ih =>
    have htold : (Shell.tell sh (notice n)).process.descriptors = .standard := hd
    exact (ih htold).trans (files_tell (error_of_standard hd) _)

/-! ## Reading a line -/

/-- A console on standard input that shows nothing. -/
def plainConsole : Console := ⟨.standardInput, ⟨[], []⟩⟩

/-- Telling what was read keeps the session. -/
theorem keeps_tellKeys (s : Session) (e : Editor) (read : List Key)
    (outcome : Except Fault ReadOutcome) : s.Keeps (s.tellKeys e read outcome) := by
  rw [tellKeys]
  split
  · exact .refl s
  · refine ⟨?_, rfl, rfl⟩
    have htold := keeps_foldl_tell s.shell (read.filterMap Editor.ignored?)
      (fun sh b => sh.tell ⟨"tinysh::editor", .trace, "ignoring control byte",
        [("byte", toString b.toNat)]⟩) fun sh _ => sh.keeps_host _
    simp only
    split
    · exact htold.trans (Shell.keeps_host _ _)
    · exact htold

/-- Telling what was read changes no file. -/
theorem files_tellKeys (hd : s.shell.process.descriptors = .standard) (e : Editor)
    (read : List Key) (outcome : Except Fault ReadOutcome) :
    (s.tellKeys e read outcome).shell.host.files = s.shell.host.files := by
  rw [tellKeys]
  split
  · rfl
  · have htold := files_foldl_tell hd (read.filterMap Editor.ignored?) fun b =>
      ⟨"tinysh::editor", .trace, "ignoring control byte", [("byte", toString b.toNat)]⟩
    have hkeeps := keeps_foldl_tell s.shell (read.filterMap Editor.ignored?)
      (fun sh b => sh.tell ⟨"tinysh::editor", .trace, "ignoring control byte",
        [("byte", toString b.toNat)]⟩) fun sh _ => sh.keeps_host _
    simp only
    split
    · exact (files_tell (error_of_standard (hkeeps.descriptors.trans hd)) _).trans htold
    · exact htold

/-- Without anything to show, a read only takes its part of standard input. -/
theorem afterRead_plain (s : Session) (read : Nat) (rest : List Key) :
    ∃ host, host.files = s.shell.host.files ∧
      s.afterRead .standardInput read ⟨[], []⟩ rest =
        ({ s with shell := { s.shell with host := host } }, plainConsole) := by
  simp only [afterRead, Host.orElseWritten_nil]
  refine ⟨_, ?_, rfl⟩
  split
  · exact Host.files_consume _ _ _
  · rfl

/-- Reading a line without an echo keeps the session and the files, and gives out nothing but
entries of a history. -/
theorem readLine_quiet {outcome : Except Fault ReadOutcome} {d : Console}
    (hd : s.shell.process.descriptors = .standard)
    (h : s.readLine .quiet plainConsole = (outcome, t, d)) :
    s.Keeps t ∧ t.shell.host.files = s.shell.host.files ∧ d = plainConsole ∧
      ∀ text, outcome = .ok (.line text) → History.IsEntry text := by
  simp only [readLine, Editor.quiet_readLine_screen] at h
  obtain ⟨ho, h⟩ := Prod.mk.inj h
  obtain ⟨host, hfiles, hafter⟩ := afterRead_plain (s.tellKeys .quiet _ _) _ _
  rw [plainConsole] at h
  obtain ⟨rfl, rfl⟩ := Prod.mk.inj (hafter.symm.trans h)
  refine ⟨(s.keeps_tellKeys ..).trans ⟨Shell.keeps_host _ _, rfl, rfl⟩, ?_, rfl, ?_⟩
  · exact hfiles.trans (files_tellKeys hd ..)
  · intro text htext
    exact Editor.isEntry_of_quiet_readLine (ho.trans htext)

/-! ## Conversations -/

/-- How a conversation goes from a session and a console: the lines that are submitted, each with
the session that it is submitted to, and what the conversation comes to. -/
inductive Converses (e : Editor) : Session → Console → List (Session × String) →
    Except Fault Unit × Session × Console → Prop
  | leaving {s : Session} {c : Console} :
      s.leaving = true → Converses e s c [] (.ok (), s, c)
  | failed {s t : Session} {c d : Console} {f : Fault} :
      s.leaving = false → s.readLine e c = (.error f, t, d) → f.kind ≠ .interrupted →
        Converses e s c [] (.error f, t, d)
  | interrupted {s t : Session} {c d : Console} {f : Fault} {submitted : List (Session × String)}
      {result : Except Fault Unit × Session × Console} :
      s.leaving = false → s.readLine e c = (.error f, t, d) → f.kind = .interrupted →
        Converses e t d submitted result → Converses e s c submitted result
  | quit {s t : Session} {c d : Console} :
      s.leaving = false → s.readLine e c = (.ok .quit, t, d) → Converses e s c [] (.ok (), t, d)
  | empty {s t : Session} {c d : Console} {submitted : List (Session × String)}
      {result : Except Fault Unit × Session × Console} :
      s.leaving = false → s.readLine e c = (.ok .empty, t, d) →
        Converses e t d submitted result → Converses e s c submitted result
  | line {s t : Session} {c d : Console} {text : String} {submitted : List (Session × String)}
      {result : Except Fault Unit × Session × Console} :
      s.leaving = false → s.readLine e c = (.ok (.line text), t, d) →
        Converses e (t.submit text) d submitted result →
        Converses e s c ((t, text) :: submitted) result

/-- A conversation is what reading and running lines comes to. -/
theorem Converses.converse_eq {e : Editor} {s : Session} {c : Console}
    {submitted : List (Session × String)} {result : Except Fault Unit × Session × Console}
    (h : Converses e s c submitted result) : converse e s c = result := by
  induction h with
  | leaving hl => rw [converse, if_pos hl]
  | failed hl hread hf => simp [converse, hl, hread, hf]
  | interrupted hl hread hf _ ih => rw [converse]; simpa [hl, hread, hf] using ih
  | quit hl hread => simp [converse, hl, hread]
  | empty hl hread _ ih => rw [converse]; simpa [hl, hread] using ih
  | line hl hread _ ih => rw [converse]; simpa [hl, hread] using ih

end Session

end CommandShell
