import CommandShell.Proofs.Session.Input
import CommandShell.Script.Offspring

/-!
# Standard input under what is done to a host

Programs take what they read off the front of standard input, and nothing that they do puts anything
there: of the operations of the host and of machines on it, only `consume` changes what is left.
-/

namespace CommandShell

open Script

namespace Host

variable {h h' : Host}

/-! ## Operations of the host -/

@[simp] theorem input_newPipe (h : Host) : h.newPipe.2.input = h.input := rfl

@[simp] theorem input_document (h : Host) (bytes : Bytes) :
    (h.document bytes).2.input = h.input := rfl

@[simp] theorem input_newProcess (h : Host) : h.newProcess.2.input = h.input := rfl

@[simp] theorem input_takeEnding (h : Host) (number : Nat) :
    (h.takeEnding number).2.input = h.input := by
  rw [takeEnding]
  split <;> rfl

@[simp] theorem input_tryWrite (h : Host) (handle : Handle) (bytes : Bytes) :
    (h.tryWrite handle bytes).input = h.input :=
  input_orElseWritten fun _ => input_write

@[simp] theorem input_tryWriteLine (h : Host) (handle : Handle) (line : String) :
    (h.tryWriteLine handle line).input = h.input :=
  input_tryWrite h handle _

/-- Opening a file leaves standard input alone. -/
theorem input_openFor {directory : Location} {path : String} {access : Access} {mode : Nat}
    {handle : Handle} (ho : h.openFor directory path access mode = .ok (handle, h')) :
    h'.input = h.input := by
  simp only [openFor, bind, Except.bind] at ho
  split at ho <;> grind [addOpen]

/-- Sending bytes leaves standard input alone. -/
theorem input_send {handle : Handle} {bytes rest : Bytes}
    (hs : h.send handle bytes = .ok (h', rest)) : h'.input = h.input := by
  cases handle with
  | file id =>
    rw [send] at hs
    split at hs
    · cases hs
      rfl
    · rcases hw : h.writeFile id bytes with f | written
      · simp [hw, Except.map] at hs
      · simp only [hw, Except.map, Except.ok.injEq, Prod.mk.injEq] at hs
        rw [← hs.1, input_writeFile hw]
  | _ =>
    simp only [send] at hs
    grind

/-- What is read comes off the front of what there is. -/
theorem input_consume (h : Host) (handle : Handle) (n : Nat) :
    (h.consume handle n).input <:+ h.input := by
  cases handle with
  | input => exact List.drop_suffix n h.input
  | pipeReader id => rw [consume]; split <;> exact List.suffix_refl _
  | file id => rw [consume]; split <;> exact List.suffix_refl _
  | _ => exact List.suffix_refl _

theorem input_read (h : Host) (handle : Handle) (limit : Nat) :
    (h.read handle limit).2.input <:+ h.input := by
  simp only [read]
  split
  · exact List.suffix_refl _
  · exact h.input_consume handle _

end Host

namespace Process

@[simp] theorem input_complain (p : Process) (h : Host) (line : String) :
    (p.complain h line).input = h.input := by
  rw [complain]
  split <;> simp

@[simp] theorem input_tell (p : Process) (h : Host) (n : Notice) :
    (p.tell h n).input = h.input := by
  rw [tell]
  split <;> simp

end Process

namespace Script.Machine

variable {m : Machine} {h h' : Host}

/-! ## Operations of machines -/

@[simp] theorem input_report (m : Machine) (h : Host) (text : Raw) :
    (m.report h text).input = h.input := by
  rw [report]
  split <;> simp

@[simp] theorem input_complain (m : Machine) (h : Host) (text : Raw) :
    (m.complain h text).input = h.input :=
  input_report m h _

@[simp] theorem input_reportEndings (m : Machine) (h : Host) (endings : List Ending) :
    (m.reportEndings h endings).input = h.input := by
  refine List.foldlRecOn (motive := fun (g : Host) => g.input = h.input) endings _ rfl ?_
  intro g hg e _
  split
  · split <;> simp [hg]
  · exact hg

@[simp] theorem input_update (j : Job) (h : Host) : (j.update h).2.2.input = h.input := by
  refine List.foldlRecOn (motive := fun (x : List (Nat × Option Ending) × List Ending × Host) =>
    x.2.2.input = h.input) j.processes _ rfl ?_
  intro x hx p _
  have htake := Host.input_takeEnding x.2.2 p.1
  grind

@[simp] theorem input_updateJobs (m : Machine) (h : Host) :
    (m.updateJobs h).2.input = h.input := by
  refine List.foldlRecOn (motive := fun (x : List Job × Host) => x.2.input = h.input) m.jobs _
    rfl ?_
  intro x hx j _
  exact (input_update j x.2).trans hx

@[simp] theorem input_fork (m : Machine) (h : Host) : (m.fork h).2.2.input = h.input := rfl

@[simp] theorem input_detached (m : Machine) (h : Host) (first : Bool) :
    (m.detached h first).2.input = h.input := by
  simp only [detached]
  split
  · next handle opened ho =>
    split at ho
    · exact Host.input_openFor ho
    · cases ho
  · rfl

/-- Opening a file for a script leaves standard input alone. -/
theorem input_openFile {opening : Opening} {path : Raw} {handle : Handle}
    (ho : m.openFile h opening path = .ok (handle, h')) : h'.input = h.input := by
  simp only [openFile] at ho
  rcases hopened : h.openFor m.process.directory (Raw.toText path)
    (opening.access (m.scope.has "noclobber")) (newFileBits - (newFileBits &&& m.process.mask))
    with f | opened
  · simp [hopened, Except.mapError] at ho
  · simp only [hopened, Except.mapError, Except.ok.injEq] at ho
    subst ho
    exact Host.input_openFor hopened

/-- Making a redirection leaves standard input alone. -/
theorem input_reroute {saved saved' : Saved} {r : Rerouting} {m' : Machine}
    (hr : m.reroute h saved r = (.ok h', m', saved')) : h'.input = h.input := by
  cases r with
  | file n opening path =>
    simp only [reroute] at hr
    split at hr
    · cases hr
    · next ho =>
      cases hr
      exact input_openFile ho
  | same n other =>
    cases other with
    | none =>
      simp only [reroute] at hr
      cases hr
      rfl
    | some other =>
      simp only [reroute] at hr
      split at hr
      · cases hr
        rfl
      split at hr <;> cases hr
      rfl
  | document n number =>
    cases hr
    rfl

@[simp] theorem input_withoutMonitor (m : Machine) (h : Host) :
    (m.withoutMonitor h).2.input = h.input := by
  rw [withoutMonitor]
  split <;> simp

@[simp] theorem input_showTaken (m : Machine) (h : Host) (s : Source) (taken : Raw) :
    (m.showTaken h s taken).input = h.input := by
  have hprompts (texts : List Raw) (g : Host) : (texts.foldl m.report g).input = g.input :=
    List.foldlRecOn (motive := fun (g' : Host) => g'.input = g.input) texts _ rfl
      fun g' hg text _ => (input_report m g' text).trans hg
  simp only [showTaken]
  split <;> split <;> simp [hprompts]

/-- Opening a file of commands leaves standard input alone. -/
theorem input_openCommands {path : Raw} {role : Role} {m' : Machine}
    (ho : m.openCommands h path role = .ok (m', h')) : h'.input = h.input := by
  simp only [openCommands, bind, Except.bind, pure, Except.pure] at ho
  grind [input_openFile]

end Script.Machine

end CommandShell
