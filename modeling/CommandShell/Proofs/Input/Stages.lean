import CommandShell.Pipeline.Run
import CommandShell.Proofs.Input.Steps
import CommandShell.Proofs.Session.Evolution

/-!
# Standard input while a line runs

Whatever a process does, it leaves an end of what was on standard input: `leaves_step` says so of
one step of any process, and `leaves_beginStage` of the stages that processes begin with.
-/

namespace CommandShell

variable {h : Host} {bs : Bytes}

/-! ## Copying and writing -/

namespace Copier

@[simp] theorem input_complain (c : Copier) (h : Host) (text : String) :
    (c.complain h text).2.input = h.input :=
  c.process.input_complain h _

theorem leaves_write (c : Copier) (hh : h.input <:+ bs) : (c.write h).Leaves bs := by
  have hfailed (e : Fault) : (Turn.ended (.exited 1)
      (c.process.complain h (c.name ++ ": write error: " ++ e.brief))).Leaves bs := by
    simpa [Turn.Leaves, Turn.Within] using hh
  simp only [write]
  split
  · exact hfailed _
  split
  · next hsend =>
    rw [← Host.input_send hsend] at hh
    split
    · trivial
    · exact ⟨trivial, hh⟩
  · split
    · exact hfailed _
    · exact hh
  · exact hfailed _

theorem leaves_openNext (c : Copier) (hh : h.input <:+ bs) (name : String) :
    (c.openNext h name).Leaves bs := by
  have hrefused (text : String) :
      (Turn.goOn (.copier (c.complain h text).1) (c.complain h text).2).Leaves bs :=
    ⟨trivial, by simpa using hh⟩
  simp only [openNext]
  split
  · exact hrefused _
  · next handle after ho =>
    have hinput : after.input = h.input := by
      split at ho
      · split at ho <;> cases ho
        rfl
      · exact Host.input_openFor ho
    split
    · exact ⟨trivial, (congrArg (· <:+ bs) hinput).mpr hh⟩
    · split <;> exact hrefused _

theorem leaves_step (c : Copier) (hh : h.input <:+ bs) : (c.step h).Leaves bs := by
  rw [step]
  split
  · exact c.leaves_write hh
  split
  · next handle _ =>
    have hread := (h.input_read handle blockSize).trans hh
    split
    · trivial
    all_goals
      next hr =>
      rw [hr] at hread
      exact ⟨trivial, hread⟩
  · exact leaves_openNext _ hh _
  · exact hh

end Copier

@[simp] theorem Emission.input_tellFault (e : Emission) (p : Process) (error : Option Handle)
    (h : Host) (f : Fault) : (e.tellFault p error h f).input = h.input := by
  simp only [tellFault]
  split <;> split <;> simp

namespace Writer

theorem leaves_fail (w : Writer) (hh : h.input <:+ bs) (f : Fault) (e : Emission)
    (left : List Emission) : (w.fail h f e left).Leaves bs := by
  rw [← e.input_tellFault w.process w.error h f] at hh
  simp only [fail]
  split <;> exact ⟨trivial, hh⟩

theorem leaves_step (w : Writer) (hh : h.input <:+ bs) : (w.step h).Leaves bs := by
  rw [step]
  split
  · exact hh
  split
  · split
    · exact ⟨trivial, hh⟩
    · exact w.leaves_fail hh ..
  split
  · exact w.leaves_fail hh ..
  · next hsend =>
    rw [← Host.input_send hsend] at hh
    split
    · exact ⟨trivial, hh⟩
    split
    · trivial
    · exact ⟨trivial, hh⟩

end Writer

/-! ## Any process -/

namespace Running

/-- Whether a process has begun, or begins by leaving an end of some bytes of standard input. -/
def Leaves (bs : Bytes) : Running → Prop
  | idle _ begin => ∀ h, h.input <:+ bs → (begin h).1.IsBegun ∧ (begin h).2.input <:+ bs
  | _ => True

variable {r : Running}

theorem IsBegun.leaves (hr : r.IsBegun) (bs : Bytes) : r.Leaves bs := by
  cases r with
  | idle => exact hr.elim
  | _ => trivial

/-- A step leaves an end of what was on standard input. -/
theorem leaves_step (hr : r.Leaves bs) (hh : h.input <:+ bs) : (r.step h).Leaves bs := by
  cases r with
  | script m => exact Script.Machine.leaves_step hh
  | copier c => exact c.leaves_step hh
  | sleeper p time =>
    rw [step]
    split
    · exact hh
    · trivial
  | writer w => exact w.leaves_step hh
  | idle p begin => exact hr h hh
  | ending p e => exact hh

/-- A signal leaves a process as it is, or ends it. -/
theorem Leaves.receive (hr : r.Leaves bs) (n : Nat) : (r.receive n).Leaves bs := by
  have hgone : (ending r.process (.signalled n)).Leaves bs := trivial
  cases r with
  | ending => exact hr
  | script m =>
    rw [Running.receive]
    cases m.receive n <;> trivial
  | _ =>
    simp only [Running.receive]
    split
    · exact hr
    · exact hgone

end Running

/-! ## Streams and texts -/

/-- Opening redirections leaves standard input alone. -/
@[simp] theorem Streams.input_ofRedirections (p : Process) (h : Host) (rs : List Redirection) :
    (ofRedirections p h rs).2.input = h.input := by
  unfold ofRedirections
  generalize inherited = s
  fun_induction openFrom with
  | case1 => rfl
  | case2 _ _ _ _ _ ih => simpa using ih
  | case3 _ _ _ _ _ _ _ ho ih => exact ih.trans (Host.input_openFor ho)
  | case4 => simp

namespace Emission

/-- Writing texts leaves standard input alone, whatever becomes of them. -/
@[simp] theorem input_writeAll (p : Process) (error : Option Handle) (es : List Emission)
    (h : Host) : (writeAll p error es h).2.input = h.input := by
  fun_induction writeAll with
  | case1 => rfl
  | case2 e es h after hw ih =>
    rw [ih]
    rw [Emission.write] at hw
    split at hw
    · exact Host.input_write hw
    · split at hw <;> cases hw
      rfl
  | case3 e es h f hw told hcare ih => exact ih.trans (input_tellFault ..)
  | case4 => exact input_tellFault ..

end Emission

namespace History

theorem input_save (entries : List String) (h : Host) (directory : Location) (path : String)
    (append : Bool) : (save entries h directory path append).2.input = h.input := by
  rw [save]
  split
  · rfl
  · next ho =>
    split
    · exact Host.input_openFor ho
    · next hw => exact (Host.input_write hw).trans (Host.input_openFor ho)

end History

namespace Shell

variable {sh : Shell}

/-! ## Builtins -/

/-- Reading, writing and appending files of a history leaves standard input alone. -/
theorem input_runHistory (sh : Shell) (read write append : Option String) (count : Option Nat) :
    (sh.runHistory read write append count).2.host.input = sh.host.input := by
  have hread (sh : Shell) : (sh.readHistory read).2.host.input = sh.host.input := by
    unfold readHistory
    split
    · rfl
    · split <;> rfl
  have hwrite (sh : Shell) : (sh.writeHistory write).2.host.input = sh.host.input := by
    unfold writeHistory
    split
    · rfl
    · next path =>
      have hsave := History.input_save sh.history.entries sh.host sh.process.directory path false
      split <;> next hw =>
        rw [History.write, Prod.mk.injEq] at hw
        exact hw.2 ▸ hsave
  have happend (sh : Shell) : (sh.appendHistory append).2.host.input = sh.host.input := by
    unfold appendHistory
    split
    · rfl
    · next path =>
      have hsave := History.input_save sh.history.pending sh.host sh.process.directory path true
      simp only [History.append]
      rcases hs : History.save sh.history.pending sh.host sh.process.directory path true with
        ⟨f | _, h'⟩ <;> (rw [hs] at hsave; exact hsave)
  have hthen {sh : Shell} {first : BuiltinResult} {second : Shell → BuiltinResult}
      (hfirst : first.2.host.input = sh.host.input)
      (hsecond : ∀ sh', (second sh').2.host.input = sh'.host.input) :
      (andThen first second).2.host.input = sh.host.input := by
    obtain ⟨e | report, after⟩ := first
    · exact hfirst
    · exact (hsecond after).trans hfirst
  rw [runHistory]
  split
  · rfl
  · exact hthen (hread sh) fun sh => hthen (hwrite sh) happend

/-- No builtin puts anything on standard input. -/
@[simp] theorem input_answer (b : Builtin) (registry : Registry) (arguments : List String)
    (streams : Streams) (sh : Shell) :
    (b.answer registry arguments streams sh).shell.host.input = sh.host.input := by
  have hargs {name : String} {grammar : Grammar} {help : String} {given : List String}
      {body : Arguments → BuiltinResult} (hbody : ∀ a, (body a).2.host.input = sh.host.input) :
      (Builtin.withArguments name grammar help given streams sh body).shell.host.input =
        sh.host.input := by
    rw [shell_withArguments]
    split
    · exact hbody _
    · rfl
  cases b with
  | echo | added => rfl
  | pwd | type | exit => exact hargs fun _ => rfl
  | cd =>
    refine hargs fun a => ?_
    rw [runCd]
    split
    · rfl
    simp only
    split <;> rfl
  | history => exact hargs fun a => sh.input_runHistory ..

/-! ## Stages -/

/-- A program that was started has begun, and starting one puts nothing on standard input. -/
theorem leaves_startProgram (sh : Shell) (manner : Program.Manner) (stage : Stage)
    (streams : Streams) (path : String) :
    (sh.startProgram manner stage streams path).2.host.input = sh.host.input ∧
      ∀ r, (sh.startProgram manner stage streams path).1 = .running r → r.IsBegun := by
  simp only [startProgram, launch, programProcess]
  split
  · next r after hs =>
    split at hs
    · cases hs
    · obtain ⟨hbegun, hinput⟩ := Program.isBegun_start hs
      refine ⟨hinput.trans ?_, ?_⟩
      · cases manner <;> simp [input_tell]
      · intro r hr
        cases hr
        exact hbegun
  · exact ⟨by simp [input_tell], fun r hr => by cases hr⟩

/-- Running what a stage stands for puts nothing on standard input. -/
theorem leaves_runResolved (sh : Shell) (registry : Registry) (manner : Program.Manner)
    (stage : Stage) (streams : Streams) :
    (sh.runResolved registry manner stage streams).2.host.input = sh.host.input ∧
      ∀ r, (sh.runResolved registry manner stage streams).1 = .running r → r.IsBegun := by
  rw [runResolved]
  split
  · exact ⟨by simp [input_tell], fun r hr => by cases hr⟩
  · exact sh.leaves_startProgram ..
  · exact ⟨rfl, fun r hr => by cases hr⟩

/-- Beginning a stage puts nothing on standard input, and its program has begun. -/
theorem leaves_beginStage (sh : Shell) (registry : Registry) (manner : Program.Manner)
    (stage : Stage) :
    (sh.beginStage registry manner stage).2.host.input = sh.host.input ∧
      ∀ r, (sh.beginStage registry manner stage).1 = .running r → r.IsBegun := by
  have hopened := Streams.input_ofRedirections sh.process sh.host stage.redirections
  simp only [beginStage]
  split
  · obtain ⟨hinput, hbegun⟩ := leaves_runResolved
      { sh with host := (Streams.ofRedirections sh.process sh.host stage.redirections).2 }
      registry manner stage (Streams.ofRedirections sh.process sh.host stage.redirections).1
    exact ⟨hinput.trans hopened, hbegun⟩
  · exact ⟨hopened, fun r hr => by cases hr⟩

end Shell

/-- The process of a stage leaves an end of what was on standard input when it begins. -/
theorem Pipeline.leaves_child (sh : Shell) (registry : Registry) (stage : Stage)
    (process : Process) (bs : Bytes) : (child sh registry stage process).Leaves bs := by
  intro h hh
  have hbegin := Shell.leaves_beginStage { sh with process := process, host := h } registry
    .replace stage
  simp only
  split <;> next heq =>
    rw [heq] at hbegin
    first
      | exact ⟨trivial, (congrArg (· <:+ bs) hbegin.1).mpr hh⟩
      | exact ⟨hbegin.2 _ rfl, (congrArg (· <:+ bs) hbegin.1).mpr hh⟩

end CommandShell
