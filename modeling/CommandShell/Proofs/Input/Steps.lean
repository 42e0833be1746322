import CommandShell.Proofs.Input.Commands
import CommandShell.Proofs.Program.Twins

/-!
# Standard input while a script takes a step

A step of a script does one thing of its top frame. What it does there leaves an end of what was on
standard input, frame by frame (`leaves_stepFrame`), and the processes that it leads to have begun:
what takes the place of a script, or what a script starts, is at work at once. `Machine.leaves_step`
says both of every step.
-/

namespace CommandShell

open Script

/-- Whether a process has begun. -/
def Running.IsBegun : Running → Prop
  | idle .. => False
  | _ => True

/-- Whether a step leaves an end of some bytes of standard input, and processes that have begun. -/
def Turn.Leaves (bs : Bytes) (t : Turn) : Prop := t.Within Running.IsBegun fun h => h.input <:+ bs

namespace Program

variable {h h' : Host} {p : Process} {r : Running}

theorem isBegun_ofFiles (p : Process) (h : Host) (arguments : List String) :
    (Copier.ofFiles p h arguments).1.IsBegun ∧
      (Copier.ofFiles p h arguments).2.input = h.input := by
  rw [Copier.ofFiles]
  split
  · exact ⟨trivial, rfl⟩
  · exact ⟨trivial, Process.input_complain ..⟩

theorem isBegun_callSleeper (h : Host) (p : Process) (arguments : List String) :
    (callSleeper h p arguments).1.IsBegun ∧ (callSleeper h p arguments).2.input = h.input := by
  simp only [callSleeper]
  split
  · exact ⟨trivial, by simp⟩
  split
  · exact ⟨trivial, by simp⟩
  · exact ⟨trivial, rfl⟩

theorem isBegun_call (h : Host) (p : Process) (t : Tool) (arguments : List Raw)
    (inherited : List (Raw × Raw)) :
    (call h p t arguments inherited).1.IsBegun ∧
      (call h p t arguments inherited).2.input = h.input := by
  cases t with
  | scriptRunner | teller | constant => exact ⟨trivial, rfl⟩
  | copier => exact isBegun_ofFiles ..
  | sleeper => exact isBegun_callSleeper ..

/-- A program that was started has begun, and nothing was put on standard input for it. -/
theorem isBegun_start {manner : Manner} {path : String} {arguments : List Raw}
    {inherited : List (Raw × Raw)} {started : Running × Host}
    (hs : start manner h p path arguments inherited = .ok started) :
    started.1.IsBegun ∧ started.2.input = h.input := by
  simp only [start, bind, Except.bind, pure, Except.pure] at hs
  -- A file in no known format is run as a script, which makes no difference to what follows.
  split at hs
  all_goals
    split at hs
    · cases hs
    cases hs
    exact isBegun_call ..

end Program

namespace Script.Machine

variable {m : Machine} {h h' : Host} {bs : Bytes} {arguments : List Raw}

/-! ## Programs in the place of scripts -/

theorem isBegun_startFirst {e : Fault} {paths : List Raw} {started : Running × Host}
    (hs : m.startFirst h arguments e paths = .ok started) :
    started.1.IsBegun ∧ started.2.input = h.input := by
  induction paths generalizing e with
  | nil => cases hs
  | cons path paths ih =>
    rw [startFirst] at hs
    split at hs
    · next hstart =>
      cases hs
      exact Program.isBegun_start hstart
    · exact ih hs

/-- A program that takes the place of a script has begun. -/
theorem isBegun_become {usual : Bool} {place : Nat} {started : Running × Host}
    (hs : m.become h arguments usual place = .ok started) (hh : h.input <:+ bs) :
    started.1.IsBegun ∧ started.2.input <:+ bs := by
  simp only [become, Except.mapError] at hs
  split at hs
  · cases hs
  · next hstart =>
    cases hs
    obtain ⟨hbegun, hinput⟩ := isBegun_startFirst hstart
    exact ⟨hbegun, hinput ▸ hh⟩

/-- Telling that there is no such program puts nothing on standard input. -/
theorem input_become {usual : Bool} {place : Nat} {failed : Nat × Host}
    (hs : m.become h arguments usual place = .error failed) (hh : h.input <:+ bs) :
    failed.2.input <:+ bs := by
  simp only [become, Except.mapError] at hs
  split at hs <;> cases hs
  simpa using hh

/-! ## Going on and giving up -/

@[simp] theorem leaves_goOn : (m.goOn h).Leaves bs ↔ h.input <:+ bs := by
  simp [goOn, Turn.Leaves, Turn.Within, Running.IsBegun]

@[simp] theorem leaves_raise {q : Quitting} : (m.raise h q).Leaves bs ↔ h.input <:+ bs := by
  simp [raise]

@[simp] theorem leaves_abort {message : Raw} :
    (m.abort h message).Leaves bs ↔ h.input <:+ bs := by
  simp [abort]

/-- A script goes on behind a command of the language with what the command leaves. -/
theorem leaves_act {outcome : Outcome} (hh : outcome.host.input <:+ bs) :
    (act outcome).Leaves bs := by
  unfold act
  split
  case h_7 =>
    split
    · next hs => exact isBegun_become hs hh
    · next hs => exact leaves_raise.mpr (input_become hs hh)
  all_goals simpa [Outcome.host] using hh

/-! ## Output -/

theorem leaves_unwritten (hh : h.input <:+ bs) (status : Option Nat) :
    (m.unwritten h status).Leaves bs := by
  cases status <;> simpa [unwritten] using hh

theorem leaves_writeOutput (hh : h.input <:+ bs) (text : Raw) (status : Option Nat) :
    (m.writeOutput h text status).Leaves bs := by
  rw [writeOutput]
  split
  · exact leaves_unwritten hh status
  simp only
  split
  · split
    · exact hh
    · exact leaves_unwritten hh status
  · exact leaves_unwritten hh status
  · next hsend =>
    rw [← Host.input_send hsend] at hh
    split <;> simpa using hh
  · next hsend =>
    rw [← Host.input_send hsend] at hh
    split
    · trivial
    · simpa using hh

/-! ## Expansion -/

theorem leaves_expandWord (hh : h.input <:+ bs) (purpose : Purpose) (w : Word)
    (outputs : List Raw) : (m.expandWord h purpose w outputs).Leaves bs := by
  unfold expandWord
  split
  · simpa using hh
  · simpa using hh
  · exact hh
  · exact ⟨trivial, trivial, hh⟩

theorem leaves_collect (hh : h.input <:+ bs) (descriptor : Option Nat) (process : Nat)
    (pieces : List Raw) : (m.collect h descriptor process pieces).Leaves bs := by
  cases descriptor with
  | some n =>
    simp only [collect]
    split
    · simpa using hh
    · next handle _ =>
      have hread := h.input_read handle blockLength
      split
      · trivial
      · simpa using hh
      · next hr =>
        rw [hr] at hread
        simpa using hread.trans hh
  | none =>
    simp only [collect]
    have htake := h.input_takeEnding process
    split
    · trivial
    · next hr =>
      rw [hr] at htake
      rw [← htake] at hh
      simpa using hh

theorem leaves_await (hh : h.input <:+ bs) (processes : List (Nat × Option Ending)) :
    (m.await h processes).Leaves bs := by
  simp only [await]
  split
  · simpa using hh
  split
  · trivial
  · simpa using hh

/-! ## Processes -/

theorem leaves_runApart (hh : h.input <:+ bs) (background : Bool) (frames : List Frame) :
    (m.runApart h background frames).Leaves bs := by
  simp only [runApart]
  refine ⟨trivial, trivial, ?_⟩
  split <;> simpa using hh

theorem leaves_runStage (hh : h.input <:+ bs) (left : List Command) (previous : Option Nat)
    (made : List Nat) (background tested : Bool) :
    (m.runStage h left previous made background tested).Leaves bs := by
  cases left with
  | nil =>
    simp only [runStage]
    split
    · simpa using hh
    · split <;> simpa using hh
  | cons c rest =>
    simp only [runStage]
    refine ⟨trivial, trivial, ?_⟩
    split <;> split <;> simpa using hh

/-! ## Redirections -/

theorem leaves_routed (hh : h.input <:+ bs) (done : List Rerouting) :
    (m.routed h done).Leaves bs := by
  rw [routed]
  simp only
  split
  · simpa using hh
  · simpa using hh
  · split
    · simpa using hh
    · exact leaves_runApart hh ..
  · simpa using hh

theorem leaves_route (hh : h.input <:+ bs) (left : List Redirect) (done : List Rerouting) :
    (m.route h left done).Leaves bs := by
  unfold route
  split
  case h_1 => exact leaves_routed hh done
  all_goals simpa using hh

theorem leaves_unrouted (hh : h.input <:+ bs) (message : Raw) (saved : Saved) (special : Bool) :
    (m.unrouted h message saved special).Leaves bs := by
  simp only [unrouted]
  split <;> simpa using hh

theorem leaves_makeRoutes (hh : h.input <:+ bs) (left : List Rerouting) (saved : Saved)
    (special stays : Bool) : (m.makeRoutes h left saved special stays).Leaves bs := by
  unfold makeRoutes
  split
  · split <;> simpa using hh
  · simpa using hh
  · split
    · exact leaves_unrouted hh ..
    · next hr =>
      rw [← input_reroute hr] at hh
      simpa using hh

/-! ## Simple commands -/

theorem leaves_prepare (hh : h.input <:+ bs) (p : Preparing) : (m.prepare h p).Leaves bs := by
  simp only [prepare]
  split <;> simpa using hh

theorem leaves_assigned (hh : h.input <:+ bs) (p : Prepared) (shown : List Raw) :
    (m.assigned h p shown).Leaves bs := by
  rw [assigned]
  split <;> simpa using hh

theorem leaves_trace (hh : h.input <:+ bs) (p : Prepared) (shown : List Raw) :
    (m.trace h p shown).Leaves bs := by
  simp only [trace]
  split <;> simpa using hh

theorem leaves_assignOne (hh : h.input <:+ bs) (p : Prepared) (left : List Word)
    (shown : List Raw) : (m.assignOne h p left shown).Leaves bs := by
  simp only [assignOne]
  split <;> simpa using hh

theorem leaves_call (hh : h.input <:+ bs) (body : Command) (arguments : List Raw) (tested : Bool) :
    (m.call h body arguments tested).Leaves bs := by
  rw [call]
  split <;> simpa using hh

theorem leaves_runProgram (hh : h.input <:+ bs) (p : Prepared) (place : Nat) :
    (m.runProgram h p place).Leaves bs := by
  rw [runProgram]
  split
  · split
    · next hs => exact isBegun_become hs hh
    · next hs => exact leaves_raise.mpr (input_become hs hh)
  simp only
  split
  · next hs => exact ⟨trivial, isBegun_become hs hh⟩
  · next hs => exact ⟨trivial, trivial, input_become hs hh⟩

theorem leaves_launch (hh : h.input <:+ bs) (p : Prepared) : (m.launch h p).Leaves bs := by
  rw [launch]
  split
  · simpa using hh
  split
  · refine leaves_act ?_
    rw [input_runNamed]
    exact hh
  · exact leaves_call hh ..
  · exact leaves_runProgram hh ..
  · exact leaves_runProgram hh ..
  · simpa using hh

/-! ## Compound commands -/

@[simp] theorem leaves_startLoop {l : Loop} {status : Nat} :
    (m.startLoop h l status).Leaves bs ↔ h.input <:+ bs := leaves_goOn

theorem leaves_decideLoop (hh : h.input <:+ bs) (l : Loop) (status : Nat) :
    (m.decideLoop h l status).Leaves bs := by
  rw [decideLoop]
  split
  · split <;> simpa using hh
  all_goals simpa using hh

theorem leaves_repeatLoop (hh : h.input <:+ bs) (l : Loop) : (m.repeatLoop h l).Leaves bs := by
  rw [repeatLoop]
  split <;> simpa using hh

theorem leaves_eachNext (hh : h.input <:+ bs) (name : Raw) (values : List Raw) (body : Command)
    (tested : Bool) : (m.eachNext h name values body tested).Leaves bs := by
  unfold eachNext
  split
  · simpa using hh
  · split <;> simpa using hh

theorem leaves_selectNext (hh : h.input <:+ bs) (text : Raw) (clauses : List Clause)
    (tested last : Bool) : (m.selectNext h text clauses tested last).Leaves bs := by
  fun_induction selectNext with
  | case1 => simpa using hh
  | case2 _ _ ih => exact ih
  | case3 => simpa using hh

theorem leaves_fitPattern (hh : h.input <:+ bs) (text : Raw) (patterns : List Word)
    (body : Option Command) (clauses : List Clause) (tested last : Bool) :
    (m.fitPattern h text patterns body clauses tested last).Leaves bs := by
  unfold fitPattern
  split
  · split <;> simpa using hh
  · exact leaves_selectNext hh ..

theorem leaves_startCommand (hh : h.input <:+ bs) (c : Command) (tested last : Bool) :
    (m.startCommand h c tested last).Leaves bs := by
  cases c <;> simpa [startCommand] using hh

theorem leaves_runOrReact (hh : h.input <:+ bs) (c : Command) (tested last : Bool) :
    (m.runOrReact h c tested last).Leaves bs := by
  rw [runOrReact]
  split
  · simpa using hh
  split
  · simpa using hh
  · exact leaves_startCommand hh ..

theorem leaves_settle (hh : h.input <:+ bs) (checked last : Bool) :
    (m.settle h checked last).Leaves bs := by
  rw [settle]
  split
  · simpa using hh
  split
  · simpa using hh
  split <;> simpa using hh

/-! ## Texts of commands -/

theorem leaves_finishSource (hh : h.input <:+ bs) (s : Source) :
    (m.finishSource h s).Leaves bs := by
  rw [finishSource]
  split
  · simp only
    split <;> simpa using hh
  all_goals simpa using hh

/-- More of a text is read off the front of what there is. -/
theorem input_readBlock {s s' : Source} (hr : m.readBlock h s = .more s' h') :
    h'.input <:+ h.input := by
  simp only [readBlock] at hr
  split at hr
  · cases hr
    exact List.suffix_refl _
  split at hr
  · cases hr
    exact List.suffix_refl _
  · next handle _ _ =>
    have hread := h.input_read handle blockLength
    split at hr
    · cases hr
    · cases hr
      exact List.suffix_refl _
    · next heq =>
      cases hr
      rw [heq] at hread
      exact hread

theorem input_advance {s s' : Source} (hr : m.advance h s = .more s' h') :
    h'.input <:+ h.input := by
  rw [advance] at hr
  split at hr
  · exact input_readBlock hr
  split at hr
  · split at hr
    · cases hr
    · exact input_readBlock hr
  split at hr
  · exact input_readBlock hr
  · simp only at hr
    split at hr <;> cases hr

theorem leaves_runSource (hh : h.input <:+ bs) (s : Source) : (m.runSource h s).Leaves bs := by
  rw [runSource]
  simp only
  split
  · simpa using hh
  split
  · trivial
  · next hr => simpa using (input_advance hr).trans hh
  · exact leaves_finishSource hh _
  all_goals simpa using hh

/-! ## All frames -/

/-- A command that may have to wait leaves what it leaves once it goes on. -/
theorem leaves_elim {outcome : Option Outcome}
    (hall : ∀ o, outcome = some o → o.host.input <:+ bs) :
    (outcome.elim .waits act).Leaves bs := by
  cases outcome with
  | none => trivial
  | some o => exact leaves_act (hall o rfl)

theorem leaves_openScript (hh : h.input <:+ bs) (path name : Raw) :
    (m.stepFrame h (.openScript path name)).Leaves bs := by
  simp only [stepFrame]
  split
  · simpa using hh
  · next ho =>
    rw [← input_openCommands ho] at hh
    simpa using hh

theorem leaves_stepFrame (hh : h.input <:+ bs) (f : Frame) : (m.stepFrame h f).Leaves bs := by
  cases f with
  | run => exact leaves_runOrReact hh ..
  | settle => exact leaves_settle hh ..
  | decide => exact leaves_decideLoop hh ..
  | repeated => exact leaves_repeatLoop hh _
  | eachValue =>
    simp only [stepFrame]
    split
    · exact leaves_eachNext hh ..
    split
    · exact leaves_eachNext hh ..
    · exact leaves_eachNext hh ..
    · simpa using hh
  | select => exact leaves_selectNext hh ..
  | fit => exact leaves_fitPattern hh ..
  | expand | expandOn => exact leaves_expandWord hh ..
  | collect => exact leaves_collect hh ..
  | words => exact leaves_prepare hh _
  | routes => exact leaves_route hh ..
  | redirect => exact leaves_makeRoutes hh ..
  | stages => exact leaves_runStage hh ..
  | assign p left shown =>
    cases left with
    | nil => exact leaves_assigned hh ..
    | cons => simpa [stepFrame] using hh
  | assigned => exact leaves_assignOne hh ..
  | trace => exact leaves_trace hh ..
  | launch => exact leaves_launch hh _
  | write | writeFailing => exact leaves_writeOutput hh ..
  | await => exact leaves_await hh _
  | awaitJobs => exact leaves_elim fun o ho => input_awaitJobs ho ▸ hh
  | readLine => exact leaves_elim fun o ho => (input_readEntry ho).trans hh
  | commands => exact leaves_runSource hh _
  | openScript => exact leaves_openScript hh ..
  | _ =>
    simp only [stepFrame]
    repeat' split
    all_goals simpa using hh

theorem leaves_finish (hh : h.input <:+ bs) : (m.finish h).Leaves bs := by
  simp only [finish]
  split
  · simpa using hh
  · exact hh

/-- A step of a script leaves an end of what was on standard input. -/
theorem leaves_step (hh : h.input <:+ bs) : (m.step h).Leaves bs := by
  rw [step]
  split
  · exact leaves_finish hh
  · exact leaves_stepFrame hh _

end Script.Machine

end CommandShell
