import CommandShell.Proofs.Input.Host

/-!
# Standard input while a script runs a command

No command of the language puts anything on standard input, which `input_runNamed` says of all of
them. The one that reads a line takes it off behind its own frame, as a step of the script.
-/

namespace CommandShell

namespace Script

/-- The host that a command of the language leaves. -/
def Outcome.host : Outcome → Host
  | .done _ h _ _ | .failed _ h _ _ | .goesOn _ h | .quits _ h _ | .becomes _ h _ => h

namespace Machine

variable {m : Machine} {h : Host} {arguments : List Raw}

/-! ## Commands of the language -/

@[simp] theorem host_done (m : Machine) (h : Host) (status : Nat) :
    (m.done h status).host = h := rfl

@[simp] theorem host_shows (m : Machine) (h : Host) (text : Raw) : (m.shows h text).host = h := rfl

@[simp] theorem host_fails (m : Machine) (h : Host) (message : Raw) :
    (m.fails h message).host = h := rfl

@[simp] theorem host_takes (m : Machine) (h : Host) (s : Scope) (fault : Option Raw) :
    (m.takes h s fault).host = h := by
  cases fault <;> rfl

/-- Options that cannot be read leave the host as it is. -/
theorem input_withOptions {letters : List (Char × Bool)}
    {body : List (Char × Raw) → List Raw → Outcome}
    (hbody : ∀ given rest, (body given rest).host.input = h.input) :
    (m.withOptions h letters arguments body).host.input = h.input := by
  rw [withOptions]
  split
  · rfl
  · exact hbody _ _

/-- A number that cannot be read leaves the host as it is. -/
theorem input_withNumber {body : Option Nat → Outcome}
    (hbody : ∀ n, (body n).host.input = h.input) :
    (m.withNumber h arguments body).host.input = h.input := by
  rw [withNumber]
  split
  · rfl
  · exact hbody _

@[simp] theorem input_runPrintf (m : Machine) (h : Host) (arguments : List Raw) :
    (m.runPrintf h arguments).host.input = h.input := by
  refine input_withOptions fun _ rest => ?_
  split
  · rfl
  · next format arguments =>
    have hcomplaints : ((printed format arguments).complaints.foldl m.complain h).input = h.input :=
      List.foldlRecOn (motive := fun (g : Host) => g.input = h.input) _ _ rfl fun g hg text _ =>
        (input_complain m g text).trans hg
    simp only
    split <;> exact hcomplaints

@[simp] theorem input_runTest (m : Machine) (h : Host) (arguments : List Raw) :
    (m.runTest h arguments).host.input = h.input := by
  rw [runTest]
  split <;> rfl

@[simp] theorem input_runBracket (m : Machine) (h : Host) (arguments : List Raw) :
    (m.runBracket h arguments).host.input = h.input := by
  rw [runBracket]
  split
  · exact m.input_runTest h _
  · rfl

@[simp] theorem input_runEval (m : Machine) (h : Host) (tested : Bool) (arguments : List Raw) :
    (m.runEval h tested arguments).host.input = h.input := by
  rw [runEval]
  split <;> rfl

@[simp] theorem input_runDot (m : Machine) (h : Host) (arguments : List Raw) :
    (m.runDot h arguments).host.input = h.input := by
  refine input_withOptions fun _ rest => ?_
  split
  · rfl
  split
  · rfl
  split
  · rfl
  · next ho => exact input_openCommands ho

@[simp] theorem input_runExec (m : Machine) (h : Host) (arguments : List Raw) :
    (m.runExec h arguments).host.input = h.input := by
  rw [runExec]
  split <;> rfl

@[simp] theorem input_runExit (m : Machine) (h : Host) (arguments : List Raw) :
    (m.runExit h arguments).host.input = h.input :=
  input_withNumber fun _ => rfl

@[simp] theorem input_runReturn (m : Machine) (h : Host) (arguments : List Raw) :
    (m.runReturn h arguments).host.input = h.input :=
  input_withNumber fun _ => rfl

@[simp] theorem input_runLeave (m : Machine) (h : Host) (skip : Nat → Skip)
    (arguments : List Raw) : (m.runLeave h skip arguments).host.input = h.input := by
  refine input_withNumber fun n => ?_
  split <;> rfl

/-! ### Names -/

theorem input_aliasEach (h : Host) (output : Raw) (status : Nat) (m : Machine) (names : List Raw) :
    (aliasEach h output status m names).host.input = h.input := by
  induction names generalizing h output status m with
  | nil => rfl
  | cons a names ih =>
    simp only [aliasEach]
    split
    · exact ih ..
    split
    · exact ih ..
    · rw [ih, input_report]

@[simp] theorem input_runAlias (m : Machine) (h : Host) (arguments : List Raw) :
    (m.runAlias h arguments).host.input = h.input := by
  rw [runAlias]
  split
  · rfl
  · exact input_aliasEach ..

theorem input_unaliasEach (h : Host) (status : Nat) (m : Machine) (names : List Raw) :
    (unaliasEach h status m names).host.input = h.input := by
  induction names generalizing h status m with
  | nil => rfl
  | cons name names ih =>
    rw [unaliasEach]
    split
    · exact ih ..
    · rw [ih, input_report]

@[simp] theorem input_runUnalias (m : Machine) (h : Host) (arguments : List Raw) :
    (m.runUnalias h arguments).host.input = h.input := by
  refine input_withOptions fun given rest => ?_
  split
  · exact input_unaliasEach ..
  · rfl

theorem input_typeEach (h : Host) (output : Raw) (status : Nat) (m : Machine) (names : List Raw) :
    (typeEach h output status m names).host.input = h.input := by
  induction names generalizing output status m with
  | nil => rfl
  | cons name names ih => exact ih ..

@[simp] theorem input_runType (m : Machine) (h : Host) (arguments : List Raw) :
    (m.runType h arguments).host.input = h.input :=
  input_typeEach ..

@[simp] theorem input_runCommand (m : Machine) (h : Host) (arguments : List Raw) :
    (m.runCommand h arguments).host.input = h.input := by
  refine input_withOptions fun given rest => ?_
  simp only
  split
  · split <;> rfl
  · rfl

theorem input_findEach (h : Host) (status : Nat) (m : Machine) (names : List Raw) :
    (findEach h status m names).host.input = h.input := by
  induction names generalizing h status m with
  | nil => rfl
  | cons name names ih =>
    rw [findEach]
    split
    · rw [ih, input_complain]
    · exact ih ..

@[simp] theorem input_runHash (m : Machine) (h : Host) (arguments : List Raw) :
    (m.runHash h arguments).host.input = h.input := by
  refine input_withOptions fun given rest => ?_
  split
  · rfl
  split
  · rfl
  · exact input_findEach ..

/-! ### Places and limits -/

@[simp] theorem input_runCd (m : Machine) (h : Host) (arguments : List Raw) :
    (m.runCd h arguments).host.input = h.input := by
  refine input_withOptions fun given rest => ?_
  simp only
  split <;> rfl

@[simp] theorem input_runPwd (m : Machine) (h : Host) (arguments : List Raw) :
    (m.runPwd h arguments).host.input = h.input :=
  input_withOptions fun _ _ => rfl

@[simp] theorem input_runUmask (m : Machine) (h : Host) (arguments : List Raw) :
    (m.runUmask h arguments).host.input = h.input := by
  refine input_withOptions fun given rest => ?_
  simp only
  split
  · rfl
  split <;> split <;> rfl

@[simp] theorem input_runUlimit (m : Machine) (h : Host) (arguments : List Raw) :
    (m.runUlimit h arguments).host.input = h.input := by
  refine input_withOptions fun given rest => ?_
  simp only
  split
  · split <;> rfl
  split
  · rfl
  split <;> rfl

@[simp] theorem input_runTimes (m : Machine) (h : Host) : (m.runTimes h).host.input = h.input := rfl

/-! ### Settings -/

@[simp] theorem input_runSet (m : Machine) (h : Host) (arguments : List Raw) :
    (m.runSet h arguments).host.input = h.input := by
  rw [runSet]
  split
  · rfl
  simp only
  split
  · rfl
  · exact input_withoutMonitor ..

@[simp] theorem input_runMark (m : Machine) (h : Host) (name : Raw) (change : Variable → Variable)
    (marked : Variable → Bool) (arguments : List Raw) :
    (m.runMark h name change marked arguments).host.input = h.input := by
  refine input_withOptions fun given rest => ?_
  split
  · exact congrArg Host.input (host_takes ..)
  · rfl

@[simp] theorem input_runExport (m : Machine) (h : Host) (arguments : List Raw) :
    (m.runExport h arguments).host.input = h.input :=
  input_runMark ..

@[simp] theorem input_runReadonly (m : Machine) (h : Host) (arguments : List Raw) :
    (m.runReadonly h arguments).host.input = h.input :=
  input_runMark ..

@[simp] theorem input_runUnset (m : Machine) (h : Host) (arguments : List Raw) :
    (m.runUnset h arguments).host.input = h.input := by
  refine input_withOptions fun given rest => ?_
  split
  · rfl
  · exact congrArg Host.input (host_takes ..)

@[simp] theorem input_runLocal (m : Machine) (h : Host) (arguments : List Raw) :
    (m.runLocal h arguments).host.input = h.input := by
  rw [runLocal]
  split
  · rfl
  · exact congrArg Host.input (host_takes ..)

@[simp] theorem input_runShift (m : Machine) (h : Host) (arguments : List Raw) :
    (m.runShift h arguments).host.input = h.input := by
  rw [runShift]
  split
  · rfl
  split <;> rfl

@[simp] theorem input_runGetopts (m : Machine) (h : Host) (arguments : List Raw) :
    (m.runGetopts h arguments).host.input = h.input := by
  unfold runGetopts
  split
  · simp only
    split <;> (simp only [host_done, host_fails]; split <;> simp)
  · rfl

/-! ### Signals -/

theorem input_reactEach (h : Host) (action : Option Raw) (m : Machine) (names : List Raw) :
    (reactEach h action m names).host.input = h.input := by
  induction names generalizing m with
  | nil => rfl
  | cons name names ih =>
    rw [reactEach]
    split
    · exact input_report ..
    · exact ih _

@[simp] theorem input_runTrap (m : Machine) (h : Host) (arguments : List Raw) :
    (m.runTrap h arguments).host.input = h.input := by
  refine input_withOptions fun _ rest => ?_
  split
  · rfl
  · exact input_reactEach ..
  · split <;> exact input_reactEach ..

theorem input_killEach (m : Machine) (signal status : Nat) (h : Host) (targets : List Raw) :
    (m.killEach signal status h targets).host.input = h.input := by
  induction targets generalizing h status with
  | nil => rfl
  | cons text targets ih =>
    rw [killEach]
    split
    · rfl
    · rw [ih, input_complain]
    · rw [ih]
      split <;> rfl

theorem input_showSignals (m : Machine) (h : Host) (arguments : List Raw) :
    (m.showSignals h arguments).host.input = h.input := by
  unfold showSignals
  split
  · rfl
  split
  · rfl
  · simp only
    split <;> split <;> rfl

@[simp] theorem input_runKill (m : Machine) (h : Host) (arguments : List Raw) :
    (m.runKill h arguments).host.input = h.input := by
  have hsend (signal : Nat) (rest : List Raw) :
      (if rest.isEmpty then m.fails h killUsage else m.killEach signal 0 h rest).host.input =
        h.input := by
    split
    · rfl
    · exact input_killEach ..
  simp only [runKill]
  split
  · exact hsend ..
  split
  · rfl
  refine input_withOptions fun given rest => ?_
  split
  · rfl
  split
  · split
    · rfl
    · exact input_showSignals ..
  · exact hsend ..

/-! ### Jobs -/

theorem input_showEach (how : Option Char) (h : Host) (output : Raw) (m : Machine)
    (names : List Raw) : (showEach how h output m names).host.input = h.input := by
  induction names generalizing output m with
  | nil => rfl
  | cons name names ih =>
    rw [showEach]
    split
    · rfl
    · exact ih ..

@[simp] theorem input_runJobs (m : Machine) (h : Host) (arguments : List Raw) :
    (m.runJobs h arguments).host.input = h.input := by
  refine input_withOptions fun given rest => ?_
  simp only
  split
  · exact input_updateJobs ..
  · exact (input_showEach ..).trans (input_updateJobs ..)

@[simp] theorem input_runResume (m : Machine) (h : Host) (arguments : List Raw) :
    (m.runResume h arguments).host.input = h.input := by
  refine input_withOptions fun _ rest => ?_
  split <;> rfl

@[simp] theorem input_runWait (m : Machine) (h : Host) (arguments : List Raw) :
    (m.runWait h arguments).host.input = h.input :=
  input_withOptions fun _ _ => rfl

@[simp] theorem input_runRead (m : Machine) (h : Host) (arguments : List Raw) :
    (m.runRead h arguments).host.input = h.input := by
  refine input_withOptions fun _ rest => ?_
  split <;> rfl

/-! ### Commands with a frame of their own -/

theorem input_awaitJobs {named : Option (List Raw)} {status : Nat} {o : Outcome}
    (ho : m.awaitJobs h named status = some o) : o.host.input = h.input := by
  have hcut {m' : Machine} {after : Host} (ha : after.input = h.input)
      (ho : m'.cutShort?.map (fun status => m'.done after status) = some o) :
      o.host.input = h.input := by
    obtain ⟨_, -, rfl⟩ := Option.map_eq_some_iff.mp ho
    exact ha
  unfold awaitJobs at ho
  split at ho
  · simp only at ho
    split at ho
    · cases ho
      exact input_updateJobs ..
    · exact hcut (input_updateJobs m h) ho
  · cases ho
    rfl
  · split at ho
    · cases ho
      rfl
    · cases ho
      rfl
    · next j _ =>
      have hupdate : (m.reportEndings (j.update h).2.2 (j.update h).2.1).input = h.input := by simp
      simp only at ho
      split at ho
      · cases ho
        exact hupdate
      split at ho
      · exact hcut hupdate ho
      · cases ho
        exact hupdate

theorem host_endEntry (m : Machine) (h : Host) (e : Entry) (status : Nat) :
    (m.endEntry h e status).host = h := by
  simp only [endEntry]
  split <;> rfl

/-- The command that reads a line takes what it reads off the front. -/
theorem input_readEntry {e : Entry} {o : Outcome} (ho : m.readEntry h e = some o) :
    o.host.input <:+ h.input := by
  have hend {after : Host} (ha : after.input <:+ h.input) {e : Entry} {status : Nat}
      (ho : some (m.endEntry after e status) = some o) : o.host.input <:+ h.input := by
    cases ho
    rwa [host_endEntry]
  have hrefl : h.input <:+ h.input := List.suffix_refl _
  rw [readEntry] at ho
  split at ho
  · exact hend hrefl ho
  split at ho
  · exact hend hrefl ho
  simp only at ho
  split at ho
  · split at ho
    · exact hend hrefl ho
    · cases ho
  · next handle _ _ _ =>
    split at ho
    · exact hend (h.input_consume handle _) ho
    · cases ho
      exact h.input_consume handle _

/-! ### All commands -/

/-- No command of the language puts anything on standard input, nor takes anything off before its
own frame is on top. -/
theorem input_runNamed (m : Machine) (h : Host) (tested : Bool) (name : Raw)
    (arguments : List Raw) : (m.runNamed h tested name arguments).host.input = h.input := by
  unfold runNamed
  split
  all_goals simp

end Machine

end Script

end CommandShell
