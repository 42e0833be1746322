import CommandShell.Proofs.History.Appends
import CommandShell.Proofs.History.Listing

/-!
# Several files of the history at once

`history` can be given a file to read, one to write and one to append to at once, in any order.
`history_files_in_turn` says that this is the same as reading, writing and appending by commands of
their own, up to the first that fails.
-/

namespace CommandShell

/-! ## The options for files -/

namespace HistoryTask

/-- The option that names the file of a task. -/
def option : HistoryTask → OptionSpec
  | read => ⟨"read", some 'r', true⟩
  | write => ⟨"write", some 'w', true⟩
  | append => ⟨"append", some 'a', true⟩

/-- The short spelling of the option of a task. -/
def flag : HistoryTask → String
  | read => "-r"
  | write => "-w"
  | append => "-a"

/-- Does a task with a file. -/
def perform (task : HistoryTask) (file : String) (sh : Shell) : BuiltinResult :=
  match task with
  | read => sh.readHistory (some file)
  | write => sh.writeHistory (some file)
  | append => sh.appendHistory (some file)

/-- The command for a task alone. -/
def command (task : HistoryTask) (file : String) : List String := ["history", task.flag, file]

/-- Names of tasks are different. -/
theorem long_injective {task task' : HistoryTask} (h : task.option.long = task'.option.long) :
    task = task' := by
  cases task <;> cases task' <;> first | rfl | exact absurd h (by decide)

/-- The options that name some files. -/
def named (given : List (HistoryTask × String)) : List (String × String) :=
  given.map fun g => (g.1.option.long, g.2)

theorem lookup_named_eq_none {given : List (HistoryTask × String)} {task : HistoryTask}
    (h : task ∉ given.map Prod.fst) : (named given).lookup task.option.long = none := by
  rw [List.lookup_eq_none_iff]
  intro p hp
  obtain ⟨g, hg, rfl⟩ := List.mem_map.mp hp
  have hne : task.option.long ≠ g.1.option.long := fun heq =>
    h (List.mem_map.mpr ⟨g, hg, (long_injective heq).symm⟩)
  simpa using hne

theorem lookup_named {given : List (HistoryTask × String)} {task : HistoryTask} {file : String}
    (h : (given.map Prod.fst).Nodup) :
    (named given).lookup task.option.long = some file ↔ (task, file) ∈ given := by
  induction given with
  | nil => simp [named]
  | cons g given ih =>
    obtain ⟨task', file'⟩ := g
    rw [List.map_cons, List.nodup_cons] at h
    rw [named, List.map_cons, List.lookup_cons, List.mem_cons]
    by_cases heq : task = task'
    · subst heq
      have hrest : (task, file) ∉ given := fun hmem => h.1 (List.mem_map.mpr ⟨_, hmem, rfl⟩)
      simp [hrest, eq_comm]
    · have hne : task.option.long ≠ task'.option.long := fun h => heq (long_injective h)
      simp only [beq_eq_false_iff_ne.mpr hne, Prod.mk.injEq, heq, false_and, false_or]
      exact ih h.2

end HistoryTask

namespace Grammar

variable {a : Arguments} {task : HistoryTask} {file : String}

/-- What stands behind the option of a task is its file, whatever it looks like. -/
theorem readFrom_flag (hopen : a.optionsOpen = true) (hhelp : a.help = false)
    (hnew : a.value? task.option.long = none) (rest : List String) :
    history.readFrom a (task.flag :: file :: rest) =
      history.readFrom (a.addOption task.option.long file) rest := by
  have hfind : history.options.find? (·.isSpelled task.flag) = some task.option := by
    cases task <;> decide
  have hflag : task.flag ≠ "--help" ∧ task.flag ≠ "help" ∧ task.flag ≠ "--" ∧
      task.flag.toList.head? = some '-' ∧ task.option.takesValue = true := by
    cases task <;> decide
  rw [readFrom]
  simp [hopen, hhelp, hfind, hflag, hnew]

/-- Files that are given for different tasks are taken, in any order. -/
theorem readFrom_flags {given : List (HistoryTask × String)} (hopen : a.optionsOpen = true)
    (hhelp : a.help = false) (hnew : ∀ g ∈ given, a.value? g.1.option.long = none)
    (hnodup : (given.map Prod.fst).Nodup) (rest : List String) :
    history.readFrom a ((given.flatMap fun g => [g.1.flag, g.2]) ++ rest) =
      history.readFrom { a with options := a.options ++ HistoryTask.named given } rest := by
  induction given generalizing a with
  | nil => rw [HistoryTask.named, List.map_nil, List.append_nil, List.flatMap_nil, List.nil_append]
  | cons g given ih =>
    rw [List.forall_mem_cons] at hnew
    rw [List.map_cons, List.nodup_cons] at hnodup
    rw [List.flatMap_cons, List.append_assoc, List.cons_append, List.cons_append, List.nil_append,
      readFrom_flag hopen hhelp hnew.1, ih (a := a.addOption _ _) hopen hhelp ?_ hnodup.2]
    · simp [Arguments.addOption, HistoryTask.named]
    · -- The file of another task is recorded under another name.
      intro g' hg'
      have hother : g'.1.option.long ≠ g.1.option.long := by
        intro heq
        exact hnodup.1 (List.mem_map.mpr ⟨g', hg', HistoryTask.long_injective heq⟩)
      have hold := hnew.2 g' hg'
      rw [Arguments.value?] at hold
      simp [Arguments.value?, Arguments.addOption, List.lookup_append, hold, hother]

end Grammar

/-- The files that are given to tasks, in the order in which the tasks are done. -/
def Arguments.historyFiles (a : Arguments) : List (HistoryTask × String) :=
  [HistoryTask.read, .write, .append].filterMap fun task =>
    (a.value? task.option.long).map (task, ·)

theorem Arguments.mem_historyFiles {a : Arguments} {task : HistoryTask} {file : String} :
    (task, file) ∈ a.historyFiles ↔ a.value? task.option.long = some file := by
  cases task <;> simp [historyFiles]

/-- Files are taken for their tasks in whatever order they are given, and wherever a count stands
between them. -/
theorem Grammar.exists_accepted?_flags {left right : List (HistoryTask × String)}
    {count : Option String} (hnodup : ((left ++ right).map Prod.fst).Nodup)
    (hcount : ∀ text ∈ count, ∃ n, readNumber text = .ok n) :
    ∃ a, history.accepted? ((left.flatMap fun g => [g.1.flag, g.2]) ++ (count.toList ++
        right.flatMap fun g => [g.1.flag, g.2])) = some a ∧
      ∀ g, g ∈ a.historyFiles ↔ g ∈ left ++ right := by
  have hall := hnodup
  rw [List.map_append, List.nodup_append] at hnodup
  obtain ⟨hleft, hright, hapart⟩ := hnodup
  let a : Arguments := ⟨false, true, HistoryTask.named left, count.toList⟩
  have hfirst := readFrom_flags (a := ⟨false, true, [], []⟩) rfl rfl (fun _ _ => rfl) hleft
  have hsecond (rest : List String) :
      history.readFrom ⟨false, true, HistoryTask.named left, []⟩ (count.toList ++ rest) =
        history.readFrom a rest := by
    cases count with
    | none => rfl
    | some text =>
      obtain ⟨n, hn⟩ := hcount text rfl
      exact readFrom_count rfl rfl hn rest
  have hnew : ∀ g ∈ right, a.value? g.1.option.long = none := by
    intro g hg
    refine HistoryTask.lookup_named_eq_none fun hmem => ?_
    exact hapart _ hmem _ (List.mem_map_of_mem hg) rfl
  have hthird := readFrom_flags (a := a) rfl rfl hnew hright []
  rw [List.append_nil] at hthird
  have hnamed : HistoryTask.named left ++ HistoryTask.named right =
      HistoryTask.named (left ++ right) := List.map_append.symm
  refine ⟨{ a with options := HistoryTask.named (left ++ right) }, ?_, ?_⟩
  · rw [accepted?, read, hfirst, List.nil_append, hsecond, hthird, readFrom, hnamed]
    rfl
  · rintro ⟨task, file⟩
    rw [Arguments.mem_historyFiles]
    exact HistoryTask.lookup_named hall

/-! ## Doing tasks -/

namespace HistoryTask

variable {sh sh' : Shell} {task : HistoryTask} {file : String}

/-- A task that succeeds has nothing to tell. -/
theorem perform_eq_ok {report : Report} (h : task.perform file sh = (.ok report, sh')) :
    report = .silent ∧ sh'.process = sh.process := by
  cases task with
  | read =>
    rw [perform, Shell.readHistory] at h
    split at h <;> cases h
    exact ⟨rfl, rfl⟩
  | write =>
    rw [perform, Shell.writeHistory] at h
    split at h <;> cases h
    exact ⟨rfl, rfl⟩
  | append =>
    rw [perform, Shell.appendHistory] at h
    split at h <;> cases h
    exact ⟨rfl, rfl⟩

/-- A task that fails tells of its file, and leaves all but the host as it was. -/
theorem perform_eq_error {fault : BuiltinFault} (h : task.perform file sh = (.error fault, sh')) :
    ∃ cause host, fault = .history ⟨task, file, cause⟩ ∧ sh' = { sh with host := host } := by
  cases task with
  | read =>
    rw [perform, Shell.readHistory] at h
    split at h
    · cases h
    · next e hread =>
      cases h
      obtain ⟨cause, rfl⟩ := History.fault_of_read hread
      exact ⟨cause, sh.host, rfl, rfl⟩
  | write =>
    rw [perform, Shell.writeHistory] at h
    split at h
    · cases h
    · next e host hwrite =>
      cases h
      obtain ⟨cause, rfl⟩ := History.fault_of_write hwrite
      exact ⟨cause, host, rfl, rfl⟩
  | append =>
    rw [perform, Shell.appendHistory] at h
    split at h
    · cases h
    · next e history host happend =>
      cases h
      obtain ⟨rfl, cause, rfl⟩ := History.fault_of_append happend
      exact ⟨cause, host, rfl, rfl⟩

/-- Does tasks with their files one after the other, up to the first that fails. -/
def performAll : List (HistoryTask × String) → Shell → BuiltinResult
  | [], sh => (.ok .silent, sh)
  | (task, file) :: rest, sh => Shell.andThen (task.perform file sh) (performAll rest)

theorem performAll_singleton (task : HistoryTask) (file : String) (sh : Shell) :
    performAll [(task, file)] sh = task.perform file sh := by
  rw [performAll]
  rcases h : task.perform file sh with ⟨fault | report, sh'⟩
  · rfl
  · rw [(perform_eq_ok h).1]
    rfl

/-- Tasks are all done, or those in front of one that fails. -/
theorem performAll_cases (given : List (HistoryTask × String)) (sh : Shell) :
    (∃ sh', performAll given sh = (.ok .silent, sh') ∧ sh'.process = sh.process) ∨
      ∃ before task file after sh' cause host, given = before ++ (task, file) :: after ∧
        performAll before sh = (.ok .silent, sh') ∧ sh'.process = sh.process ∧
        task.perform file sh' =
          (.error (.history ⟨task, file, cause⟩), { sh' with host := host }) ∧
        performAll given sh =
          (.error (.history ⟨task, file, cause⟩), { sh' with host := host }) := by
  induction given generalizing sh with
  | nil => exact .inl ⟨sh, rfl, rfl⟩
  | cons g given ih =>
    obtain ⟨task, file⟩ := g
    rcases hfirst : task.perform file sh with ⟨fault | report, sh'⟩
    · obtain ⟨cause, host, rfl, rfl⟩ := perform_eq_error hfirst
      refine .inr ⟨[], task, file, given, sh, cause, host, rfl, rfl, rfl, hfirst, ?_⟩
      rw [performAll, hfirst]
      rfl
    · obtain ⟨rfl, hprocess⟩ := perform_eq_ok hfirst
      have hcons (rest : List (HistoryTask × String)) :
          performAll ((task, file) :: rest) sh = performAll rest sh' := by
        rw [performAll, hfirst]
        rfl
      rcases ih sh' with ⟨last, hall, hlast⟩ |
        ⟨before, failing, path, after, mid, cause, host, rfl, hbefore, hmid, hfails, hall⟩
      · exact .inl ⟨last, by rw [hcons, hall], hlast.trans hprocess⟩
      · exact .inr ⟨(task, file) :: before, failing, path, after, mid, cause, host, rfl,
          by rw [hcons, hbefore], hmid.trans hprocess, hfails, by rw [hcons, hall]⟩

end HistoryTask

/-- `history` with files does its tasks in order and lists nothing. -/
theorem Shell.runHistory_eq_performAll (sh : Shell) {a : Arguments} (hfiles : a.historyFiles ≠ [])
    (count : Option Nat) :
    sh.runHistory (a.value? "read") (a.value? "write") (a.value? "append") count =
      HistoryTask.performAll a.historyFiles sh := by
  rw [runHistory]
  split
  · next hnone =>
    simp only [Bool.and_eq_true, Option.isNone_iff_eq_none] at hnone
    refine absurd ?_ hfiles
    simp [Arguments.historyFiles, HistoryTask.option, hnone]
  · have hlast (file : Option String) (sh : Shell) :
        sh.appendHistory file =
          HistoryTask.performAll (file.map (HistoryTask.append, ·)).toList sh := by
      cases file with
      | none => rfl
      | some path => exact (HistoryTask.performAll_singleton .append path sh).symm
    have hgiven : a.historyFiles = ((a.value? "read").map (HistoryTask.read, ·)).toList ++
        (((a.value? "write").map (HistoryTask.write, ·)).toList ++
          ((a.value? "append").map (HistoryTask.append, ·)).toList) := by
      simp only [Arguments.historyFiles, List.filterMap_cons, HistoryTask.option, List.filterMap_nil]
      cases a.value? "read" <;> cases a.value? "write" <;> cases a.value? "append" <;> rfl
    rw [hgiven]
    simp only [hlast]
    cases a.value? "read" <;> cases a.value? "write" <;> rfl

/-! ## Commands -/

namespace Builtin

variable {registry : Registry} {streams : Streams} {sh sh' : Shell} {arguments : List String}

/-- The message of a failure, as it is written to standard error. -/
def complaint (streams : Streams) (p : Process) (fault : BuiltinFault) : Emission :=
  ⟨streams.errorHandle p, Text.encode (fault.message ++ "\n"), .ignore, none⟩

/-- What tasks of the history come to: nothing is written but the message of a failure. -/
def concluded (streams : Streams) : BuiltinResult → Answer
  | (.ok _, sh) => ⟨sh, [], some 0⟩
  | (.error fault, sh) => ⟨sh, [complaint streams sh.process fault], some 1⟩

/-- `history` with files comes to what its tasks do. -/
theorem answer_historyFiles {a : Arguments} (ha : Grammar.history.accepted? arguments = some a)
    (hfiles : a.historyFiles ≠ []) (called : String) :
    history.answer registry (called :: arguments) streams sh =
      concluded streams (HistoryTask.performAll a.historyFiles sh) := by
  rw [Grammar.accepted?] at ha
  split at ha
  · next hread =>
    split at ha
    · cases ha
    · next hhelp =>
      cases ha
      simp only [answer, withArguments, List.drop_one, List.tail_cons, hread, hhelp,
        Bool.false_eq_true, ↓reduceIte, Shell.runHistory_eq_performAll sh hfiles]
      rcases HistoryTask.performAll_cases a.historyFiles sh with ⟨sh', hall, -⟩ |
        ⟨-, task, file, -, sh', cause, host, -, -, -, -, hall⟩
      · rw [hall]
        rfl
      · rw [hall]
        rfl
  · cases ha

/-- A command for one task comes to what the task does. -/
theorem answer_command (task : HistoryTask) (file : String) :
    history.answer registry (task.command file) streams sh =
      concluded streams (task.perform file sh) := by
  have hread : Grammar.history.readFrom ⟨false, true, [], []⟩ [task.flag, file] =
      Grammar.history.readFrom ⟨false, true, [(task.option.long, file)], []⟩ [] :=
    Grammar.readFrom_flag rfl rfl rfl []
  have ha : Grammar.history.accepted? [task.flag, file] =
      some ⟨false, true, [(task.option.long, file)], []⟩ := by
    rw [Grammar.accepted?, Grammar.read, hread]
    rfl
  have hfiles : Arguments.historyFiles ⟨false, true, [(task.option.long, file)], []⟩ =
      [(task, file)] := by
    cases task <;> rfl
  rw [HistoryTask.command, answer_historyFiles ha (by simp [hfiles]), hfiles,
    HistoryTask.performAll_singleton]

/-- Runs commands of `history` one after the other, up to the first that fails. -/
def inTurn (registry : Registry) (streams : Streams) :
    List (List String) → Shell → Option Status × Shell
  | [], sh => (some 0, sh)
  | command :: commands, sh =>
    let r := history.run registry command streams sh
    if r.1 = some 0 then inTurn registry streams commands r.2 else r

/-- What is left of what a builtin comes to, once all that it has to write was written as far as
that is possible. -/
def settled (streams : Streams) (a : Answer) : Option Status × Shell :=
  let (written, host) :=
    Emission.writeAll a.shell.process (streams.errorHandle a.shell.process) a.emissions a.shell.host
  (if written then a.status else some 1, { a.shell with host := host })

/-- A failure is of status one and changes nothing but the host, whether its message can be written
or not. -/
theorem exists_settled_error (fault : BuiltinFault) (sh : Shell) :
    ∃ host, settled streams (concluded streams (.error fault, sh)) =
      (some 1, { sh with host := host }) := by
  refine ⟨_, Prod.ext ?_ rfl⟩
  simp only [settled, concluded]
  exact ite_self _

/-- Commands for single tasks leave what the tasks come to together. -/
theorem inTurn_eq (given : List (HistoryTask × String)) (sh : Shell) :
    inTurn registry streams (given.map fun g => g.1.command g.2) sh =
      settled streams (concluded streams (HistoryTask.performAll given sh)) := by
  induction given generalizing sh with
  | nil => rfl
  | cons g given ih =>
    obtain ⟨task, file⟩ := g
    have hrun : history.run registry (task.command file) streams sh =
        settled streams (concluded streams (task.perform file sh)) :=
      congrArg (settled streams) (answer_command task file)
    rw [List.map_cons, inTurn, hrun, HistoryTask.performAll]
    rcases task.perform file sh with ⟨fault | report, sh'⟩
    · obtain ⟨host, hsettled⟩ : ∃ host, settled streams (concluded streams (.error fault, sh')) =
          (some 1, { sh' with host := host }) := exists_settled_error fault sh'
      simp only [Shell.andThen, hsettled]
      rfl
    · exact ih sh'

/-- `history` with files, in whatever order they are given and with or without a count, is the
commands that read, write and append, in this order, up to the first that fails. If all succeed,
nothing is written, so nothing is listed. If one of them fails, all that is written is the message
of its failure to standard error; the status is one, and but for the host all is as the commands in
front of it have left it. -/
theorem history_files_in_turn (registry : Registry) (streams : Streams) (sh : Shell) :
    (∀ (left right : List (HistoryTask × String)) (count : Option String),
      ((left ++ right).map Prod.fst).Nodup → (∀ text ∈ count, ∃ n, readNumber text = .ok n) →
      ∃ a, Grammar.history.accepted? ((left.flatMap fun g => [g.1.flag, g.2]) ++
          (count.toList ++ right.flatMap fun g => [g.1.flag, g.2])) = some a ∧
        ∀ g, g ∈ a.historyFiles ↔ g ∈ left ++ right) ∧
    ∀ called arguments a, Grammar.history.accepted? arguments = some a → a.historyFiles ≠ [] →
      history.run registry (called :: arguments) streams sh =
        inTurn registry streams (a.historyFiles.map fun g => g.1.command g.2) sh ∧
      ((∃ sh', history.answer registry (called :: arguments) streams sh = ⟨sh', [], some 0⟩ ∧
          history.run registry (called :: arguments) streams sh = (some 0, sh')) ∨
        ∃ before task file after sh' cause host,
          a.historyFiles = before ++ (task, file) :: after ∧
          inTurn registry streams (before.map fun g => g.1.command g.2) sh = (some 0, sh') ∧
          history.answer registry (called :: arguments) streams sh =
            ⟨{ sh' with host := host },
              [complaint streams sh.process (.history ⟨task, file, cause⟩)], some 1⟩ ∧
          history.answer registry (task.command file) streams sh' =
            history.answer registry (called :: arguments) streams sh ∧
          ∃ host', history.run registry (called :: arguments) streams sh =
            (some 1, { sh' with host := host' })) := by
  refine ⟨fun left right count => Grammar.exists_accepted?_flags, ?_⟩
  intro called arguments a ha hfiles
  have hanswer : history.answer registry (called :: arguments) streams sh =
      concluded streams (HistoryTask.performAll a.historyFiles sh) :=
    answer_historyFiles ha hfiles called
  have hrun : history.run registry (called :: arguments) streams sh =
      settled streams (concluded streams (HistoryTask.performAll a.historyFiles sh)) :=
    congrArg (settled streams) hanswer
  refine ⟨by rw [inTurn_eq, hrun], ?_⟩
  rcases HistoryTask.performAll_cases a.historyFiles sh with ⟨sh', hall, -⟩ |
    ⟨before, task, file, after, sh', cause, host, hgiven, hbefore, hprocess, hfails, hall⟩
  · rw [hall] at hanswer hrun
    exact .inl ⟨sh', hanswer, hrun⟩
  · rw [hall] at hanswer hrun
    refine .inr ⟨before, task, file, after, sh', cause, host, hgiven, ?_, ?_, ?_, ?_⟩
    · rw [inTurn_eq, hbefore]
      rfl
    · rw [hanswer, ← hprocess]
      rfl
    · rw [hanswer, answer_command, hfails]
    · rw [hrun]
      exact exists_settled_error _ { sh' with host := host }

/-- A file is read and then a directory cannot be written, which was asked for the other way
round. -/
theorem history_files_in_turn_directory :
    let files := (FileSystem.empty.put ["tmp"] .directory).put ["tmp", "h"]
      (.file 0o644 (Text.encode "a\n"))
    let sh : Shell := .start ⟨[], "/tmp", false⟩ ["tmp"] (.start files [] [])
    let given := ["-w", "/", "7", "-r", "h"]
    ∃ a, Grammar.history.accepted? given = some a ∧
      a.historyFiles = [(.read, "h"), (.write, "/")] ∧ a.historyFiles ≠ [] ∧
      history.run .default ("history" :: given) .inherited sh =
        inTurn .default .inherited [["history", "-r", "h"], ["history", "-w", "/"]] sh ∧
      (history.run .default ("history" :: given) .inherited sh).1 = some 1 ∧
      (history.run .default ("history" :: given) .inherited sh).2.history = ⟨["a"], 0⟩ := by
  intro files sh given
  let a : Arguments := ⟨false, true, [("write", "/"), ("read", "h")], ["7"]⟩
  have ha : Grammar.history.accepted? given = some a := by decide
  have hfiles : a.historyFiles = [(.read, "h"), (.write, "/")] := by decide
  have hne : a.historyFiles ≠ [] := by decide
  obtain ⟨hrun, hcases⟩ :=
    (history_files_in_turn .default .inherited sh).2 "history" given a ha hne
  have hfault : (HistoryTask.performAll [(.read, "h"), (.write, "/")] sh).1 =
      .error (.history ⟨.write, "/", .isDirectory⟩) := by
    simp only [sh, files]
    cbv
  have hread : (HistoryTask.performAll [(.read, "h"), (.write, "/")] sh).2.history =
      ⟨["a"], 0⟩ := by
    simp only [sh, files]
    cbv
  have hanswer : history.answer .default ("history" :: given) .inherited sh =
      concluded .inherited (HistoryTask.performAll a.historyFiles sh) :=
    answer_historyFiles ha hne "history"
  rw [hfiles, ← Prod.eta (HistoryTask.performAll [(.read, "h"), (.write, "/")] sh), hfault] at hanswer
  refine ⟨a, ha, hfiles, hne, hrun, ?_⟩
  rcases hcases with ⟨sh', hok, -⟩ | ⟨_, _, _, _, sh', _, host, -, -, herror, -, host', hrun'⟩
  · cases hanswer.symm.trans hok
  · have hshell := congrArg (fun a => a.shell.history) (hanswer.symm.trans herror)
    rw [hrun']
    exact ⟨rfl, hshell.symm.trans hread⟩

end Builtin

end CommandShell
