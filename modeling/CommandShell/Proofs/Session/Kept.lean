import Mathlib
import CommandShell.Session

/-!
# What running a line keeps

`Frames` is for what a line keeps of the shell whatever happens on the host: it has to be shown of
the builtins that change the shell itself, and then holds of all lines. So a line that names no
history file to a `history` builtin leaves the history alone, and no line changes the descriptors of
the shell.
-/

namespace CommandShell

namespace Registry

/-- The usual builtins by their names. -/
theorem mem_of_lookup_default {name : String} {b : Builtin} (h : default.lookup name = some b) :
    (name, b) ∈ [("cd", .cd), ("echo", .echo), ("exit", .exit), ("history", .history),
      ("pwd", .pwd), ("type", Builtin.type)] := by
  have hentries : default.entries = [("cd", .cd), ("echo", .echo), ("exit", .exit),
      ("history", .history), ("pwd", .pwd), ("type", Builtin.type)] := by cbv
  rw [lookup, hentries] at h
  obtain ⟨before, behind, heq, -⟩ := List.lookup_eq_some_iff.mp h
  rw [heq]
  simp

/-- Whether no builtin of a registry was supplied from outside. -/
def IsOwn (r : Registry) : Prop := ∀ name conduct, r.lookup name ≠ some (.added conduct)

theorem isOwn_default : default.IsOwn := by
  intro name conduct h
  simpa using mem_of_lookup_default h

end Registry

namespace Shell

/-- A name that stands for a builtin is that builtin's in the registry. -/
theorem lookup_of_resolve {sh : Shell} {registry : Registry} {name : String} {b : Builtin}
    (h : sh.resolve registry name = .builtin b) : registry.lookup name = some b := by
  rw [resolve] at h
  split at h
  · next heq =>
    cases h
    exact heq
  · split at h <;> cases h

/-- Whether a relation of shells to those that come of them holds for changes of the host, and for
one change after another. -/
structure Frames (R : Shell → Shell → Prop) : Prop where
  host : ∀ (sh : Shell) (h : Host), R sh { sh with host := h }
  trans : ∀ {sh sh' sh'' : Shell}, R sh sh' → R sh' sh'' → R sh sh''

namespace Frames

variable {R : Shell → Shell → Prop} {sh : Shell} {registry : Registry} {stage : Stage}
  {arguments : List String}

theorem refl (hR : Frames R) (sh : Shell) : R sh sh := hR.host sh sh.host

/-! ## Builtins -/

/-- A second step stays within the relation if both steps do. -/
theorem andThen {first : BuiltinResult} {second : Shell → BuiltinResult} (hR : Frames R)
    (hfirst : R sh first.2) (hsecond : ∀ sh, R sh (second sh).2) :
    R sh (Shell.andThen first second).2 := by
  obtain ⟨e | report, after⟩ := first
  · exact hfirst
  · exact hR.trans hfirst (hsecond after)

/-- Files of a history are read and written with changes of the host and the history only. -/
theorem runHistory (hR : Frames R)
    (hhistory : ∀ (sh : Shell) (history : History), R sh { sh with history := history })
    (sh : Shell) (read write append : Option String) (count : Option Nat) :
    R sh (sh.runHistory read write append count).2 := by
  have hread (sh : Shell) : R sh (sh.readHistory read).2 := by
    cases read with
    | none => exact hR.refl sh
    | some path =>
      rw [readHistory]
      split
      · exact hhistory sh _
      · exact hR.refl sh
  have hwrite (sh : Shell) : R sh (sh.writeHistory write).2 := by
    cases write with
    | none => exact hR.refl sh
    | some path =>
      rw [writeHistory]
      split <;> exact hR.host sh _
  have happend (sh : Shell) : R sh (sh.appendHistory append).2 := by
    cases append with
    | none => exact hR.refl sh
    | some path =>
      rw [appendHistory]
      split <;> next history host _ =>
        exact hR.trans (hhistory sh history) (hR.host { sh with history := history } host)
  rw [Shell.runHistory]
  split
  · exact hR.refl sh
  · exact hR.andThen (hread sh) fun sh => hR.andThen (hwrite sh) happend

/-- A builtin that reads its arguments leaves the shell to what it does with them. -/
theorem withArguments (hR : Frames R) {name : String} {grammar : Grammar} {help : String}
    {streams : Streams} {body : Arguments → BuiltinResult}
    (h : ∀ a, grammar.read arguments = .ok a → a.help = false → R sh (body a).2) :
    R sh (Builtin.withArguments name grammar help arguments streams sh body).shell := by
  simp only [Builtin.withArguments]
  split
  · exact hR.refl sh
  · next read hread =>
    split
    · exact hR.refl sh
    · next hhelp =>
      have hbody := h read hread (by simpa using hhelp)
      split <;> next heq => rw [heq] at hbody; exact hbody

/-- Besides the host, only `cd`, `exit`, `history` and builtins from outside change the shell. -/
theorem answer (hR : Frames R) {b : Builtin}
    (hadded : ∀ conduct, b = .added conduct → ∀ environment history,
      R sh { sh with environment := environment, history := history })
    (hcd : b = .cd → ∀ target, R sh (sh.runCd target).2)
    (hexit : R sh { sh with environment := { sh.environment with leaving := true } })
    (hhistory : b = .history → ∀ a, Grammar.history.read (arguments.drop 1) = .ok a →
      a.help = false → ∀ count,
        R sh (sh.runHistory (a.value? "read") (a.value? "write") (a.value? "append") count).2)
    (registry : Registry) (streams : Streams) :
    R sh (b.answer registry arguments streams sh).shell := by
  cases b with
  | echo => exact hR.refl sh
  | added conduct => exact hadded conduct rfl _ _
  | pwd | type => exact hR.withArguments fun _ _ _ => hR.refl sh
  | exit => exact hR.withArguments fun _ _ _ => hexit
  | cd => exact hR.withArguments fun a _ _ => hcd rfl _
  | history => exact hR.withArguments fun a ha hhelp => hhistory rfl a ha hhelp _

/-! ## Stages and lines -/

/-- A stage that is alone on its line stays within the relation if its builtin does. -/
theorem runStage (hR : Frames R) (h : ∀ b, registry.lookup stage.program = some b →
      ∀ (sh : Shell) (streams : Streams),
        R sh (b.answer registry stage.arguments streams sh).shell) (sh : Shell) :
    R sh (sh.runStage registry stage).2 := by
  have hresolved (sh : Shell) (streams : Streams) :
      R sh (sh.runResolved registry .spawn stage streams).2 := by
    rw [runResolved]
    split
    · next b hb => exact hR.trans (hR.host sh _) (h b (lookup_of_resolve hb) _ _)
    · simp only [startProgram]
      split <;> exact hR.host sh _
    · exact hR.refl sh
  have hbegin : R sh (sh.beginStage registry .spawn stage).2 := by
    simp only [beginStage]
    split
    · exact hR.trans (hR.host sh _) (hresolved _ _)
    · exact hR.host sh _
  rw [Shell.runStage]
  split <;> next heq =>
    rw [heq] at hbegin
    exact hR.trans hbegin (hR.host _ _)

/-- A line stays within the relation if the builtin that is alone on it does. -/
theorem run (hR : Frames R) {stages : List Stage} (h : ∀ stage, stages = [stage] →
      ∀ b, registry.lookup stage.program = some b → ∀ (sh : Shell) (streams : Streams),
        R sh (b.answer registry stage.arguments streams sh).shell) (sh : Shell) :
    R sh (sh.run registry stages).2 := by
  match stages with
  | [] => exact hR.refl sh
  | [stage] => exact hR.runStage (h stage rfl) sh
  | _ :: _ :: _ => exact hR.host sh _

end Frames

end Shell

/-- Whether the arguments of a stage name a file to read, write or append, as `history` takes
them. -/
def Stage.namesHistoryFile (stage : Stage) : Bool :=
  match Grammar.history.read (stage.arguments.drop 1) with
  | .ok a => !a.help && ["read", "write", "append"].any fun o => (a.value? o).isSome
  | .error _ => false

namespace Shell

/-- Whether a shell has the history and the descriptors of another. -/
structure Keeps (sh sh' : Shell) : Prop where
  history : sh'.history = sh.history
  descriptors : sh'.process.descriptors = sh.process.descriptors

variable {sh sh' : Shell}

theorem Keeps.refl (sh : Shell) : sh.Keeps sh := ⟨rfl, rfl⟩

theorem Keeps.trans {sh'' : Shell} (h : sh.Keeps sh') (h' : sh'.Keeps sh'') : sh.Keeps sh'' :=
  ⟨h'.history.trans h.history, h'.descriptors.trans h.descriptors⟩

/-- What happens on the host alone keeps the shell. -/
theorem keeps_host (sh : Shell) (h : Host) : sh.Keeps { sh with host := h } := ⟨rfl, rfl⟩

theorem frames_keeps : Frames Keeps := ⟨keeps_host, Keeps.trans⟩

/-- Changing the directory keeps the rest of the shell. -/
theorem keeps_runCd (sh : Shell) (target : Option String) : sh.Keeps (sh.runCd target).2 := by
  rw [runCd]
  split
  · exact .refl sh
  · simp only
    split
    · exact .refl sh
    · exact ⟨rfl, rfl⟩

/-- Without a file, the history is only listed. -/
theorem runHistory_eq_of_isNone {read write append : Option String} (count : Option Nat)
    (hr : read = none) (hw : write = none) (ha : append = none) :
    sh.runHistory read write append count = sh.listHistory count := by
  subst hr hw ha
  rfl

/-- A builtin of the shell keeps it, unless it is `history` with a file. -/
theorem keeps_answer {b : Builtin} {stage : Stage} (hown : ∀ conduct, b ≠ .added conduct)
    (h : b = .history → stage.namesHistoryFile = false) (registry : Registry) (streams : Streams) :
    sh.Keeps (b.answer registry stage.arguments streams sh).shell := by
  refine frames_keeps.answer ?_ (fun _ => keeps_runCd sh) ⟨rfl, rfl⟩ ?_ registry streams
  · exact fun conduct hb => absurd hb (hown conduct)
  intro hb a ha hhelp count
  have hnames := h hb
  simp only [Stage.namesHistoryFile, ha, hhelp, Bool.not_false, Bool.true_and, List.any_eq_false,
    List.forall_mem_cons, Bool.not_eq_true, Option.isSome_eq_false_iff,
    Option.isNone_iff_eq_none] at hnames
  rw [runHistory_eq_of_isNone _ hnames.1 hnames.2.1 hnames.2.2.1]
  exact .refl sh

/-- Running stages keeps the shell, unless one of them runs `history` with a file. -/
theorem keeps_run {registry : Registry} (hown : registry.IsOwn) {stages : List Stage}
    (h : ∀ stage ∈ stages,
      registry.lookup stage.program = some .history → stage.namesHistoryFile = false) :
    sh.Keeps (sh.run registry stages).2 := by
  refine frames_keeps.run ?_ sh
  intro stage hstages b hb sh streams
  exact keeps_answer (fun conduct hadded => hown _ conduct (hadded ▸ hb))
    (fun hist => h stage (by simp [hstages]) (hist ▸ hb)) registry streams

end Shell

namespace Session

/-- Whether a session is another one with a shell that is kept. -/
structure Keeps (s t : Session) : Prop where
  shell : s.shell.Keeps t.shell
  config : t.config = s.config
  historyLoaded : t.historyLoaded = s.historyLoaded

variable {s t u : Session}

theorem Keeps.refl (s : Session) : s.Keeps s := ⟨.refl _, rfl, rfl⟩

theorem Keeps.trans (h : s.Keeps t) (h' : t.Keeps u) : s.Keeps u :=
  ⟨h.shell.trans h'.shell, h'.config.trans h.config, h'.historyLoaded.trans h.historyLoaded⟩

/-- Notices keep the shell that tells them. -/
theorem keeps_foldl_tell {α : Type} (sh : Shell) (ns : List α) (tell : Shell → α → Shell)
    (h : ∀ (sh : Shell) (n : α), sh.Keeps (tell sh n)) : sh.Keeps (ns.foldl tell sh) := by
  induction ns generalizing sh with
  | nil => exact .refl sh
  | cons n ns ih => exact (h sh n).trans (ih _)

/-- Running a line keeps the session, unless a stage runs `history` with a file. -/
theorem keeps_evaluate {line : String} (h : ∀ stage ∈ parse line,
      s.registry.lookup stage.program = some .history → stage.namesHistoryFile = false) :
    s.Keeps (s.evaluate line).2 := by
  have hnotices := keeps_foldl_tell s.shell (notices line) (fun sh n => sh.tell n.notice)
    fun sh _ => sh.keeps_host _
  have hshell (sh : Shell) : sh.Keeps (sh.evaluate s.registry line).2 :=
    Shell.keeps_run Registry.isOwn_default h
  exact ⟨hnotices.trans ((Shell.keeps_host _ _).trans ((hshell _).trans (Shell.keeps_host _ _))),
    rfl, rfl⟩

end Session

end CommandShell
