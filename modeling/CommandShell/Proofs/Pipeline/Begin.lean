import Mathlib.Data.List.Forall2
import CommandShell.Proofs.Pipeline.Opening
import CommandShell.Proofs.Session.Kept

/-!
# Beginning a stage on twin hosts

`Shell.touched` lists the files that a stage touches. `beginStage_twins` says that a stage that runs
no program begins on twin hosts in the same way: it comes to the same writing on corresponding
handles, or to the same end.
-/

namespace CommandShell

/-! ## What a stage touches -/

namespace Shell

/-- The files that `history` reads, writes and appends to, up to the first that fails. -/
def historyPaths (sh : Shell) (read write append : Option String) : List String :=
  read.toList ++
    match sh.readHistory read with
    | (.error _, _) => []
    | (.ok _, sh) =>
      write.toList ++
        match sh.writeHistory write with
        | (.error _, _) => []
        | (.ok _, _) => append.toList

end Shell

/-- The paths that a builtin follows for what it does, each with the directory that it starts
from. -/
def Builtin.paths (b : Builtin) (sh : Shell) (arguments : List String) :
    List (Location × String) :=
  let given := arguments.drop 1
  match b with
  | cd =>
    match Grammar.cd.read given with
    | .ok a =>
      if a.help then []
      else
        match Shell.cdTarget sh.environment a.positionals.head? with
        | .ok path => [([], Path.join sh.environment.currentDirectory path)]
        | .error _ => []
    | .error _ => []
  | history =>
    match Grammar.history.read given with
    | .ok a =>
      if a.help then []
      else
        (sh.historyPaths (a.value? "read") (a.value? "write") (a.value? "append")).map
          (sh.process.directory, ·)
    | .error _ => []
  | _ => []

namespace Shell

/-- The paths that a stage follows for its redirections and for what its builtin does, each with the
directory that it starts from. -/
def paths (sh : Shell) (registry : Registry) (stage : Stage) : List (Location × String) :=
  let (streams, host) := Streams.ofRedirections sh.process sh.host stage.redirections
  (Streams.opened sh.process sh.host stage.redirections).map (sh.process.directory, ·) ++
    if streams.valid then
      match registry.lookup stage.program with
      | some b => b.paths { sh with host := host } stage.arguments
      | none => []
    else []

/-- The files, and places for files, that a stage touches. -/
def touched (sh : Shell) (registry : Registry) (stage : Stage) : List Location :=
  (sh.paths registry stage).filterMap fun p => sh.host.files.touched? p.1 p.2

/-- Whether a stage runs no program: it is a builtin, its name stands for nothing, or one of its
redirections cannot be opened. -/
def RunsNoProgram (sh : Shell) (registry : Registry) (stage : Stage) : Prop :=
  (Streams.ofRedirections sh.process sh.host stage.redirections).1.valid = true →
    ∀ path, sh.resolve registry stage.program ≠ .program path

/-- Whether two shells differ at most in the numbers and the descriptors of their processes, and in
their hosts, which are twins for a stage that began on `g₀` and `h₀`. -/
structure Twins (touched : Location → Prop) (g₀ h₀ : Host) (filter : Filter) (out : Handle)
    (n : Nat) (s t : Shell) : Prop where
  environment : t.environment = s.environment
  history : t.history = s.history
  process : s.process.Twins filter out t.process
  host : Host.Twins touched g₀ h₀ n s.host t.host

end Shell

variable {touched : Location → Prop} {g₀ h₀ : Host} {filter : Filter} {out : Handle}
  {n n' : Nat} {s t : Shell}

/-- Twin shells stay twins with other twin hosts. -/
theorem Shell.Twins.withHost {g h : Host} (hst : s.Twins touched g₀ h₀ filter out n t)
    (ht : Host.Twins touched g₀ h₀ n' g h) :
    Shell.Twins touched g₀ h₀ filter out n' { s with host := g } { t with host := h } :=
  ⟨hst.environment, hst.history, hst.process, ht⟩

/-- Twin shells tell the same notices. -/
theorem Shell.Twins.tell (hst : s.Twins touched g₀ h₀ filter out n t) (notice : Notice) :
    (s.tell notice).Twins touched g₀ h₀ filter out n (t.tell notice) :=
  hst.withHost (hst.host.step (Process.tell_step hst.host.seen hst.process.error.1
    hst.process.error.2 (hst.process.filter.2.trans hst.process.filter.1.symm) notice))

/-- A name stands for the same on twin shells. -/
theorem Shell.Twins.locate_eq (hst : s.Twins touched g₀ h₀ filter out n t) (name : String) :
    t.locate name = s.locate name := by
  rw [Shell.locate, Shell.locate, hst.process.directory, hst.environment,
    hst.host.seen.akin.locate_eq]

/-! ## What builtins do -/

/-- Whether two builtins did the same on twin shells, which had `n` open files before. -/
def BuiltinResult.Twins (touched : Location → Prop) (g₀ h₀ : Host) (filter : Filter)
    (out : Handle) (n : Nat)
    (r r' : BuiltinResult) : Prop :=
  r'.1 = r.1 ∧ ∃ n', n ≤ n' ∧ r.2.Twins touched g₀ h₀ filter out n' r'.2

/-- Builtins that leave twin shells alone do the same. -/
theorem Shell.Twins.same (hst : s.Twins touched g₀ h₀ filter out n t)
    (result : Except BuiltinFault Report) :
    BuiltinResult.Twins touched g₀ h₀ filter out n (result, s) (result, t) :=
  ⟨rfl, n, Nat.le_refl n, hst⟩

namespace Shell

/-- Changing the directory has the same effect on twin shells. -/
theorem runCd_twins (hst : s.Twins touched g₀ h₀ filter out n t) {target : Option String}
    (htouched : ∀ path, cdTarget s.environment target = .ok path →
      ∀ l ∈ g₀.files.touched? [] (Path.join s.environment.currentDirectory path), touched l) :
    BuiltinResult.Twins touched g₀ h₀ filter out n (s.runCd target) (t.runCd target) := by
  simp only [runCd, hst.environment]
  rcases hpath : cdTarget s.environment target with e | path
  · exact hst.same _
  have hdirectory := hst.host.seen.akin.alike.canonicalDirectory_eq
    (hst.host.get?_touched? (htouched path hpath))
  simp only [← hdirectory]
  rcases s.host.files.canonicalDirectory _ with e | l
  · exact hst.same _
  · exact ⟨rfl, n, Nat.le_refl n, rfl, hst.history,
      ⟨rfl, hst.process.filter, hst.process.output, hst.process.error⟩, hst.host⟩

/-- Names are told alike by twin shells. -/
theorem runType_twins (hst : s.Twins touched g₀ h₀ filter out n t) (registry : Registry)
    (names : List String) :
    BuiltinResult.Twins touched g₀ h₀ filter out n (s.runType registry names)
      (t.runType registry names) := by
  have htext : t.typeText registry = s.typeText registry := by
    funext name
    rw [typeText, typeText, hst.locate_eq]
  rw [runType, runType, htext]
  exact hst.same _

/-- The history is listed alike by twin shells. -/
theorem listHistory_twins (hst : s.Twins touched g₀ h₀ filter out n t) (count : Option Nat) :
    BuiltinResult.Twins touched g₀ h₀ filter out n (s.listHistory count) (t.listHistory count) := by
  simp only [listHistory, hst.history]
  exact hst.same _

section

variable {file : Option String} (hst : s.Twins touched g₀ h₀ filter out n t)
  (htouched : ∀ path ∈ file, ∀ l ∈ g₀.files.touched? s.process.directory path, touched l)

include hst htouched

/-- Reading a history file has the same effect on twin shells. -/
theorem readHistory_twins :
    BuiltinResult.Twins touched g₀ h₀ filter out n (s.readHistory file) (t.readHistory file) := by
  cases file with
  | none => exact hst.same _
  | some path =>
    have hread := History.read_twins hst.host (htouched path rfl) s.history
    simp only [readHistory, hst.history, hst.process.directory, hread]
    split
    · exact ⟨rfl, n, Nat.le_refl n, hst.environment, rfl, hst.process, hst.host⟩
    · exact hst.same _

/-- Writing a history file has the same effect on twin shells. -/
theorem writeHistory_twins :
    BuiltinResult.Twins touched g₀ h₀ filter out n (s.writeHistory file) (t.writeHistory file) := by
  cases file with
  | none => exact hst.same _
  | some path =>
    have hsave := History.save_twins hst.host (htouched path rfl) s.history.entries false
    simp only [writeHistory, History.write, hst.history, hst.process.directory]
    generalize History.save s.history.entries s.host _ path false = left at hsave ⊢
    generalize History.save s.history.entries t.host _ path false = right at hsave ⊢
    obtain ⟨result, g⟩ := left
    obtain ⟨result', h⟩ := right
    obtain ⟨rfl, n', hn, hhost⟩ := hsave
    cases result' with
    | error e => exact ⟨rfl, n', hn, hst.environment, rfl, hst.process, hhost⟩
    | ok u => exact ⟨rfl, n', hn, hst.environment, rfl, hst.process, hhost⟩

/-- Appending to a history file has the same effect on twin shells. -/
theorem appendHistory_twins :
    BuiltinResult.Twins touched g₀ h₀ filter out n (s.appendHistory file)
      (t.appendHistory file) := by
  cases file with
  | none => exact hst.same _
  | some path =>
    have hsave := History.save_twins hst.host (htouched path rfl) s.history.pending true
    simp only [appendHistory, History.append, hst.history, hst.process.directory]
    generalize History.save s.history.pending s.host _ path true = left at hsave ⊢
    generalize History.save s.history.pending t.host _ path true = right at hsave ⊢
    obtain ⟨result, g⟩ := left
    obtain ⟨result', h⟩ := right
    obtain ⟨rfl, n', hn, hhost⟩ := hsave
    cases result' with
    | error e => exact ⟨rfl, n', hn, hst.environment, rfl, hst.process, hhost⟩
    | ok u => exact ⟨rfl, n', hn, hst.environment, rfl, hst.process, hhost⟩

end

/-- Reading a history file keeps the process. -/
theorem readHistory_process (sh : Shell) (file : Option String) :
    (sh.readHistory file).2.process = sh.process := by
  cases file with
  | none => rfl
  | some path =>
    rw [readHistory]
    split <;> rfl

/-- Writing a history file keeps the process. -/
theorem writeHistory_process (sh : Shell) (file : Option String) :
    (sh.writeHistory file).2.process = sh.process := by
  cases file with
  | none => rfl
  | some path =>
    rw [writeHistory]
    split <;> rfl

/-- The builtin `history` uses the same files on shells that are twins for all files. -/
theorem historyPaths_twins (hst : s.Twins (fun _ => True) g₀ h₀ filter out n t)
    (read write append : Option String) :
    t.historyPaths read write append = s.historyPaths read write append := by
  have hr : BuiltinResult.Twins (fun _ => True) g₀ h₀ filter out n (s.readHistory read)
      (t.readHistory read) := readHistory_twins hst fun _ _ _ _ => trivial
  rw [historyPaths, historyPaths]
  generalize s.readHistory read = left at hr ⊢
  generalize t.readHistory read = right at hr ⊢
  obtain ⟨result, s₁⟩ := left
  obtain ⟨result', t₁⟩ := right
  obtain ⟨rfl, n₁, hn₁, hst₁⟩ := hr
  cases result' with
  | error e => rfl
  | ok report =>
    have hw : BuiltinResult.Twins (fun _ => True) g₀ h₀ filter out n₁ (s₁.writeHistory write)
        (t₁.writeHistory write) := writeHistory_twins hst₁ fun _ _ _ _ => trivial
    simp only
    generalize s₁.writeHistory write = left at hw ⊢
    generalize t₁.writeHistory write = right at hw ⊢
    obtain ⟨result, s₂⟩ := left
    obtain ⟨result', t₂⟩ := right
    obtain ⟨rfl, -⟩ := hw
    cases result' <;> rfl

/-- A notice that was told makes no difference to a shell. -/
theorem twins_tell {sh : Shell} (houtput : sh.process.descriptors.get? 1 = some .output)
    (herror : sh.process.descriptors.get? 2 = some .error) (notice : Notice) :
    sh.Twins (fun _ => True) sh.host (sh.tell notice).host sh.process.filter .output 0
      (sh.tell notice) := by
  have hsame : Host.Matches (fun _ => False) 0 0 0 sh.host sh.host :=
    ⟨.refl _, fun _ _ => rfl, fun _ _ => rfl, fun k hk => absurd hk (by omega)⟩
  obtain ⟨-, -, -, told, hchanges, -⟩ := Process.tell_step hsame herror herror rfl notice
  refine ⟨rfl, rfl, ⟨rfl, ⟨rfl, rfl⟩, ⟨houtput, houtput⟩, ⟨herror, herror⟩⟩, ?_⟩
  exact Host.twins_refl hchanges.akin fun l _ => (hchanges.files l id).symm

/-- The builtin `history` has the same effect on twin shells. -/
theorem runHistory_twins (hst : s.Twins touched g₀ h₀ filter out n t)
    {read write append : Option String}
    (htouched : ∀ path ∈ s.historyPaths read write append,
      ∀ l ∈ g₀.files.touched? s.process.directory path, touched l) (count : Option Nat) :
    BuiltinResult.Twins touched g₀ h₀ filter out n (s.runHistory read write append count)
      (t.runHistory read write append count) := by
  rw [runHistory, runHistory]
  split
  · exact listHistory_twins hst count
  -- Each of the three files counts only if the ones before it made no failure.
  simp only [historyPaths, List.mem_append, Option.mem_toList, or_imp, forall_and] at htouched
  obtain ⟨hread, htouched⟩ := htouched
  have hr := readHistory_twins hst hread
  have hprocess := s.readHistory_process read
  generalize s.readHistory read = left at hr htouched hprocess ⊢
  generalize t.readHistory read = right at hr ⊢
  obtain ⟨result, s₁⟩ := left
  obtain ⟨result', t₁⟩ := right
  obtain ⟨rfl, n₁, hn₁, hst₁⟩ := hr
  cases result' with
  | error e => exact ⟨rfl, n₁, hn₁, hst₁⟩
  | ok report =>
    simp only [List.mem_append, Option.mem_toList, or_imp, forall_and, andThen]
      at htouched hprocess ⊢
    obtain ⟨hwrite, htouched⟩ := htouched
    rw [← hprocess] at hwrite htouched
    have hw := writeHistory_twins hst₁ hwrite
    have hprocess := s₁.writeHistory_process write
    generalize s₁.writeHistory write = left at hw htouched hprocess ⊢
    generalize t₁.writeHistory write = right at hw ⊢
    obtain ⟨result, s₂⟩ := left
    obtain ⟨result', t₂⟩ := right
    obtain ⟨rfl, n₂, hn₂, hst₂⟩ := hw
    cases result' with
    | error e => exact ⟨rfl, n₂, by omega, hst₂⟩
    | ok report =>
      simp only [Option.mem_toList] at htouched hprocess ⊢
      rw [← hprocess] at htouched
      obtain ⟨hresult, n₃, hn₃, hst₃⟩ := appendHistory_twins hst₂ htouched
      exact ⟨hresult, n₃, by omega, hst₃⟩

end Shell

/-- A notice that was told does not change the paths that a builtin follows. -/
theorem Builtin.paths_tell (b : Builtin) {sh : Shell}
    (houtput : sh.process.descriptors.get? 1 = some .output)
    (herror : sh.process.descriptors.get? 2 = some .error) (notice : Notice)
    (arguments : List String) : b.paths (sh.tell notice) arguments = b.paths sh arguments := by
  cases b with
  | history =>
    simp only [Builtin.paths, Shell.historyPaths_twins (Shell.twins_tell houtput herror notice)]
    rfl
  | _ => rfl

/-! ## What stages write -/

/-- Whether two emissions are the same on corresponding handles. -/
structure Emission.Twins (a b n : Nat) (out : Handle) (e e' : Emission) : Prop where
  handle : ∃ x y, e.handle = some x ∧ e'.handle = some y ∧ Host.Twin a b n out x y
  bytes : e'.bytes = e.bytes
  care : e'.care = e.care
  keeper : e'.keeper = e.keeper

/-- Whether two handles for failures correspond, neither of them being standard output. -/
def Host.TwinError (a b n : Nat) (x y : Option Handle) : Prop :=
  Option.Rel (fun x y => x ≠ .output ∧ Host.Twin a b n .output x y) x y

/-- Whether a builtin comes to the same on twin shells. -/
structure Answer.Twins (touched : Location → Prop) (g₀ h₀ : Host) (filter : Filter)
    (out : Handle) (n : Nat)
    (a a' : Answer) : Prop where
  shell : a.shell.Twins touched g₀ h₀ filter out n a'.shell
  emissions : List.Forall₂ (Emission.Twins g₀.openFiles.length h₀.openFiles.length n out)
    a.emissions a'.emissions
  status : a'.status = a.status

section

variable {streams streams' : Streams}

/-- Standard output goes to corresponding handles. -/
theorem Streams.Twins.outputHandle {a b : Nat} {p q : Process} (hs : streams.Twins a b n streams')
    (hp : p.Twins filter out q) :
    ∃ x y, streams.outputHandle p = some x ∧ streams'.outputHandle q = some y ∧
      Host.Twin a b n out x y := by
  have hrel := hs.output
  simp only [Streams.outputHandle]
  generalize streams.output = left at hrel ⊢
  generalize streams'.output = right at hrel ⊢
  cases hrel with
  | none => exact ⟨_, _, hp.output.1, hp.output.2, .output⟩
  | some hfile =>
    obtain ⟨k, hk, rfl, rfl⟩ := hfile
    exact ⟨_, _, rfl, rfl, .file hk⟩

/-- Standard error goes to corresponding handles. -/
theorem Streams.Twins.errorHandle {a b : Nat} {p q : Process} (hs : streams.Twins a b n streams')
    (hp : p.Twins filter out q) :
    ∃ x y, streams.errorHandle p = some x ∧ streams'.errorHandle q = some y ∧ x ≠ .output ∧
      ∀ out, Host.Twin a b n out x y := by
  have hrel := hs.error
  simp only [Streams.errorHandle]
  generalize streams.error = left at hrel ⊢
  generalize streams'.error = right at hrel ⊢
  cases hrel with
  | none => exact ⟨_, _, hp.error.1, hp.error.2, by simp, fun _ => .error⟩
  | some hfile =>
    obtain ⟨k, hk, rfl, rfl⟩ := hfile
    exact ⟨_, _, rfl, rfl, by simp, fun _ => .file hk⟩

variable (hst : s.Twins touched g₀ h₀ filter out n t)
  (hstreams : streams.Twins g₀.openFiles.length h₀.openFiles.length n streams')

include hst hstreams

/-- A builtin writes the same on twin shells. -/
theorem Builtin.emission_twins (keeper : Option String) (care : Care) (text : Channel × String) :
    (Builtin.emission s streams keeper care text).Twins g₀.openFiles.length h₀.openFiles.length n
      out (Builtin.emission t streams' keeper care text) := by
  obtain ⟨channel, text⟩ := text
  cases channel with
  | output =>
    refine ⟨hstreams.outputHandle hst.process, rfl, rfl, ?_⟩
    have hrel := hstreams.output
    simp only [Builtin.emission]
    generalize streams.output = left at hrel ⊢
    generalize streams'.output = right at hrel ⊢
    cases hrel <;> rfl
  | error =>
    obtain ⟨x, y, hx, hy, -, htwin⟩ := hstreams.errorHandle hst.process
    exact ⟨⟨x, y, hx, hy, htwin out⟩, rfl, rfl, rfl⟩

/-- A builtin writes the same texts on twin shells. -/
theorem Builtin.map_emission_twins (keeper : Option String) (care : Care)
    (texts : List (Channel × String)) :
    List.Forall₂ (Emission.Twins g₀.openFiles.length h₀.openFiles.length n out)
      (texts.map (Builtin.emission s streams keeper care))
      (texts.map (Builtin.emission t streams' keeper care)) := by
  rw [List.forall₂_map_left_iff, List.forall₂_map_right_iff, List.forall₂_same]
  exact fun text _ => Builtin.emission_twins hst hstreams keeper care text

/-- A builtin that reads its arguments comes to the same on twin shells if what it does with them
does. -/
theorem Builtin.withArguments_twins {name : String} {grammar : Grammar} {help : String}
    {arguments : List String} {body body' : Arguments → BuiltinResult}
    (hbody : ∀ a, grammar.read arguments = .ok a → a.help = false →
      BuiltinResult.Twins touched g₀ h₀ filter out n (body a) (body' a)) :
    ∃ n', n ≤ n' ∧ Answer.Twins touched g₀ h₀ filter out n'
      (Builtin.withArguments name grammar help arguments streams s body)
      (Builtin.withArguments name grammar help arguments streams' t body') := by
  simp only [Builtin.withArguments]
  split
  · exact ⟨n, Nat.le_refl n, hst, Builtin.map_emission_twins hst hstreams .., rfl⟩
  next a ha =>
  split
  · exact ⟨n, Nat.le_refl n, hst, Builtin.map_emission_twins hst hstreams .., rfl⟩
  next hhelp =>
  have hresult := hbody a ha (by simpa using hhelp)
  generalize body a = left at hresult ⊢
  generalize body' a = right at hresult ⊢
  obtain ⟨result, s₁⟩ := left
  obtain ⟨result', t₁⟩ := right
  obtain ⟨rfl, n₁, hn, hst₁⟩ := hresult
  cases result' with
  | error e => exact ⟨n₁, hn, hst₁, Builtin.map_emission_twins hst₁ (hstreams.mono hn) .., rfl⟩
  | ok report => exact ⟨n₁, hn, hst₁, Builtin.map_emission_twins hst₁ (hstreams.mono hn) .., rfl⟩

/-- A command supplied from outside is given the same on twin shells, and so does the same. -/
theorem Builtin.runAdded_twins (conduct : Invocation → Conduct) (registry : Registry)
    (arguments : List String) :
    ∃ n', n ≤ n' ∧ Answer.Twins touched g₀ h₀ filter out n'
      (Builtin.runAdded conduct registry arguments streams s)
      (Builtin.runAdded conduct registry arguments streams' t) := by
  simp only [Builtin.runAdded, hst.environment, hst.history,
    Streams.SameFile.isSome_eq hstreams.output, Streams.SameFile.isSome_eq hstreams.error]
  refine ⟨n, Nat.le_refl n, ⟨rfl, rfl, hst.process, hst.host⟩, ?_, rfl⟩
  rw [List.forall₂_map_left_iff, List.forall₂_map_right_iff, List.forall₂_same]
  exact fun text _ => Builtin.emission_twins hst hstreams none text.1 text.2

/-- A builtin comes to the same on twin shells. -/
theorem Builtin.answer_twins {b : Builtin} {registry : Registry} {arguments : List String}
    (htouched : ∀ p ∈ b.paths s arguments, ∀ l ∈ g₀.files.touched? p.1 p.2, touched l) :
    ∃ n', n ≤ n' ∧ Answer.Twins touched g₀ h₀ filter out n' (b.answer registry arguments streams s)
      (b.answer registry arguments streams' t) := by
  cases b with
  | echo => exact ⟨n, Nat.le_refl n, hst, .cons (Builtin.emission_twins hst hstreams ..) .nil, rfl⟩
  | added conduct => exact Builtin.runAdded_twins hst hstreams conduct registry arguments
  | pwd =>
    simp only [Builtin.answer]
    refine Builtin.withArguments_twins hst hstreams ?_
    intro a _ _
    rw [Shell.runPwd, Shell.runPwd, hst.environment]
    exact hst.same _
  | type =>
    exact Builtin.withArguments_twins hst hstreams fun a _ _ => Shell.runType_twins hst registry _
  | exit =>
    simp only [Builtin.answer]
    refine Builtin.withArguments_twins hst hstreams fun a _ _ => ⟨rfl, n, Nat.le_refl n, ?_⟩
    exact ⟨by rw [hst.environment], hst.history, hst.process, hst.host⟩
  | cd =>
    refine Builtin.withArguments_twins hst hstreams ?_
    intro a ha hhelp
    refine Shell.runCd_twins hst ?_
    intro path hpath l hl
    refine htouched ([], Path.join s.environment.currentDirectory path) ?_ l hl
    simp only [Builtin.paths, ha, hhelp, hpath, Bool.false_eq_true, ↓reduceIte]
    exact List.mem_singleton.mpr rfl
  | history =>
    refine Builtin.withArguments_twins hst hstreams ?_
    intro a ha hhelp
    refine Shell.runHistory_twins hst ?_ _
    intro path hpath l hl
    refine htouched (s.process.directory, path) ?_ l hl
    simp only [Builtin.paths, ha, hhelp, Bool.false_eq_true, ↓reduceIte]
    exact List.mem_map.mpr ⟨path, hpath, rfl⟩

end

/-! ## Stages -/

/-- Whether two stages have come to the same: to the same end, or to writing the same to
corresponding handles. -/
inductive Progress.Twins (a b n : Nat) (out : Handle) : Progress → Progress → Prop
  | ended (status : Status) : Progress.Twins a b n out (.ended status) (.ended status)
  | writing {es es' : List Emission} {error error' : Option Handle} (status : Status) :
      List.Forall₂ (Emission.Twins a b n out) es es' → Host.TwinError a b n error error' →
        Progress.Twins a b n out (.writing es error status) (.writing es' error' status)

namespace Shell

/-- A name stands for the same on a host whose files are akin. -/
theorem resolve_withHost {sh : Shell} {h : Host} (hakin : sh.host.files.Akin h.files)
    (registry : Registry) (name : String) :
    { sh with host := h }.resolve registry name = sh.resolve registry name := by
  simp only [resolve, locate, hakin.locate_eq]

/-- A command stands for the same on twin shells. -/
theorem Twins.resolve_eq (hst : s.Twins touched g₀ h₀ filter out n t) (registry : Registry)
    (name : String) : t.resolve registry name = s.resolve registry name := by
  simp only [resolve, hst.locate_eq]

/-- A stage that runs no program comes to the same on twin shells. -/
theorem runResolved_twins (hst : s.Twins touched g₀ h₀ filter out n t) {streams streams' : Streams}
    (hstreams : streams.Twins g₀.openFiles.length h₀.openFiles.length n streams')
    {registry : Registry} {stage : Stage}
    (hprogram : ∀ path, s.resolve registry stage.program ≠ .program path)
    (htouched : ∀ b, registry.lookup stage.program = some b → ∀ p ∈ b.paths s stage.arguments,
      ∀ l ∈ g₀.files.touched? p.1 p.2, touched l) (manner manner' : Program.Manner) :
    ∃ n', Progress.Twins g₀.openFiles.length h₀.openFiles.length n' out
        (s.runResolved registry manner stage streams).1
        (t.runResolved registry manner' stage streams').1 ∧
      Twins touched g₀ h₀ filter out n' (s.runResolved registry manner stage streams).2
        (t.runResolved registry manner' stage streams').2 := by
  rw [runResolved, runResolved, hst.resolve_eq]
  rcases hresolve : s.resolve registry stage.program with b | path | _
  · -- The notice that the builtin runs is told first, and changes no path that it follows.
    have hpaths := htouched b (lookup_of_resolve hresolve)
    rw [← b.paths_tell hst.process.output.1 hst.process.error.1] at hpaths
    obtain ⟨n', hn, hanswer⟩ := Builtin.answer_twins (hst.tell _) hstreams hpaths
    obtain ⟨x, y, hx, hy, hne, htwin⟩ := (hstreams.mono hn).errorHandle hanswer.shell.process
    refine ⟨n', ?_, hanswer.shell⟩
    simp only [hx, hy, hanswer.status]
    exact .writing _ hanswer.emissions (.some ⟨hne, htwin .output⟩)
  · exact absurd hresolve (hprogram path)
  · exact ⟨n, .writing _ (.cons (Builtin.emission_twins hst hstreams ..) .nil) .none, hst⟩

/-- A stage that runs no program begins on twin shells in the same way. -/
theorem beginStage_twins {registry : Registry} {stage : Stage}
    (hst : s.Twins touched s.host t.host filter out 0 t) (hprogram : s.RunsNoProgram registry stage)
    (htouched : ∀ l ∈ s.touched registry stage, touched l) (manner manner' : Program.Manner) :
    ∃ n, Progress.Twins s.host.openFiles.length t.host.openFiles.length n out
        (s.beginStage registry manner stage).1 (t.beginStage registry manner' stage).1 ∧
      Twins touched s.host t.host filter out n (s.beginStage registry manner stage).2
        (t.beginStage registry manner' stage).2 := by
  have hpaths : ∀ p ∈ s.paths registry stage, ∀ l ∈ s.host.files.touched? p.1 p.2, touched l :=
    fun p hp l hl => htouched l (List.mem_filterMap.mpr ⟨p, hp, hl⟩)
  simp only [paths, List.mem_append, or_imp, forall_and, List.forall_mem_map] at hpaths
  obtain ⟨hopened, hbuiltin⟩ := hpaths
  rw [RunsNoProgram] at hprogram
  obtain ⟨n, hstreams, hhost⟩ := Streams.ofRedirections_twins hst.process hst.host hopened
  obtain ⟨told, hchanges, -⟩ := hhost.changes
  simp only [beginStage]
  -- From here on only the streams matter that the redirections came to.
  generalize Streams.ofRedirections s.process s.host stage.redirections = left at *
  generalize Streams.ofRedirections t.process t.host stage.redirections = right at *
  obtain ⟨streams, g⟩ := left
  obtain ⟨streams', h⟩ := right
  have hsame : streams'.valid = streams.valid := hstreams.valid
  simp only [hsame] at hhost hbuiltin hprogram hchanges ⊢
  rcases hvalid : streams.valid with _ | _
  · exact ⟨n, .ended _, hst.withHost hhost⟩
  · simp only [hvalid, ↓reduceIte, true_imp_iff] at hbuiltin hprogram ⊢
    refine runResolved_twins (hst.withHost hhost) hstreams ?_ ?_ _ _
    · intro path
      rw [resolve_withHost hchanges.akin.toAkin]
      exact hprogram path
    · intro b hb
      simpa only [hb] using hbuiltin

end Shell

end CommandShell
