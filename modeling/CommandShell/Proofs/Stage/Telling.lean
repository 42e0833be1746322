import Mathlib
import CommandShell.Proofs.Program.Search
import CommandShell.Proofs.Stage.Channels
import CommandShell.Proofs.Stage.Execution

/-!
# What names are told to stand for

The builtin `type` tells of each name what a stage of that name would begin with, `Shell.Begins`,
and would run, `Shell.Executes`: it looks the name up before anything is run, and neither the
redirections that are opened nor the texts that are written change what it stands for.
`type_foretells` says so of any names, on any streams that take what is written to them.
-/

namespace CommandShell

/-! ## What is told of a name -/

namespace Shell

variable {sh : Shell} {registry : Registry} {stage : Stage} {name : String} {names : List String}
  {rs : List Redirection}

/-- What is told of a name is what it stands for. -/
theorem typeText_eq (sh : Shell) (registry : Registry) (name : String) :
    sh.typeText registry name = match sh.resolve registry name with
      | .builtin _ => (.output, name ++ " is a shell builtin\n")
      | .program path => (.output, name ++ " is " ++ path ++ "\n")
      | .unknown => (.error, name ++ ": not found\n") := by
  rw [typeText, resolve, Registry.contains]
  rcases registry.lookup name with _ | b
  · rcases sh.locate name with _ | path <;> rfl
  · rfl

/-- The same is told of a name on a host whose files are akin. -/
theorem typeText_withHost {h : Host} (hakin : sh.host.files.Akin h.files) (registry : Registry)
    (name : String) :
    { sh with host := h }.typeText registry name = sh.typeText registry name := by
  rw [typeText_eq, typeText_eq, resolve_withHost hakin]

/-- The same is told of a name once a stage was opened. -/
theorem typeText_opened (sh : Shell) (stage : Stage) (registry : Registry) :
    (sh.opened stage).typeText registry = sh.typeText registry := by
  have htell := (sh.entered stage).process.sameShape_tell (sh.entered stage).host
    (.ofStages .trace "running builtin" [("program", Notice.quoted stage.program)])
  have hakin := (sh.akin_entered stage).trans htell.akin
  exact funext fun name => typeText_withHost hakin registry name

/-- The line about a builtin is one about a program of a certain path. -/
theorem builtin_line_eq (name : String) :
    name ++ " is a shell builtin\n" = name ++ " is " ++ "a shell builtin" ++ "\n" := by
  simp [← String.toList_inj]

/-- A program that a name stands for has another path than that. -/
theorem ne_of_resolve {path : String} (h : sh.resolve registry name = .program path) :
    path ≠ "a shell builtin" := by
  rw [resolve] at h
  split at h
  · cases h
  split at h
  · next hlocate =>
    cases h
    rintro rfl
    exact absurd (mem_slash_of_locate hlocate) (by decide)
  · cases h

/-- Whether a line about a name tells what a stage of that name begins with, which is what it runs
when it is alone on its line. -/
structure Foretells (sh : Shell) (registry : Registry) (manner : Program.Manner) (stage : Stage)
    (name : String) (line : Channel × String) : Prop where
  builtin : line = (.output, name ++ " is a shell builtin\n") ↔
    ∃ b, sh.Begins registry manner stage (.builtin b)
  /-- The line about a builtin would be that about a program of the path that is left out, which is
  never found. -/
  program : ∀ path, line = (.output, name ++ " is " ++ path ++ "\n") ∧ path ≠ "a shell builtin" ↔
    sh.Begins registry manner stage (.program path)
  unknown : line = (.error, name ++ ": not found\n") ↔ sh.Begins registry manner stage .unknown
  executes : ∀ r, sh.Begins registry manner stage r ↔ sh.Executes registry stage r
  status : line = (.error, name ++ ": not found\n") → (sh.runStage registry stage).1 = 127

/-- What is told of a name foretells what any stage of that name begins with, if its redirections
can be opened. -/
theorem foretells_typeText (hvalid : (sh.streamsOf ⟨[name], rs⟩).valid = true)
    (manner : Program.Manner) :
    sh.Foretells registry manner ⟨[name], rs⟩ name (sh.typeText registry name) := by
  have hbegins (manner : Program.Manner) (r : Resolution) :
      sh.Begins registry manner ⟨[name], rs⟩ r ↔ sh.resolve registry name = r := begins_iff hvalid
  have hexecutes (r : Resolution) :
      sh.Executes registry ⟨[name], rs⟩ r ↔ sh.resolve registry name = r := executes_iff hvalid
  rw [typeText_eq]
  rcases hr : sh.resolve registry name with b | path | _
  · refine ⟨?_, ?_, ?_, ?_, ?_⟩ <;> simp only [hbegins, hexecutes, hr]
    · simp
    · intro path
      simp [builtin_line_eq, eq_comm]
    · simp
    · simp
    · simp
  · have hne := ne_of_resolve hr
    refine ⟨?_, ?_, ?_, ?_, ?_⟩ <;> simp only [hbegins, hexecutes, hr]
    · simp [builtin_line_eq, hne]
    · intro other
      suffices path = other → other ≠ "a shell builtin" by simpa
      rintro rfl
      exact hne
    · simp
    · simp
    · simp
  · refine ⟨?_, ?_, ?_, ?_, ?_⟩ <;> simp only [hbegins, hexecutes, hr]
    · simp
    · simp
    · simp
    · intro _
      cases (hexecutes .unknown).mpr hr with
      | unknown _ _ _ hrun => rw [hrun]

/-- The status of telling of names: one if some of them stands for nothing. -/
def typeStatus (sh : Shell) (registry : Registry) (names : List String) : Status :=
  if (names.map (sh.typeText registry)).any (·.1 = .error) then 1 else 0

theorem typeStatus_eq_one_iff :
    sh.typeStatus registry names = 1 ↔
      ∃ name ∈ names, sh.typeText registry name = (.error, name ++ ": not found\n") := by
  have herror (name : String) : (sh.typeText registry name).1 = .error ↔
      sh.typeText registry name = (.error, name ++ ": not found\n") := by
    rw [typeText_eq]
    rcases sh.resolve registry name with b | path | _ <;> simp
  simp [typeStatus, herror]

theorem typeStatus_cases (sh : Shell) (registry : Registry) (names : List String) :
    sh.typeStatus registry names = 0 ∨ sh.typeStatus registry names = 1 := by
  rw [typeStatus]
  split
  · exact .inr rfl
  · exact .inl rfl

end Shell

/-! ## Telling of names -/

namespace Grammar

/-- An argument that asks for no help and does not look like an option is taken as it is. -/
theorem readFrom_plain (g : Grammar) {a : Arguments} {text : String} (hopen : a.optionsOpen = true)
    (hhelp : text ≠ "help") (hdash : text.toList.head? ≠ some '-') (rest : List String) :
    g.readFrom a (text :: rest) =
      (a.addPositional g.positionals text).bind fun a => g.readFrom a rest := by
  have hne (o : String) (ho : o.toList.head? = some '-') : text ≠ o := by
    rintro rfl
    exact hdash ho
  rw [readFrom]
  simp only [hopen, hne "--help" (by decide), hhelp, hne "--" (by decide), hdash, decide_false,
    Bool.or_self, Bool.not_true, Bool.false_eq_true, ↓reduceIte]
  cases a.addPositional g.positionals text <;> rfl

/-- Once a name was read, whatever follows is one too. -/
theorem readFrom_type {help : Bool} {options : List (String × String)}
    (positionals names : List String) :
    type.readFrom ⟨help, false, options, positionals⟩ names =
      .ok ⟨help, false, options, positionals ++ names⟩ := by
  induction names generalizing positionals with
  | nil => rw [readFrom, List.append_nil]
  | cons name names ih =>
    rw [readFrom]
    exact (ih (positionals ++ [name])).trans (by rw [List.append_assoc, List.singleton_append])

/-- Names none of which asks for help or looks like an option are read as they are. -/
theorem exists_read_type {names : List String}
    (h : ∀ name ∈ names, name ≠ "help" ∧ name.toList.head? ≠ some '-') :
    ∃ a, type.read names = .ok a ∧ a.help = false ∧ a.positionals = names := by
  cases names with
  | nil => exact ⟨_, rfl, rfl, rfl⟩
  | cons name names =>
    obtain ⟨hhelp, hdash⟩ := h name List.mem_cons_self
    refine ⟨⟨false, false, [], name :: names⟩, ?_, rfl, rfl⟩
    rw [read, readFrom_plain type rfl hhelp hdash]
    exact readFrom_type [name] names

end Grammar

namespace Builtin

variable {sh : Shell} {registry : Registry} {streams : Streams} {h : Host} {names : List String}
  (hnames : ∀ name ∈ names, name ≠ "help" ∧ name.toList.head? ≠ some '-')

include hnames

/-- What `type` has to write is what is told of each name. -/
theorem answer_type (called : String) :
    Builtin.type.answer registry (called :: names) streams sh =
      ⟨sh, (names.map (sh.typeText registry)).map (emission sh streams (some "type") .tell),
        some (sh.typeStatus registry names)⟩ := by
  obtain ⟨a, hread, hhelp, hpositionals⟩ := Grammar.exists_read_type hnames
  simp only [answer, withArguments, List.drop_one, List.tail_cons, hread, hhelp, Bool.false_eq_true,
    ↓reduceIte, Shell.runType, hpositionals]
  rfl

/-- On streams that take whatever is written to them, `type` writes what it tells of each name. -/
theorem run_type (ht : streams.Take sh.process sh.host)
    (hw : streams.writeTexts sh.process sh.host (names.map (sh.typeText registry)) = .ok h)
    (called : String) :
    Builtin.type.run registry (called :: names) streams sh =
      (some (sh.typeStatus registry names), { sh with host := h }) := by
  simp only [run, answer_type hnames, ht.writeAll_map_emission hw, ↓reduceIte]

/-- Telling of names one after another, each by a `type` of its own, is telling of all of them. -/
theorem foldl_run_type (ht : streams.Take sh.process sh.host)
    (hw : streams.writeTexts sh.process sh.host (names.map (sh.typeText registry)) = .ok h)
    (called : String) :
    names.foldl (fun sh name => (Builtin.type.run registry [called, name] streams sh).2) sh =
      { sh with host := h } := by
  induction names generalizing sh with
  | nil =>
    cases hw
    rfl
  | cons name names ih =>
    rw [List.forall_mem_cons] at hnames
    obtain ⟨g, hg, ht', hshape⟩ := ht.exists_writeTexts [sh.typeText registry name]
    have hfirst := run_type (List.forall_mem_singleton.mpr hnames.1) ht hg called
    -- What has been told of one name changes nothing about the others.
    have hsame : (names.map ({ sh with host := g }.typeText registry)) =
        names.map (sh.typeText registry) :=
      List.map_congr_left fun other _ => Shell.typeText_withHost hshape.akin registry other
    rw [List.map_cons, ← List.singleton_append, Streams.writeTexts_append, hg] at hw
    rw [List.foldl_cons, hfirst]
    exact ih hnames.2 ht' (hsame ▸ hw)

end Builtin

namespace Shell

variable {sh : Shell} {registry : Registry} {names : List String} {rs : List Redirection}

/-- Whether a stage says texts: this is what it has to write, in this order, however it is run, and
alone it writes them all and changes nothing but the host. -/
structure Says (sh : Shell) (registry : Registry) (stage : Stage) (texts : List (Channel × String))
    (status : Status) : Prop where
  begins : ∀ manner, ∃ es, sh.beginStage registry manner stage =
      (.writing es ((sh.streamsOf stage).errorHandle sh.process) status, sh.opened stage) ∧
    es.map (fun e => (e.handle, e.bytes)) =
      texts.map fun text => ((sh.streamsOf stage).handle sh.process text.1, Text.encode text.2)
  runs : ∃ h, sh.runStage registry stage = (status, { sh with host := h }) ∧
    (sh.streamsOf stage).writeTexts sh.process (sh.opened stage).host texts = .ok h ∧
    -- What this comes to for the streams of the session.
    ((sh.streamsOf stage).handle sh.process .output = some .output →
      (sh.streamsOf stage).handle sh.process .error = some .error →
      h.output.bytes = (sh.opened stage).host.output.bytes ++
          Text.encode (Channel.output.text texts) ∧
        h.error.bytes = (sh.opened stage).host.error.bytes ++
          Text.encode (Channel.error.text texts))

/-- A stage says what its builtin has to write, on streams that take it. -/
theorem says_of_answer {b : Builtin} {stage : Stage} {keeper : Option String} {care : Care}
    {texts : List (Channel × String)} {status : Status}
    (hb : registry.lookup stage.program = some b) (hvalid : (sh.streamsOf stage).valid = true)
    (ht : (sh.streamsOf stage).Take sh.process (sh.opened stage).host)
    (hanswer : b.answer registry stage.arguments (sh.streamsOf stage) (sh.opened stage) =
      ⟨sh.opened stage, texts.map (Builtin.emission (sh.opened stage) (sh.streamsOf stage) keeper
        care), some status⟩) :
    sh.Says registry stage texts status := by
  obtain ⟨h, hw, -⟩ := ht.exists_writeTexts texts
  refine ⟨?_, h, ?_, hw, fun houtput herror => Streams.received_writeTexts houtput herror hw⟩
  · intro manner
    have hbegin := beginStage_builtin hvalid hb manner
    rw [hanswer] at hbegin
    refine ⟨_, hbegin, ?_⟩
    rw [List.map_map]
    refine List.map_congr_left fun text _ => ?_
    rw [Function.comp_apply, Builtin.handle_emission, Builtin.bytes_emission]
    rfl
  · have hwritten : Emission.writeAll (sh.opened stage).process
        ((sh.streamsOf stage).errorHandle (sh.opened stage).process)
        (texts.map (Builtin.emission (sh.opened stage) (sh.streamsOf stage) keeper care))
        (sh.opened stage).host = (true, h) := ht.writeAll_map_emission hw _ _ keeper care
    have hrun := runStage_builtin hvalid hb
    simp only [Builtin.run, hanswer, hwritten, ↓reduceIte] at hrun
    exact hrun

/-- A `type` of some names, on streams that take what is written to them, says what is told of each
of them. -/
theorem says_type (htype : registry.lookup "type" = some .type)
    (hnames : ∀ name ∈ names, name ≠ "help" ∧ name.toList.head? ≠ some '-')
    (hvalid : (sh.streamsOf ⟨"type" :: names, rs⟩).valid = true)
    (ht : (sh.streamsOf ⟨"type" :: names, rs⟩).Take sh.process
      (sh.opened ⟨"type" :: names, rs⟩).host) :
    sh.Says registry ⟨"type" :: names, rs⟩ (names.map (sh.typeText registry))
      (sh.typeStatus registry names) := by
  have hstatus : (sh.opened ⟨"type" :: names, rs⟩).typeStatus registry names =
      sh.typeStatus registry names := by
    rw [typeStatus, typeStatus, typeText_opened]
  have hanswer : Builtin.type.answer registry ("type" :: names)
      (sh.streamsOf ⟨"type" :: names, rs⟩) (sh.opened ⟨"type" :: names, rs⟩) = _ :=
    Builtin.answer_type hnames "type"
  rw [typeText_opened, hstatus] at hanswer
  exact says_of_answer htype hvalid ht hanswer

/-- `type` foretells what its names would run, if none of them asks for help or looks like an option
and its streams take what is written to them. It says the line of each name, in order, and ends with
status one if some name stands for nothing and with zero otherwise. A `type` of each name alone says
the same, whether it starts from the same shell or from what the others have left, on the streams
that are open by then. -/
theorem type_foretells (htype : registry.lookup "type" = some .type)
    (hnames : ∀ name ∈ names, name ≠ "help" ∧ name.toList.head? ≠ some '-')
    (hvalid : (sh.streamsOf ⟨"type" :: names, rs⟩).valid = true)
    (htakes : ∀ channel, ∃ handle,
      (sh.streamsOf ⟨"type" :: names, rs⟩).handle sh.process channel = some handle ∧
        ∀ bytes, ∃ h, (sh.opened ⟨"type" :: names, rs⟩).host.write handle bytes = .ok h) :
    let stage : Stage := ⟨"type" :: names, rs⟩
    let line := sh.typeText registry
    (∃ status, sh.Says registry stage (names.map line) status ∧
        (status = 0 ∨ status = 1) ∧
        (status = 1 ↔ ∃ name ∈ names, line name = (.error, name ++ ": not found\n"))) ∧
      (∀ name ∈ names, ∃ status, sh.Says registry ⟨["type", name], rs⟩ [line name] status) ∧
      (∀ channel, Channel.text channel (names.map line) =
        String.join (names.map fun name => channel.text [line name])) ∧
      (sh.runStage registry stage).2 =
        names.foldl (fun s name =>
          (Builtin.type.run registry ["type", name] (sh.streamsOf stage) s).2) (sh.opened stage) ∧
      ∀ name ∈ names, ∀ rs', (sh.streamsOf ⟨[name], rs'⟩).valid = true →
        ∀ manner, sh.Foretells registry manner ⟨[name], rs'⟩ name (line name) := by
  intro stage line
  have ht : (sh.streamsOf stage).Take sh.process (sh.opened stage).host := by
    intro channel
    obtain ⟨handle, hhandle, hwrites⟩ := htakes channel
    exact ⟨handle, hhandle, Host.takes_iff.mpr hwrites⟩
  have hsays : sh.Says registry stage (names.map line) (sh.typeStatus registry names) :=
    says_type htype hnames hvalid ht
  refine ⟨⟨_, hsays, sh.typeStatus_cases registry names, typeStatus_eq_one_iff⟩, ?_, ?_, ?_, ?_⟩
  · intro name hname
    exact ⟨_, says_type htype (List.forall_mem_singleton.mpr (hnames name hname)) hvalid ht⟩
  · intro channel
    exact channel.text_map line names
  · obtain ⟨h, hrun, hw, -⟩ := hsays.runs
    have hw' : (sh.streamsOf stage).writeTexts sh.process (sh.opened stage).host
        (names.map ((sh.opened stage).typeText registry)) = .ok h := by
      rw [typeText_opened]
      exact hw
    rw [hrun, Builtin.foldl_run_type hnames ht hw' "type"]
    rfl
  · intro name _ rs' hopen manner
    exact foretells_typeText hopen manner

/-- A shell with a program on its search path. -/
def withX : Shell := .start ⟨[("PATH", "/bin")], "/", false⟩ [] (.start binWithX [] [])

theorem locate_withX : withX.locate "x" = some "/bin/x" ∧ withX.locate "y" = none := by
  have hpath : withX.environment.searchPath = "/bin" := by decide
  refine ⟨?_, ?_⟩
  · rw [locate, hpath]
    exact locate_binWithX
  · have hname : IsName "y" := ⟨by decide, by decide⟩
    have hroute : Route.ofPath "/bin/y" = ⟨true, ["bin", "y"], false⟩ := by decide
    have hprogram : withX.host.files.isProgram withX.process.directory "/bin/y" = false := by
      rw [FileSystem.isProgram, FileSystem.lookup, FileSystem.resolve,
        FileSystem.follow_eq_walk ⟨by decide, by decide, by decide⟩, hroute]
      cbv
    have hplaces : (searchDirectories "/bin").map (Path.join · "y") = ["/bin/y"] := by decide
    rw [locate, hname.locate_eq, findProgram?, hpath, hplaces, List.find?_singleton, hprogram]
    rfl

/-- What is told of a builtin, a program and a name that stands for nothing. -/
theorem typeText_withX :
    withX.typeText .default "cd" = (.output, "cd is a shell builtin\n") ∧
      withX.typeText .default "x" = (.output, "x is /bin/x\n") ∧
      withX.typeText .default "y" = (.error, "y: not found\n") := by
  have hcd : Registry.default.contains "cd" = true := by cbv
  have hx : Registry.default.contains "x" = false := by cbv
  have hy : Registry.default.contains "y" = false := by cbv
  simp only [typeText, hcd, hx, hy, locate_withX]
  exact ⟨rfl, rfl, rfl⟩

/-- The three names in a row. -/
theorem type_foretells_withX :
    let stage : Stage := ⟨["type", "cd", "x", "y"], []⟩
    Registry.default.lookup "type" = some .type ∧
      (∀ name ∈ ["cd", "x", "y"], name ≠ "help" ∧ name.toList.head? ≠ some '-') ∧
      (withX.streamsOf stage).valid = true ∧
      (∀ channel, ∃ handle, (withX.streamsOf stage).handle withX.process channel = some handle ∧
        ∀ bytes, ∃ h, (withX.opened stage).host.write handle bytes = .ok h) ∧
      withX.Says .default stage [(.output, "cd is a shell builtin\n"),
        (.output, "x is /bin/x\n"), (.error, "y: not found\n")] 1 ∧
      (∃ b, withX.Begins .default .spawn ⟨["cd"], []⟩ (.builtin b) ∧
        withX.Executes .default ⟨["cd"], []⟩ (.builtin b)) ∧
      (withX.Begins .default .spawn ⟨["x"], []⟩ (.program "/bin/x") ∧
        withX.Executes .default ⟨["x"], []⟩ (.program "/bin/x")) ∧
      withX.Begins .default .spawn ⟨["y"], []⟩ .unknown ∧
        withX.Executes .default ⟨["y"], []⟩ .unknown := by
  intro stage
  have htype : Registry.default.lookup "type" = some .type := by cbv
  have hnames : ∀ name ∈ ["cd", "x", "y"], name ≠ "help" ∧ name.toList.head? ≠ some '-' := by
    decide
  have htakes (channel : Channel) :
      ∃ handle, (withX.streamsOf stage).handle withX.process channel = some handle ∧
        ∀ bytes, ∃ h, (withX.opened stage).host.write handle bytes = .ok h := by
    cases channel with
    | output => exact ⟨.output, rfl, Host.takes_iff.mp .output⟩
    | error => exact ⟨.error, rfl, Host.takes_iff.mp .error⟩
  have hvalid : (withX.streamsOf stage).valid = true := rfl
  obtain ⟨hcd, hx, hy⟩ := typeText_withX
  obtain ⟨⟨status, hsays, -, hone⟩, -, -, -, hforetells⟩ :=
    type_foretells htype hnames hvalid htakes
  obtain rfl : status = 1 := hone.mpr ⟨"y", by simp, hy⟩
  rw [List.map_cons, List.map_cons, List.map_cons, List.map_nil, hcd, hx, hy] at hsays
  have hline (name : String) (hname : name ∈ ["cd", "x", "y"]) :
      withX.Foretells .default .spawn ⟨[name], []⟩ name (withX.typeText .default name) :=
    hforetells name hname [] rfl .spawn
  obtain ⟨b, hb⟩ := (hline "cd" (by simp)).builtin.mp hcd
  have hprogram := ((hline "x" (by simp)).program "/bin/x").mp ⟨hx, by decide⟩
  have hunknown := (hline "y" (by simp)).unknown.mp hy
  refine ⟨htype, hnames, hvalid, htakes, hsays, ⟨b, hb, ?_⟩, ⟨hprogram, ?_⟩, hunknown, ?_⟩
  · exact ((hline "cd" (by simp)).executes _).mp hb
  · exact ((hline "x" (by simp)).executes _).mp hprogram
  · exact ((hline "y" (by simp)).executes _).mp hunknown

end Shell

end CommandShell
