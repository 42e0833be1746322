import CommandShell.Proofs.Editor.Tabs
import CommandShell.Proofs.Line.Written
import CommandShell.Proofs.Program.Search
import CommandShell.Proofs.Resolution
import CommandShell.Proofs.Stage.Execution

/-!
# Completed names

A start of a name that only one name has is completed to it, and the line that is then entered runs
that name: `completed_name_runs`. The editor adds what is missing and a space, the line is read as
the name alone, and what completion has found is what the shell finds.
-/

namespace CommandShell

/-- Whether a name means the same on a line as by itself, and can be typed: it consists of printable
characters other than blanks, quotes, backslashes, bars and redirections. -/
def IsPlainName (name : String) : Prop :=
  ∀ ch ∈ name.toList, 0x21 ≤ ch.toNat ∧ ch.toNat ≤ 0x7e ∧
    ch ≠ '\'' ∧ ch ≠ '"' ∧ ch ≠ '\\' ∧ ch ≠ '|' ∧ ch ≠ '>'

/-! ## Completion -/

/-- The start of only one name is completed to it, with a space behind it. -/
theorem Completer.complete_only {c : Completer} {fs : FileSystem} {directory : Location}
    {start rest : String} (hstart : start ≠ "") (hmem : start ++ rest ∈ c.names fs directory)
    (honly : ∀ m ∈ c.names fs directory, start.toList <+: m.toList → m = start ++ rest) :
    c.complete fs directory start = .found (rest ++ " ") := by
  have hnames : c.namesFrom fs directory start = {start ++ rest} := by
    refine Set.eq_singleton_iff_unique_mem.mpr ⟨⟨by simp, mem_names_iff_knows.mp hmem⟩, ?_⟩
    rintro other ⟨hstarts, hknows⟩
    exact honly other (mem_names_iff_knows.mpr hknows) hstarts
  exact (completes hstart).unique (.single hnames)

/-! ## Typing -/

namespace Editor

variable {e : Editor} {c : Context} {line : LineState} {screen : Screen}

/-- A printable byte is added to the line. -/
theorem press_printable (he : e.echo = true) (hs : screen.Accepts 1)
    (hp : line.pending = .nothing) {b : UInt8} (hb : isPrintable b = true) :
    e.press c line screen (.byte b) =
      .goOn { line with buffer := line.buffer ++ [Char.ofNat b.toNat], bellRang := false }
        ⟨screen.shown ++ [b], screen.flushes.drop 1⟩ := by
  rw [press_byte hp, pressByte_printable hb]
  exact showAndGoOn_accepts he hs _ _

/-- Printable characters are added to the line as they are typed. -/
theorem pressAll_printable (he : e.echo = true) (hs : screen.IsClear)
    (hp : line.pending = .nothing) {text : List Char}
    (ht : ∀ ch ∈ text, 0x20 ≤ ch.toNat ∧ ch.toNat ≤ 0x7e) :
    ∃ line' shown, shown.IsClear ∧
      e.pressAll c line screen ((Text.encode (String.ofList text)).map .byte) =
        some (line', shown) ∧
      line'.pending = .nothing ∧ line'.buffer = line.buffer ++ text := by
  induction text generalizing line screen with
  | nil => exact ⟨line, screen, hs, rfl, hp, by simp⟩
  | cons ch text ih =>
    obtain ⟨hlow, hhigh⟩ := ht ch (by simp)
    have hcode : ch.toNat.toUInt8.toNat = ch.toNat := by
      simp
      omega
    have hprint : isPrintable ch.toNat.toUInt8 = true := by
      simpa [isPrintable, UInt8.le_iff_toNat_le, hcode] using ⟨hlow, hhigh⟩
    have hbytes : Text.encode (String.ofList (ch :: text)) =
        ch.toNat.toUInt8 :: Text.encode (String.ofList text) := by
      simp [Text.encode_eq_flatMap, Text.utf8EncodeChar_of_le (show ch.toNat ≤ 0x7f by omega)]
    let next : LineState :=
      { line with buffer := line.buffer ++ [Char.ofNat ch.toNat.toUInt8.toNat], bellRang := false }
    have hnext : next.pending = .nothing := hp
    obtain ⟨line', shown, hshown, hrest, hline', hbuffer⟩ :=
      ih (hs.drop (screen.shown ++ [ch.toNat.toUInt8]) 1) hnext fun d hd => ht d (by simp [hd])
    refine ⟨line', shown, hshown, ?_, hline', ?_⟩
    · rw [hbytes, List.map_cons, pressAll, press_printable he (hs.accepts 1) hp hprint]
      exact hrest
    · simp only [hbuffer, next, hcode, Char.ofNat_toNat, List.append_assoc, List.singleton_append]

/-- Some text, a tab that completes it and a newline are read as the text with what was added. -/
theorem readLine_completed (he : e.echo = true) (hs : screen.IsClear) {text : String}
    (ht : ∀ ch ∈ text.toList, 0x20 ≤ ch.toNat ∧ ch.toNat ≤ 0x7e) {added : String}
    (hfound : c.complete text = .found added) (hne : added ≠ "") {enter : UInt8}
    (henter : enter = lineFeed ∨ enter = carriageReturn) (more : List Key) :
    (e.readLine c screen
        ((Text.encode text).map .byte ++ .byte tab :: .byte enter :: more)).outcome =
        .ok (.line (text ++ added)) ∧
      (e.readLine c screen ((Text.encode text).map .byte ++
        .byte tab :: .byte enter :: more)).rest = more := by
  have hpending : (LineState.fresh c.history).pending = .nothing := rfl
  obtain ⟨line, shown, hshown, hpress, hline, hbuffer⟩ :=
    pressAll_printable (c := c) he (hs.drop (screen.shown ++ Text.encode e.prompt) 1) hpending ht
  have htyped : e.typed? c screen ((Text.encode text).map .byte) = some (line, shown) := by
    rw [typed?, emit_accepts he (hs.accepts 1), ← hpress, String.ofList_toList]
  have htext : String.ofList line.buffer = text := by
    rw [hbuffer]
    exact String.ofList_toList
  have htab := press_tab_found he hline (htext ▸ hfound) (hshown.accepts 1)
  let completed : LineState :=
    { line with buffer := line.buffer ++ added.toList, bellRang := false }
  have hcompleted : completed.pending = .nothing := hline
  have hend := press_enter_eq (c := c) he hcompleted henter
    ((hshown.drop (shown.shown ++ Text.encode added) 1).accepts 1)
  have hgiven : outcomeOf (line.buffer ++ added.toList) = .line (text ++ added) := by
    rw [outcomeOf, if_neg (by simp [hne]), String.ofList_append, htext, String.ofList_toList]
  rw [readLine_append htyped, readFrom, htab]
  simp only [readFrom, hend, completed, hgiven, and_self]

end Editor

/-! ## Reading the line -/

/-- A plain name with a space behind it is read as a stage of its own. -/
theorem parse_plain {name : String} (h : IsPlainName name) (hne : name ≠ "") :
    parse (name ++ " ") = [⟨[name], []⟩] := by
  have hword {text : List Char} (ht : ∀ ch ∈ text, 0x21 ≤ ch.toNat ∧ ch.toNat ≤ 0x7e ∧
      ch ≠ '\'' ∧ ch ≠ '"' ∧ ch ≠ '\\' ∧ ch ≠ '|' ∧ ch ≠ '>') : Written.Word text text := by
    induction text with
    | nil => exact .nil
    | cons ch text ih =>
      obtain ⟨hlow, -, hsingle, hdouble, hbackslash, hbar, harrow⟩ := ht ch (by simp)
      have hblank {b : Char} (hb : b.toNat < 0x21) : ch ≠ b := by
        rintro rfl
        omega
      have hboundary : isBoundary ch = false := by
        simp only [isBoundary, isBlank, Bool.or_eq_false_iff, decide_eq_false_iff_not]
        exact ⟨⟨⟨⟨⟨hblank (by decide), hblank (by decide)⟩, hblank (by decide)⟩,
          hblank (by decide)⟩, hbar⟩, harrow⟩
      exact .bare ⟨hboundary, hsingle, hdouble, hbackslash⟩ (ih fun d hd => ht d (by simp [hd]))
  have hline : Written.Line [⟨[name], []⟩] (name ++ " ").toList := by
    have hpieces : Written.Pieces true [name] [] ([] ++ (name.toList ++ [' '])) :=
      .argument ⟨by simp, by simp⟩ (hword h) (.done (by simp [isBlank]))
    rw [String.toList_append]
    exact .last hpieces
  refine Written.listOfPieces_of_written hline ?_
  intro s hs
  obtain rfl := List.mem_singleton.mp hs
  exact ⟨by simp, by simpa using hne, by simp⟩

/-! ## Running the stage -/

/-- Whether directories list nothing but bare names. -/
def FileSystem.ListsBareNames (fs : FileSystem) : Prop :=
  ∀ l, ∀ name ∈ fs.names l, IsBareName name

/-- The programs in a directory are among the names that are listed somewhere. -/
theorem exists_mem_names_of_programsIn {fs : FileSystem} {directory : Location} {d name : String}
    (h : name ∈ programsIn fs directory d) : ∃ l, name ∈ fs.names l := by
  rw [programsIn] at h
  split at h
  · next listed hlist =>
    rw [FileSystem.list] at hlist
    rcases hd : fs.resolveDirectory directory d with f | l
    · rw [hd] at hlist
      cases hlist
    · rw [hd] at hlist
      obtain rfl : fs.names l = listed := Except.ok.inj hlist
      exact ⟨l, (List.mem_filter.mp h).1⟩
  · cases h

/-- A name that can be completed to has a builtin, or is listed somewhere. -/
theorem Completer.exists_mem_names {c : Completer} {fs : FileSystem} {directory : Location}
    {name : String} (h : name ∈ c.names fs directory) :
    name ∈ c.registry.names ∨ ∃ l, name ∈ fs.names l := by
  rcases List.mem_append.mp h with h | h
  · exact .inl h
  · obtain ⟨d, -, hname⟩ := List.mem_flatMap.mp h
    exact .inr (exists_mem_names_of_programsIn hname)

/-- A name that can be completed to stands for its builtin, or else for a program that is found. -/
theorem Shell.resolve_of_mem_names {sh : Shell} {c : Completer} {name : String}
    (hfs : sh.host.files.ListsBareNames) (hsearch : sh.environment.searchPath = c.searchPath)
    (hmem : name ∈ c.names sh.host.files sh.process.directory) :
    (∃ b, c.registry.lookup name = some b ∧ sh.resolve c.registry name = .builtin b) ∨
      c.registry.lookup name = none ∧ ∃ path, sh.locate name = some path ∧
        sh.resolve c.registry name = .program path := by
  rcases hlookup : c.registry.lookup name with _ | b
  · have hno : c.registry.contains name ≠ true := by
      rw [Registry.contains, hlookup]
      exact Bool.false_ne_true
    obtain ⟨l, hl⟩ := (Completer.exists_mem_names hmem).resolve_left fun hregistered =>
      hno (Registry.mem_names.mp hregistered)
    have hfound := ((Completer.mem_names_iff (hfs l _ hl)).mp hmem).resolve_left hno
    rw [← hsearch] at hfound
    obtain ⟨path, hpath⟩ := Option.isSome_iff_exists.mp hfound
    refine .inr ⟨rfl, path, hpath, ?_⟩
    rw [resolve, hlookup, locate, hpath]
  · refine .inl ⟨b, rfl, ?_⟩
    rw [resolve, hlookup]

/-- Whether a stage stands for something, in that it begins with it in any manner and runs it when
it is alone on its line. -/
structure Shell.StandsFor (sh : Shell) (registry : Registry) (stage : Stage) (r : Resolution) :
    Prop where
  begins : ∀ manner, sh.Begins registry manner stage r
  executes : sh.Executes registry stage r

/-- A stage without redirections stands for what its name does. -/
theorem Shell.standsFor_of_resolve {sh : Shell} {registry : Registry} {name : String}
    {r : Resolution} (h : sh.resolve registry name = r) :
    sh.StandsFor registry ⟨[name], []⟩ r :=
  ⟨fun _ => (begins_iff rfl).mpr h, (executes_iff rfl).mpr h⟩

/-- What a tab completes is what runs: the only name that starts with what was typed is entered with
a space behind it, the line is a stage of that name alone, and to run the line is to run the builtin
of the name, or else the program that is found for it, and never to tell that there is none. -/
theorem completed_name_runs {c : Completer} {fs : FileSystem} {directory : Location}
    {name start : String} (hfs : fs.ListsBareNames) (hname : IsPlainName name) (hne : start ≠ "")
    (hstart : start.toList <+: name.toList) (hmem : name ∈ c.names fs directory)
    (honly : ∀ other ∈ c.names fs directory, start.toList <+: other.toList → other = name) :
    (∀ (e : Editor) (history : List String) (screen : Screen) (enter : UInt8) (more : List Key),
      e.echo = true → screen.IsClear →
      enter = Editor.lineFeed ∨ enter = Editor.carriageReturn →
      let typed := (Text.encode start).map Key.byte ++ .byte Editor.tab :: .byte enter :: more
      let result := e.readLine ⟨history, c.complete fs directory⟩ screen typed
      result.outcome = .ok (.line (name ++ " ")) ∧ result.rest = more) ∧
    parse (name ++ " ") = [⟨[name], []⟩] ∧
    ∀ sh : Shell, sh.host.files = fs → sh.process.directory = directory →
      sh.environment.searchPath = c.searchPath →
      let stage : Stage := ⟨[name], []⟩
      sh.evaluate c.registry (name ++ " ") = sh.runStage c.registry stage ∧
      (∀ b, c.registry.lookup name = some b → sh.StandsFor c.registry stage (.builtin b)) ∧
      (c.registry.lookup name = none → ∃ path, sh.locate name = some path ∧
        sh.StandsFor c.registry stage (.program path)) ∧
      (∀ manner, ¬sh.Begins c.registry manner stage .unknown) ∧
      ¬sh.Executes c.registry stage .unknown := by
  obtain ⟨rest, hrest⟩ := hstart
  obtain rfl : name = start ++ String.ofList rest := by
    rw [String.ext_iff, String.toList_append, String.toList_ofList, hrest]
  have hparse := parse_plain hname (by simp [hne])
  refine ⟨?_, hparse, ?_⟩
  · intro e history screen enter more he hs henter
    have hprintable : ∀ ch ∈ start.toList, 0x20 ≤ ch.toNat ∧ ch.toNat ≤ 0x7e := by
      intro ch hch
      obtain ⟨hlow, hhigh, -⟩ := hname ch (by simp [hch])
      omega
    have hfound := Completer.complete_only hne hmem honly
    rw [String.append_assoc]
    exact Editor.readLine_completed he hs hprintable hfound (by simp) henter more
  rintro sh rfl rfl hsearch stage
  have hevaluate : sh.evaluate c.registry (start ++ String.ofList rest ++ " ") =
      sh.runStage c.registry stage := by
    rw [Shell.evaluate, hparse]
    rfl
  refine ⟨hevaluate, ?_⟩
  rcases Shell.resolve_of_mem_names hfs hsearch hmem with
    ⟨b, hlookup, hresolve⟩ | ⟨hlookup, path, hpath, hresolve⟩
  all_goals
    obtain ⟨hbegins, hexecutes⟩ := Shell.standsFor_of_resolve hresolve
    have hknown : sh.resolve c.registry (start ++ String.ofList rest) ≠ .unknown := by
      simp [hresolve]
    refine ⟨fun b' hb => ?_, fun hnone => ?_, fun manner h => hknown ((Shell.begins_iff rfl).mp h),
      fun h => hknown ((Shell.executes_iff rfl).mp h)⟩
  · obtain rfl : b = b' := Option.some.inj (hlookup.symm.trans hb)
    exact ⟨hbegins, hexecutes⟩
  · cases hnone.symm.trans hlookup
  · cases hlookup.symm.trans hb
  · exact ⟨path, hpath, hbegins, hexecutes⟩

/-! ## A name of each kind -/

/-- A file system with one program in a directory of programs. -/
def filesWithTool : FileSystem :=
  (FileSystem.empty.put ["bin"] .directory).put ["bin", "tool"] (.tool (.constant 3))

/-- A shell that looks for programs in that directory. -/
def shellWithTool : Shell :=
  .start ⟨[("PATH", "/bin")], "/", false⟩ [] (.start filesWithTool [] [])

/-- The usual registry with one more name, of a builtin that tells that it was called. -/
def registryWithTool : Registry :=
  Registry.default.register "tool" (.supplied fun _ => ⟨"builtin\n", "", some 4⟩)

theorem isBareName_tool : IsBareName "tool" := ⟨by decide, by decide, by decide, by decide⟩

theorem isPlainName_tool : IsPlainName "tool" := by
  intro ch hch
  have hletters : "tool".toList = ['t', 'o', 'o', 'l'] := by decide
  rw [hletters] at hch
  simp only [List.mem_cons, List.not_mem_nil, or_false] at hch
  rcases hch with rfl | rfl | rfl | rfl <;> decide

theorem names_filesWithTool {l : Location} {name : String} (h : name ∈ filesWithTool.names l) :
    name = "bin" ∨ name = "tool" := by
  obtain ⟨entry, hentry, hname⟩ := List.mem_filterMap.mp h
  rcases List.mem_pair.mp (show entry ∈ [(["bin"], Node.directory),
    (["bin", "tool"], .tool (.constant 3))] from hentry) with rfl | rfl
  · have hlast : [] = l ∧ "bin" = name := by simpa using hname
    exact .inl hlast.2.symm
  · have hlast : ["bin"] = l ∧ "tool" = name := by simpa using hname
    exact .inr hlast.2.symm

theorem listsBareNames_filesWithTool : filesWithTool.ListsBareNames := by
  intro l name hname
  rcases names_filesWithTool hname with rfl | rfl
  · exact ⟨by decide, by decide, by decide, by decide⟩
  · exact isBareName_tool

theorem resolve_tool : filesWithTool.resolve [] "/bin/tool" = .ok ["bin", "tool"] := by
  rw [FileSystem.resolve, FileSystem.follow_eq_walk ⟨by decide, by decide, by decide⟩]
  cbv

theorem locate_tool : locate filesWithTool [] "/bin" "tool" = some "/bin/tool" := by
  have hprogram : filesWithTool.isProgram [] "/bin/tool" = true :=
    FileSystem.isProgram_eq_true_iff.mpr ⟨["bin", "tool"], resolve_tool, by decide⟩
  rw [isBareName_tool.isName.locate_eq]
  exact findProgram?_eq_some_iff.mpr ⟨[], "/bin", [], by decide, by decide, hprogram, by simp⟩

/-- With either registry, two of its letters are enough to tell the name. -/
theorem names_tool {r : Registry} (hr : r = .default ∨ r = registryWithTool) :
    "tool" ∈ (⟨r, "/bin"⟩ : Completer).names filesWithTool [] ∧
      ∀ other ∈ (⟨r, "/bin"⟩ : Completer).names filesWithTool [],
        "to".toList <+: other.toList → other = "tool" := by
  have husual : ∀ name ∈ Registry.default.names, ¬"to".toList <+: name.toList := by
    decide +kernel
  have hregistered : ∀ name ∈ r.names, name = "tool" ∨ name ∈ Registry.default.names := by
    intro name h
    rcases hr with rfl | rfl
    · exact .inr h
    · rw [Registry.mem_names, Registry.contains, registryWithTool, Registry.lookup_register] at h
      by_cases hname : name = "tool"
      · exact .inl hname
      · exact .inr (Registry.mem_names.mpr (by rwa [if_neg hname] at h))
  refine ⟨(Completer.mem_names_iff isBareName_tool).mpr (.inr (by rw [locate_tool]; rfl)), ?_⟩
  intro other hother hstarts
  rcases Completer.exists_mem_names hother with hmem | ⟨l, hl⟩
  · exact (hregistered other hmem).resolve_right fun hmem => husual other hmem hstarts
  · exact (names_filesWithTool hl).resolve_left fun h => absurd (h ▸ hstarts) (by decide)

/-- A program is completed from two of its letters and run by the line that is entered, and so is a
builtin that is added by its name. -/
theorem completed_name_runs_tool :
    parse "tool " = [⟨["tool"], []⟩] ∧
      (∀ r : Registry, r = .default ∨ r = registryWithTool →
        ((⟨"$ ", true⟩ : Editor).readLine
          ⟨[], (⟨r, "/bin"⟩ : Completer).complete filesWithTool []⟩ ⟨[], []⟩
          (([0x74, 0x6f, 0x09, 0x0d] : Bytes).map .byte)).outcome = .ok (.line "tool ")) ∧
      shellWithTool.Begins .default .replace ⟨["tool"], []⟩ (.program "/bin/tool") ∧
      (shellWithTool.evaluate .default "tool ").1 = 3 ∧
      (∃ b, shellWithTool.Begins registryWithTool .replace ⟨["tool"], []⟩ (.builtin b)) ∧
      (shellWithTool.evaluate registryWithTool "tool ").1 = 4 ∧
      (shellWithTool.evaluate registryWithTool "tool ").2.host.output.bytes =
        Text.encode "builtin\n" := by
  have hne : "to" ≠ "" := by decide
  have hruns (r : Registry) (hr : r = .default ∨ r = registryWithTool) :=
    completed_name_runs listsBareNames_filesWithTool isPlainName_tool hne (by decide)
      (names_tool hr).1 (names_tool hr).2
  obtain ⟨-, hparse, hdefault⟩ := hruns .default (.inl rfl)
  obtain ⟨-, -, hadded⟩ := hruns registryWithTool (.inr rfl)
  obtain ⟨hevaluate, -, hprogram, -⟩ := hdefault shellWithTool rfl rfl rfl
  obtain ⟨hevaluate', hbuiltin, -⟩ := hadded shellWithTool rfl rfl rfl
  obtain ⟨path, hpath, hstands⟩ := hprogram (by decide)
  obtain rfl : "/bin/tool" = path := Option.some.inj (locate_tool.symm.trans hpath)
  have hstands' := hbuiltin _ ((Registry.lookup_register ..).trans (if_pos rfl))
  have hended : shellWithTool.runStage .default ⟨["tool"], []⟩ = (3, _) :=
    hstands.executes.runStage_of_launch (e := .exited 3) rfl
      (Shell.launch_of_tool (by decide) resolve_tool rfl (by cbv) .spawn .inherited)
      (Shell.finish_of_turn rfl rfl rfl rfl).2
  have hanswered : shellWithTool.runStage registryWithTool ⟨["tool"], []⟩ =
      (4, { shellWithTool with host := { shellWithTool.host with
        output := Received.nothing.add (Text.encode "builtin\n") } }) := by
    cases hstands'.executes with
    | @builtin _ status after _ hrun hstage =>
      obtain rfl : some 4 = status := congrArg Prod.fst hrun
      obtain rfl : _ = after := congrArg Prod.snd hrun
      exact hstage
  refine ⟨hparse, fun r hr => ?_, hstands.begins .replace, ?_, ⟨_, hstands'.begins .replace⟩, ?_,
    ?_⟩
  · have hkeys : ([0x74, 0x6f, 0x09, 0x0d] : Bytes).map Key.byte =
        (Text.encode "to").map Key.byte ++
          .byte Editor.tab :: .byte Editor.carriageReturn :: [] := by decide
    rw [hkeys]
    exact ((hruns r hr).1 _ _ _ _ _ rfl (Screen.isClear_nil []) (.inr rfl)).1
  · exact congrArg Prod.fst (hevaluate.trans hended)
  · exact congrArg Prod.fst (hevaluate'.trans hanswered)
  · exact (congrArg (fun x => x.2.host.output.bytes) (hevaluate'.trans hanswered)).trans rfl

end CommandShell
