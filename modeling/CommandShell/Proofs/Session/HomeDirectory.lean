import Mathlib
import CommandShell.Proofs.Stage.Telling

/-!
# The home directory

A `cd` with a target that starts with a tilde and a slash changes to a path as seen from the home
directory. So a relative path behind the tilde leads where it leads behind the path of the home
directory, and stays below unless it goes up or through links. A path from the root stands for itself
there, as it does anywhere: `cd_home` tells both.
-/

namespace CommandShell

/-! ## Targets -/

/-- A relative path as seen from a directory is one of the same directory as the path with a slash
between the two. -/
theorem FileSystem.canonicalDirectory_join (fs : FileSystem) {d path : String}
    (hpath : Path.isAbsolute path = false) (hd : d ≠ "") :
    fs.canonicalDirectory (Path.join d path) = fs.canonicalDirectory (d ++ "/" ++ path) := by
  have hnames : (Route.ofPath (Path.join d path)).names =
      (Route.ofPath (d ++ "/" ++ path)).names := by
    rw [Route.names_join hpath hd, Route.names_slash]
  obtain ⟨base, hjoin, hbase⟩ := Path.exists_join_eq hpath hd
  rw [hjoin] at hnames ⊢
  refine canonicalDirectory_congr ?_ (by simp) (by simp) hnames ?_
  · obtain rfl | rfl := hbase <;> simp [Text.hasNul]
  · rw [Route.slash_slash, Route.slash_slash]

/-- Whether a path goes down from a location: neither up nor through a link. -/
structure FileSystem.GoesDown (fs : FileSystem) (l : Location) (path : String) : Prop where
  not_up : ".." ∉ (Route.ofPath path).names
  no_link : ∀ p, p <+: (Route.ofPath path).names.filter (· ≠ ".") →
    ∀ target, fs.get? (l ++ p) ≠ some (.link target)

/-- A path with a slash in it that is one of a directory leads on from the directory of the path
before the slash: down, by the names behind the slash, if these go down from there. -/
theorem FileSystem.exists_canonicalDirectory_of_slash {fs : FileSystem} {d path : String}
    {l : Location} (hc : fs.canonicalDirectory (d ++ "/" ++ path) = .ok l) (hd : d ≠ "") :
    ∃ m, fs.canonicalDirectory d = .ok m ∧
      (fs.GoesDown m path → l = m ++ (Route.ofPath path).names.filter (· ≠ ".")) := by
  obtain ⟨hnul, -, hwalk, hl⟩ := canonicalDirectory_eq_ok_iff.mp hc
  have hnul' : Text.hasNul d = false := by
    simp only [Text.hasNul, String.toList_append, List.contains_append, Bool.or_eq_false_iff] at hnul
    exact hnul.1.1
  rw [Route.names_slash] at hwalk
  obtain ⟨m, links, hfirst, hm, hrest⟩ := walkByPath_append hwalk hl (Route.ofPath d).slash
  refine ⟨m, canonicalDirectory_eq_ok_iff.mpr ⟨hnul', hd, hfirst, hm⟩, ?_⟩
  exact fun hdown => walkByPath_down hrest hdown.not_up hdown.no_link

namespace Shell

variable {e : Environment} {home path : String} {target target' : Option String}

/-- A path behind a tilde is one as seen from the home directory. -/
theorem cdTarget_tilde (hhome : e.get? "HOME" = some home) (path : String) :
    cdTarget e (some ("~/" ++ path)) = .ok (Path.join home path) := by
  have hlist : ("~/" ++ path).toList = '~' :: '/' :: path.toList := by simp
  have hne (t : String) (ht : t.toList.length < 2) : "~/" ++ path ≠ t := by
    rintro rfl
    simp at ht
  rw [cdTarget, hhome]
  simp only [hne "" (by decide), hne "~" (by decide), or_self, ↓reduceIte, hlist, Except.map,
    String.ofList_toList]

/-- A path from the root is its own target. -/
theorem cdTarget_of_isAbsolute (h : Path.isAbsolute path = true) :
    cdTarget e (some path) = .ok path := by
  obtain ⟨rest, hlist⟩ : ∃ rest, path.toList = '/' :: rest := by
    simpa [Path.isAbsolute, List.head?_eq_some_iff] using h
  have hne (t : String) (ht : t.toList.head? ≠ some '/') : path ≠ t := by
    rintro rfl
    simp [hlist] at ht
  rw [cdTarget]
  simp only [hne "" (by decide), hne "~" (by decide), or_self, ↓reduceIte, hlist]
  rfl

/-- Without a target, or with an empty one or a tilde alone, the target is the home directory. -/
theorem cdTarget_home (hhome : e.get? "HOME" = some home)
    (htarget : target = none ∨ target = some "" ∨ target = some "~") :
    cdTarget e target = .ok home := by
  obtain rfl | rfl | rfl := htarget <;> simp [cdTarget, hhome]

/-! ## Stages of `cd` -/

variable {sh : Shell} {registry : Registry} {rs : List Redirection} {l : Location}

/-- What comes of a `cd` that is alone on its line. -/
def cd (sh : Shell) (registry : Registry) (rs : List Redirection) (target : Option String) :
    Status × Shell :=
  sh.run registry [⟨"cd" :: target.toList, rs⟩]

/-- Whether a target is not taken for an option. -/
def IsTarget (target : Option String) : Prop :=
  ∀ t ∈ target, t ≠ "help" ∧ t.toList.head? ≠ some '-'

/-- Whether a `cd` has failed without an effect: but for its host, the shell is what it was, and of
the files, those are made and emptied that the redirections name. Without redirections no file is
changed, if what is said goes to the session's standard error. -/
structure Refused (sh : Shell) (rs : List Redirection) (result : Status × Shell) : Prop where
  status : result.1 = 1
  shell : result.2 = { sh with host := result.2.host }
  files : (sh.host.files.prepare sh.process.directory rs).files.SameShape result.2.host.files
  files_eq : rs = [] → sh.process.descriptors.get? 2 = some .error →
    result.2.host.files = sh.host.files

/-- Whether a `cd` to one target has the effect of a `cd` to another one: both lead to the same
directory, with no difference at all in what is left, or both fail without an effect. -/
inductive SameCd (sh : Shell) (registry : Registry) (rs : List Redirection)
    (target target' : Option String) : Prop
  | moved {l : Location} {h : Host} :
      sh.cd registry rs target = (0, { sh.changed (.move l) with host := h }) →
      sh.cd registry rs target' = (0, { sh.changed (.move l) with host := h }) →
      SameCd sh registry rs target target'
  | refused : sh.Refused rs (sh.cd registry rs target) →
      sh.Refused rs (sh.cd registry rs target') → SameCd sh registry rs target target'

/-- A target that is not taken for an option is read as it is. -/
theorem IsTarget.exists_read_cd (h : IsTarget target) :
    ∃ a, Grammar.cd.read target.toList = .ok a ∧ a.help = false ∧ a.positionals.head? = target := by
  cases target with
  | none => exact ⟨_, rfl, rfl, rfl⟩
  | some t =>
    obtain ⟨hhelp, hdash⟩ := h t rfl
    refine ⟨⟨false, true, [], [t]⟩, ?_, rfl, rfl⟩
    rw [Option.toList_some, Grammar.read, Grammar.readFrom_plain _ rfl hhelp hdash]
    rfl

/-- Opening redirections makes no difference to where a target leads. -/
theorem destination?_opened (sh : Shell) (stage : Stage) (target : Option String) :
    (sh.opened stage).destination? target = sh.destination? target := by
  have halike : sh.host.files.Alike (sh.opened stage).host.files :=
    (sh.akin_entered stage).alike.trans (sh.process.sameShape_tell _ _).alike
  exact destination?_host halike target

/-- A `cd` to a directory changes to it. -/
theorem builtin_cd_of_destination (htarget : IsTarget target) (hl : sh.destination? target = some l)
    (streams : Streams) :
    Builtin.cd.run registry ("cd" :: target.toList) streams sh = (some 0, sh.changed (.move l)) := by
  obtain ⟨a, hread, hhelp, hpositionals⟩ := htarget.exists_read_cd
  obtain ⟨m, hm, hrun⟩ | ⟨f, hnone, -⟩ := sh.runCd_cases target
  · obtain rfl : l = m := by simpa using hl.symm.trans hm
    simp only [Builtin.run, Builtin.answer, Builtin.withArguments, List.drop_one, List.tail_cons,
      hread, hhelp, hpositionals, hrun]
    rfl
  · simp [hnone] at hl

/-- A `cd` to no directory says so on its standard error. -/
theorem builtin_cd_of_none (registry : Registry) (htarget : IsTarget target)
    (hnone : sh.destination? target = none) (streams : Streams) :
    ∃ h, Builtin.cd.run registry ("cd" :: target.toList) streams sh =
        (some 1, { sh with host := h }) ∧
      sh.host.files.SameShape h.files ∧
      (streams.errorHandle sh.process = some .error → h.files = sh.host.files) := by
  obtain ⟨a, hread, hhelp, hpositionals⟩ := htarget.exists_read_cd
  obtain ⟨m, hm, -⟩ | ⟨f, -, hrun⟩ := sh.runCd_cases target
  · simp [hnone] at hm
  let said := Builtin.emission sh streams (some "cd") .ignore (.error, f.message ++ "\n")
  have hcare : ∀ e ∈ [said], e.care = .ignore := by simp [said, Builtin.emission]
  obtain ⟨h, hall, hshape⟩ := Emission.writeAll_ignore sh.process (streams.errorHandle sh.process)
    hcare sh.host
  refine ⟨h, ?_, hshape, ?_⟩
  · simp only [Builtin.run, Builtin.answer, Builtin.withArguments, List.drop_one, List.tail_cons,
      hread, hhelp, hpositionals, hrun, List.map_cons, List.map_nil, Bool.false_eq_true, ↓reduceIte]
    rw [hall]
    rfl
  · intro herror
    have hwrite : said.write sh.host = sh.host.write .error said.bytes := by
      simp only [said, Emission.write, Builtin.emission, herror]
    obtain ⟨error, hok, -⟩ := sh.host.exists_write_error said.bytes
    rw [Emission.writeAll, hwrite, hok] at hall
    cases hall
    rfl

/-- A `cd` whose streams can be opened and whose target leads to a directory changes to it and
succeeds. -/
theorem cd_of_destination (hcd : registry.lookup "cd" = some .cd) (htarget : IsTarget target)
    (rs : List Redirection)
    (hcomplete : (sh.host.files.prepare sh.process.directory rs).complete = true)
    (hl : sh.destination? target = some l) :
    sh.cd registry rs target =
      (0, { sh.changed (.move l) with host := (sh.opened ⟨["cd"], rs⟩).host }) := by
  let stage : Stage := ⟨"cd" :: target.toList, rs⟩
  have hvalid : (sh.streamsOf stage).valid = true := (sh.streamsOf_valid stage).trans hcomplete
  have hrun := runStage_builtin hvalid hcd
  rw [builtin_cd_of_destination htarget ((sh.destination?_opened stage target).trans hl)] at hrun
  exact hrun

/-- Another `cd` fails without an effect. -/
theorem refused_cd (hcd : registry.lookup "cd" = some .cd) (htarget : IsTarget target)
    (rs : List Redirection) (h : (sh.host.files.prepare sh.process.directory rs).complete = true →
      sh.destination? target = none) :
    sh.Refused rs (sh.cd registry rs target) := by
  let stage : Stage := ⟨"cd" :: target.toList, rs⟩
  obtain ⟨hvalid, hshape⟩ := Streams.ofRedirections_shape sh.process sh.host rs
  rcases hcomplete : (sh.host.files.prepare sh.process.directory rs).complete with _ | _
  · -- The redirections keep the stage from running.
    have hrun : sh.cd registry rs target = (1, sh.entered stage) := by
      have hbegin : sh.beginStage registry .spawn stage = (.ended 1, sh.entered stage) :=
        if_neg (Bool.eq_false_iff.mp (hvalid.trans hcomplete))
      rw [cd, run, runStage, hbegin]
    rw [hrun]
    refine ⟨rfl, rfl, hshape, ?_⟩
    rintro rfl
    cases hcomplete
  · have hnone := (sh.destination?_opened stage target).trans (h hcomplete)
    obtain ⟨g, hbuiltin, hshape', hfiles⟩ :=
      builtin_cd_of_none registry htarget hnone (sh.streamsOf stage)
    have hrun : sh.cd registry rs target = (1, { sh.opened stage with host := g }) := by
      have hstreams : (sh.streamsOf stage).valid = true := hvalid.trans hcomplete
      have hstage := runStage_builtin hstreams hcd
      rw [hbuiltin] at hstage
      exact hstage
    rw [hrun]
    refine ⟨rfl, rfl, hshape.trans ((sh.process.sameShape_tell _ _).trans hshape'), ?_⟩
    rintro rfl herror
    obtain ⟨error, htold, -⟩ := Process.tell_spec herror sh.host
      (.ofStages .trace "running builtin" [("program", Notice.quoted "cd")])
    have hopened : (sh.opened stage).host = { sh.host with error := error } := htold
    rw [hopened] at hfiles
    exact hfiles herror

/-- A `cd` changes to a directory or fails without an effect. -/
theorem cd_cases (sh : Shell) (hcd : registry.lookup "cd" = some .cd) (htarget : IsTarget target)
    (rs : List Redirection) :
    (∃ l, (sh.host.files.prepare sh.process.directory rs).complete = true ∧
        sh.destination? target = some l ∧ sh.cd registry rs target =
          (0, { sh.changed (.move l) with host := (sh.opened ⟨["cd"], rs⟩).host })) ∨
      ((sh.host.files.prepare sh.process.directory rs).complete = true →
          sh.destination? target = none) ∧
        sh.Refused rs (sh.cd registry rs target) := by
  rcases hcomplete : (sh.host.files.prepare sh.process.directory rs).complete with _ | _
  · right
    exact ⟨by simp, refused_cd hcd htarget rs (by simp [hcomplete])⟩
  rcases hl : sh.destination? target with _ | l
  · exact .inr ⟨fun _ => rfl, refused_cd hcd htarget rs fun _ => hl⟩
  · exact .inl ⟨l, rfl, rfl, cd_of_destination hcd htarget rs hcomplete hl⟩

/-- Targets that lead to the same directory, if they lead to one, have the same effect. -/
theorem sameCd_of_destination (hcd : registry.lookup "cd" = some .cd) (htarget : IsTarget target)
    (htarget' : IsTarget target') (heq : sh.destination? target = sh.destination? target')
    (rs : List Redirection) : sh.SameCd registry rs target target' := by
  obtain ⟨l, hcomplete, hl, hrun⟩ | ⟨hnone, hrefused⟩ := sh.cd_cases hcd htarget rs
  · exact .moved hrun (cd_of_destination hcd htarget' rs hcomplete (heq ▸ hl))
  · exact .refused hrefused (refused_cd hcd htarget' rs (heq ▸ hnone))

/-! ## Home -/

/-- A text that starts with a slash or a tilde is not taken for an option. -/
theorem isTarget_of_head? {t : String} {c : Char} (h : t.toList.head? = some c)
    (hc : c = '/' ∨ c = '~') : IsTarget (some t) := by
  intro t' ht'
  obtain rfl : t = t' := by simpa using ht'
  constructor
  · rintro rfl
    obtain rfl | rfl := hc <;> simp at h
  · rw [h]
    obtain rfl | rfl := hc <;> decide

theorem isTarget_tilde (path : String) : IsTarget (some ("~/" ++ path)) :=
  isTarget_of_head? (c := '~') (by simp) (.inr rfl)

theorem isTarget_of_isAbsolute (h : Path.isAbsolute path = true) : IsTarget (some path) :=
  isTarget_of_head? (c := '/') (by simpa [Path.isAbsolute] using h) (.inl rfl)

/-- A path from the root leads where it leads from anywhere. -/
theorem destination?_of_isAbsolute (ht : cdTarget sh.environment target = .ok path)
    (h : Path.isAbsolute path = true) :
    sh.destination? target = (sh.host.files.canonicalDirectory path).toOption := by
  rw [destination?, ht]
  simp only [Except.toOption, Option.bind_some, Path.join_of_isAbsolute h]

/-- A path behind a tilde leads where it leads as seen from the home directory. -/
theorem destination?_tilde (hhome : sh.environment.get? "HOME" = some home)
    (habsolute : Path.isAbsolute home = true) (path : String) :
    sh.destination? (some ("~/" ++ path)) =
      (sh.host.files.canonicalDirectory (Path.join home path)).toOption :=
  destination?_of_isAbsolute (cdTarget_tilde hhome path) (Path.isAbsolute_join habsolute path)

/-- A `cd` to a path behind a tilde has the effect of a `cd` to the path of the home directory with a
slash and this path behind it, unless this path starts with a slash itself: then it has the effect of
a `cd` to it, wherever home is. A `cd` to nothing, to an empty text or to a tilde alone has the
effect of a `cd` home. And a `cd` to a relative path behind a tilde that succeeds has come below the
home directory by the names along the path, if it goes down from there. -/
theorem cd_home (hcd : registry.lookup "cd" = some .cd)
    (hhome : sh.environment.get? "HOME" = some home) (habsolute : Path.isAbsolute home = true)
    (rs : List Redirection) :
    (∀ path, Path.isAbsolute path = false →
      sh.SameCd registry rs (some ("~/" ++ path)) (some (home ++ "/" ++ path))) ∧
    (∀ path, Path.isAbsolute path = true →
      sh.SameCd registry rs (some ("~/" ++ path)) (some path)) ∧
    (∀ target, target = none ∨ target = some "" ∨ target = some "~" →
      sh.SameCd registry rs target (some home)) ∧
    ∀ path, Path.isAbsolute path = false → (sh.cd registry rs (some ("~/" ++ path))).1 = 0 →
      ∃ l, sh.host.files.canonicalDirectory home = .ok l ∧ (sh.host.files.GoesDown l path →
        (sh.cd registry rs (some ("~/" ++ path))).2.process.directory =
          l ++ (Route.ofPath path).names.filter (· ≠ ".")) := by
  have hne : home ≠ "" := by
    rintro rfl
    cases habsolute
  have hdestination {path : String} (h : Path.isAbsolute path = true) :
      sh.destination? (some path) = (sh.host.files.canonicalDirectory path).toOption :=
    destination?_of_isAbsolute (cdTarget_of_isAbsolute h) h
  refine ⟨?_, ?_, ?_, ?_⟩
  · intro path hpath
    have hbelow : Path.isAbsolute (home ++ "/" ++ path) = true :=
      Path.isAbsolute_append (Path.isAbsolute_append habsolute "/") path
    refine sameCd_of_destination hcd (isTarget_tilde path) (isTarget_of_isAbsolute hbelow) ?_ rs
    rw [destination?_tilde hhome habsolute, hdestination hbelow,
      FileSystem.canonicalDirectory_join _ hpath hne]
  · intro path hpath
    refine sameCd_of_destination hcd (isTarget_tilde path) (isTarget_of_isAbsolute hpath) ?_ rs
    rw [destination?_tilde hhome habsolute, hdestination hpath, Path.join_of_isAbsolute hpath]
  · intro target htarget
    have hplain : IsTarget target := by
      obtain rfl | rfl | rfl := htarget
      all_goals simp [IsTarget]
    refine sameCd_of_destination hcd hplain (isTarget_of_isAbsolute habsolute) ?_ rs
    rw [destination?_of_isAbsolute (cdTarget_home hhome htarget) habsolute, hdestination habsolute]
  · intro path hpath hstatus
    obtain ⟨l, -, hl, hrun⟩ | ⟨-, hrefused⟩ := sh.cd_cases hcd (isTarget_tilde path) rs
    · obtain ⟨_, htarget, hc⟩ := destination?_eq_some_iff.mp hl
      obtain rfl := Except.ok.inj ((cdTarget_tilde hhome path).symm.trans htarget)
      rw [Path.join_of_isAbsolute (Path.isAbsolute_join habsolute path),
        FileSystem.canonicalDirectory_join _ hpath hne] at hc
      rw [hrun]
      exact FileSystem.exists_canonicalDirectory_of_slash hc hne
    · simp [hrefused.status] at hstatus

/-- A shell with the home directory `/tmp`, in which there is a directory. -/
def atHome : Shell :=
  .start (.ofVariables [("HOME", "/tmp")] "/") [] (.start
    ((FileSystem.empty.put ["tmp"] .directory).put ["tmp", "sub"] .directory) [] [])

theorem home_atHome : atHome.environment.get? "HOME" = some "/tmp" := by cbv

/-- A directory in the home directory, by a path with a dot in it. -/
theorem cd_home_sub :
    let below := some ("~/" ++ "./sub")
    atHome.SameCd .default [] below (some ("/tmp" ++ "/" ++ "./sub")) ∧
      (atHome.cd .default [] below).1 = 0 ∧
      (atHome.cd .default [] below).2.process.directory = ["tmp", "sub"] ∧
      atHome.SameCd .default [] none (some "/tmp") := by
  intro below
  have hcd : Registry.default.lookup "cd" = some .cd := by cbv
  have hroute : Route.ofPath (Path.join "/tmp" "./sub") = ⟨true, ["tmp", ".", "sub"], false⟩ := by
    decide
  have hwalk : atHome.host.files.walkByPath maxLinks [] ["tmp", ".", "sub"] false =
      .ok ["tmp", "sub"] := by cbv
  have hcanonical : atHome.host.files.canonicalDirectory (Path.join "/tmp" "./sub") =
      .ok ["tmp", "sub"] := by
    rw [FileSystem.canonicalDirectory_eq_ok_iff, hroute]
    exact ⟨by decide, by decide, hwalk, by decide⟩
  have hl : atHome.destination? below = some ["tmp", "sub"] := by
    rw [destination?_tilde home_atHome (by decide), hcanonical]
    rfl
  have hrun := cd_of_destination hcd (isTarget_tilde "./sub") [] rfl hl
  have hstatus : (atHome.cd .default [] below).1 = 0 := congrArg Prod.fst hrun
  obtain ⟨hrelative, -, hempty, hbelow⟩ := cd_home hcd home_atHome (by decide) []
  refine ⟨hrelative "./sub" (by decide), hstatus, ?_, hempty none (.inl rfl)⟩
  obtain ⟨l, htmp, hdown⟩ := hbelow "./sub" (by decide) hstatus
  have hl' : l = ["tmp"] := by
    obtain ⟨-, -, hw, -⟩ := FileSystem.canonicalDirectory_eq_ok_iff.mp htmp
    have hw' : atHome.host.files.walkByPath maxLinks [] ["tmp"] false = .ok ["tmp"] := by cbv
    have hroute' : Route.ofPath "/tmp" = ⟨true, ["tmp"], false⟩ := by decide
    rw [hroute', hw'] at hw
    exact (Except.ok.inj hw).symm
  subst hl'
  refine hdown ⟨by decide, ?_⟩
  intro p hp target
  obtain rfl | rfl : p = [] ∨ p = ["sub"] := by
    simpa [show (Route.ofPath "./sub").names = [".", "sub"] by decide, List.prefix_cons_iff] using hp
  all_goals
    intro hlink
    cases hlink

/-- A second slash behind the tilde leads to the root: there is a directory of this name in the home
directory, but none there. -/
theorem cd_leaves_home :
    (atHome.cd .default [] (some "~//sub")).1 = 1 ∧
      (atHome.cd .default [] (some "/tmp//sub")).1 = 0 ∧
      (atHome.cd .default [] (some "/tmp//sub")).2.process.directory = ["tmp", "sub"] := by
  have hcd : Registry.default.lookup "cd" = some .cd := by cbv
  have hbelow : atHome.destination? (some "/tmp//sub") = some ["tmp", "sub"] := by
    have hroute : Route.ofPath "/tmp//sub" = ⟨true, ["tmp", "sub"], false⟩ := by decide
    have hwalk : atHome.host.files.walkByPath maxLinks [] ["tmp", "sub"] false =
        .ok ["tmp", "sub"] := by cbv
    have hcanonical : atHome.host.files.canonicalDirectory "/tmp//sub" = .ok ["tmp", "sub"] := by
      rw [FileSystem.canonicalDirectory_eq_ok_iff, hroute]
      exact ⟨by decide, by decide, hwalk, by decide⟩
    rw [destination?_of_isAbsolute (cdTarget_of_isAbsolute (by decide)) (by decide), hcanonical]
    rfl
  have hroot : atHome.destination? (some ("~/" ++ "/sub")) = none := by
    rw [destination?_tilde home_atHome (by decide)]
    rcases hc : atHome.host.files.canonicalDirectory (Path.join "/tmp" "/sub") with f | l
    · rfl
    · have hroute : Route.ofPath (Path.join "/tmp" "/sub") = ⟨true, ["sub"], false⟩ := by decide
      have hwalk : atHome.host.files.walkByPath maxLinks [] ["sub"] false = .error .noEntry := by cbv
      obtain ⟨-, -, hw, -⟩ := FileSystem.canonicalDirectory_eq_ok_iff.mp hc
      rw [hroute, hwalk] at hw
      cases hw
  have hrun := cd_of_destination hcd (isTarget_of_isAbsolute (by decide)) [] rfl hbelow
  have hrefused := refused_cd hcd (isTarget_tilde "/sub") [] fun _ => hroot
  exact ⟨hrefused.status, congrArg Prod.fst hrun, by rw [hrun]; rfl⟩

end Shell

end CommandShell
