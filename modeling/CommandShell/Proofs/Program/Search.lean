import Mathlib
import CommandShell.Proofs.File.Name
import CommandShell.Proofs.File.Touch

/-!
# Where programs are looked for

A name is looked for in the directories of the search path, one after the other: `locate_along` says
which program is found, and that the search along two search paths in a row is the search along one
and then along the other. What has a slash is a path and is looked at by itself, unless it is a name
with nothing but slashes and dots behind it: that is looked for like the name, as `locate_of_slash`
says.
-/

namespace CommandShell

/-! ## Paths that lead to directories only -/

namespace FileSystem

variable {fs : FileSystem} {links : Nat} {here l directory : Location} {names : List String}
  {slash creating : Bool} {path : String}

/-- With a slash at the end, a path leads to a directory. -/
theorem isDirectory_of_leads_slash (h : fs.Leads creating links here names slash l)
    (hslash : slash = true) : fs.isDirectory l = true := by
  induction h with
  | here hd => exact hd hslash
  | dot _ _ _ ih | dots _ _ _ ih | through _ _ _ _ _ _ _ _ ih => exact ih hslash
  | new => cases hslash
  | link _ _ _ _ _ _ _ _ ih => exact ih (by rw [hslash, Bool.true_or])

/-- With a dot at the end, a path leads to a directory. -/
theorem isDirectory_of_leads_dot (h : fs.Leads false links here (names ++ ["."]) slash l) :
    fs.isDirectory l = true := by
  generalize hall : names ++ ["."] = all at h
  induction h generalizing names with
  | here => simp at hall
  | @dot links here l rest slash hd _ hrest ih =>
    rcases names with _ | ⟨n, names⟩
    · -- Nothing follows the dot, so the path leads to the directory that it starts from.
      obtain ⟨-, rfl⟩ := List.cons.inj hall
      cases hrest
      exact hd
    · exact ih (List.cons.inj hall).2
  | dots _ _ _ ih =>
    rcases names with _ | ⟨n, names⟩
    · exact absurd (List.cons.inj hall).1 (by decide)
    · exact ih (List.cons.inj hall).2
  | new hcreating => cases hcreating
  | link _ _ hdot _ _ _ _ _ ih =>
    rcases names with _ | ⟨n, names⟩
    · exact absurd (List.cons.inj hall).1.symm hdot
    · obtain ⟨-, rfl⟩ := List.cons.inj hall
      exact ih (List.append_assoc ..)
  | through _ _ hdot _ _ _ _ _ ih =>
    rcases names with _ | ⟨n, names⟩
    · exact absurd (List.cons.inj hall).1.symm hdot
    · exact ih (List.cons.inj hall).2

/-- No program is a directory, so none is found by a path that ends in a slash or a dot. -/
theorem isProgram_of_ofPath
    (h : (Route.ofPath path).slash = true ∨ ∃ init, (Route.ofPath path).names = init ++ ["."]) :
    fs.isProgram directory path = false := by
  rw [Bool.eq_false_iff]
  intro hprogram
  obtain ⟨l, hfollow, hl⟩ := isProgram_eq_true_iff.mp hprogram
  rw [follow_eq_walk (isPath_of_follow hfollow)] at hfollow
  have hleads := leads_of_walk hfollow
  have hdirectory : fs.isDirectory l = true := by
    rcases h with hslash | ⟨init, hinit⟩
    · exact isDirectory_of_leads_slash hleads hslash
    · rw [hinit] at hleads
      exact isDirectory_of_leads_dot hleads
  rw [isDirectory, decide_eq_true_eq] at hdirectory
  rw [hdirectory] at hl
  cases hl

/-- Whether a path leads to a program, from the names along it and where they lead. -/
theorem isProgram_of_walk {absolute : Bool} (hpath : IsPath path)
    (hroute : Route.ofPath path = ⟨absolute, names, slash⟩)
    (hwalk : fs.walk false maxLinks (if absolute then [] else directory) names slash = .ok l) :
    fs.isProgram directory path = (fs.get? l).any Node.isProgram := by
  rw [Bool.eq_iff_iff, isProgram_eq_true_iff, follow_eq_walk hpath, hroute, hwalk]
  simp

end FileSystem

/-! ## Names -/

/-- The directories of two search paths in a row are those of one and then those of the other. -/
theorem searchDirectories_append (s t : String) :
    searchDirectories (s ++ ":" ++ t) = searchDirectories s ++ searchDirectories t := by
  have hsplit : Text.splitOn ':' (s ++ ":" ++ t) = Text.splitOn ':' s ++ Text.splitOn ':' t := by
    have htext : (s ++ ":" ++ t).toList = s.toList ++ ':' :: t.toList := by simp
    rw [Text.splitOn, htext, List.splitOn_append_cons_self, List.map_append]
    rfl
  rw [searchDirectories, hsplit, List.filter_append]
  rfl

/-- The directories of a search path are its entries, empty ones left out. -/
theorem searchDirectories_intercalate {entries : List String}
    (h : ∀ entry ∈ entries, ':' ∉ entry.toList) :
    searchDirectories (String.intercalate ":" entries) = entries.filter (· ≠ "") := by
  rcases entries with _ | ⟨entry, entries⟩
  · rfl
  have hsplit : (String.intercalate ":" (entry :: entries)).toList.splitOn ':' =
      (entry :: entries).map String.toList := by
    rw [String.toList_intercalate]
    exact List.splitOn_intercalate ':' (by simpa using h) (by simp)
  rw [searchDirectories, Text.splitOn, hsplit, List.map_map]
  simp

/-- Looking for a name along a search path is looking for it in the directories; the dot, which is
never looked for, would not be found there either. -/
theorem IsName.locate_eq {name : String} (h : IsName name) (fs : FileSystem) (directory : Location)
    (searchPath : String) :
    locate fs directory searchPath name = findProgram? fs directory searchPath name := by
  rw [locate, h.searchName?_eq]
  by_cases hdot : name = "."
  · subst hdot
    have hnone : findProgram? fs directory searchPath "." = none := by
      rw [findProgram?, List.find?_eq_none]
      intro path hpath
      obtain ⟨d, hd, rfl⟩ := List.mem_map.mp hpath
      have hne : d ≠ "" := by simpa using (List.mem_filter.mp hd).2
      rw [FileSystem.isProgram_of_ofPath (.inr ⟨(Route.ofPath d).names, by rw [h.ofPath_join hne]⟩)]
      decide
    have hself : fs.isProgram directory "." = false :=
      FileSystem.isProgram_of_ofPath (.inr ⟨[], by decide⟩)
    rw [if_pos rfl, hnone, hself]
    rfl
  · rw [if_neg hdot]

/-- The program that is found in the directories of a search path is in the first of them that has
one of the name. -/
theorem findProgram?_eq_some_iff {fs : FileSystem} {directory : Location}
    {searchPath name program : String} :
    findProgram? fs directory searchPath name = some program ↔
      ∃ before d after, searchDirectories searchPath = before ++ d :: after ∧
        program = Path.join d name ∧ fs.isProgram directory program = true ∧
        ∀ other ∈ before, fs.isProgram directory (Path.join other name) = false := by
  rw [findProgram?, List.find?_map, Option.map_eq_some_iff]
  constructor
  · rintro ⟨d, hd, rfl⟩
    obtain ⟨hprogram, before, after, hall, hbefore⟩ := List.find?_eq_some_iff_append.mp hd
    exact ⟨before, d, after, hall, rfl, hprogram, by simpa using hbefore⟩
  · rintro ⟨before, d, after, hall, rfl, hprogram, hbefore⟩
    exact ⟨d, List.find?_eq_some_iff_append.mpr
      ⟨hprogram, before, after, hall, by simpa using hbefore⟩, rfl⟩

/-- The path of a program that is found in a directory has a slash. -/
theorem IsName.mem_slash_of_locate {fs : FileSystem} {directory : Location}
    {searchPath name program : String} (h : IsName name)
    (hlocate : locate fs directory searchPath name = some program) : '/' ∈ program.toList := by
  rw [h.locate_eq, findProgram?_eq_some_iff] at hlocate
  obtain ⟨before, d, after, hall, rfl, -⟩ := hlocate
  have hd : d ∈ searchDirectories searchPath := by simp [hall]
  obtain ⟨base, hjoin, -⟩ := h.exists_toList_join (by simpa using (List.mem_filter.mp hd).2)
  rw [hjoin]
  simp

/-- A name is looked for along a search path from left to right. The search along two search paths
in a row is the search along the first and, if it fails, along the second; what counts are the
entries that are not empty, whichever they are. The program that is found is the path into the first
of them by which a program is found, and has a slash, so that it is not looked for again. -/
theorem locate_along (fs : FileSystem) (directory : Location) {name : String} (h : IsName name) :
    (∀ s t, locate fs directory (s ++ ":" ++ t) name =
        (locate fs directory s name).or (locate fs directory t name)) ∧
      (∀ entries : List String, (∀ entry ∈ entries, ':' ∉ entry.toList) →
        searchDirectories (String.intercalate ":" entries) = entries.filter (· ≠ "") ∧
          locate fs directory (String.intercalate ":" entries) name =
            locate fs directory (String.intercalate ":" (entries.filter (· ≠ ""))) name) ∧
      (∀ searchPath program, locate fs directory searchPath name = some program ↔
        ∃ before d after, searchDirectories searchPath = before ++ d :: after ∧
          program = Path.join d name ∧ fs.isProgram directory program = true ∧
          ∀ other ∈ before, fs.isProgram directory (Path.join other name) = false) ∧
      ∀ searchPath program, locate fs directory searchPath name = some program →
        '/' ∈ program.toList := by
  refine ⟨?_, ?_, ?_, ?_⟩
  · intro s t
    simp only [h.locate_eq, findProgram?, searchDirectories_append, List.map_append,
      List.find?_append]
  · intro entries hentries
    have hfiltered : ∀ entry ∈ entries.filter (· ≠ ""), ':' ∉ entry.toList :=
      fun entry hentry => hentries entry (List.mem_filter.mp hentry).1
    refine ⟨searchDirectories_intercalate hentries, ?_⟩
    simp only [h.locate_eq, findProgram?, searchDirectories_intercalate hentries,
      searchDirectories_intercalate hfiltered, List.filter_filter, Bool.and_self]
  · intro searchPath program
    rw [h.locate_eq, findProgram?_eq_some_iff]
  · intro searchPath program hlocate
    exact h.mem_slash_of_locate hlocate

/-- A directory and a file that may not be run, which are passed over, with an empty entry between
them, and a program in a directory whose entry ends in a slash. -/
theorem locate_along_third :
    let fs := (((((FileSystem.empty.put ["a"] .directory).put ["a", "tool"] .directory).put
      ["b"] .directory).put ["b", "tool"] (.file 0o644 [])).put ["c"] .directory).put
        ["c", "tool"] (.file 0o755 [])
    IsName "tool" ∧ locate fs [] "/a::/b:c/" "tool" = some "c/tool" ∧ '/' ∈ "c/tool".toList := by
  intro fs
  have htool : IsName "tool" := ⟨by decide, by decide⟩
  have hdirectories : searchDirectories "/a::/b:c/" = ["/a", "/b", "c/"] := by decide
  have ha : fs.isProgram [] (Path.join "/a" "tool") = false := by
    have hroute : Route.ofPath (Path.join "/a" "tool") = ⟨true, ["a", "tool"], false⟩ := by decide
    rw [FileSystem.isProgram_of_walk (l := ["a", "tool"]) ⟨by decide, by decide, by decide⟩ hroute
      (by cbv)]
    decide
  have hb : fs.isProgram [] (Path.join "/b" "tool") = false := by
    have hroute : Route.ofPath (Path.join "/b" "tool") = ⟨true, ["b", "tool"], false⟩ := by decide
    rw [FileSystem.isProgram_of_walk (l := ["b", "tool"]) ⟨by decide, by decide, by decide⟩ hroute
      (by cbv)]
    decide
  have hc : fs.isProgram [] "c/tool" = true := by
    have hroute : Route.ofPath "c/tool" = ⟨false, ["c", "tool"], false⟩ := by decide
    rw [FileSystem.isProgram_of_walk (l := ["c", "tool"]) ⟨by decide, by decide, by decide⟩ hroute
      (by cbv)]
    decide
  obtain ⟨-, -, hfound, hslash⟩ := locate_along fs [] htool
  have hlocate : locate fs [] "/a::/b:c/" "tool" = some "c/tool" :=
    (hfound _ _).mpr ⟨["/a", "/b"], "c/", [], hdirectories, by decide, hc, by simp [ha, hb]⟩
  exact ⟨htool, hlocate, hslash _ _ hlocate⟩

/-! ## Paths with slashes -/

/-- Whether a path is a name with nothing but slashes and dots behind it, at least one slash in
front. The dot is not counted as a name. -/
structure Path.Trails (path name : String) : Prop where
  isName : IsName name
  ne_dot : name ≠ "."
  exists_tail : ∃ tail, path = name ++ "/" ++ tail ∧
    ∀ part ∈ Text.splitOn '/' tail, part = "" ∨ part = "."

namespace IsName

variable {name : String}

/-- A path along a name and then along a tail. -/
theorem splitOn_append (h : IsName name) (tail : String) :
    Text.splitOn '/' (name ++ "/" ++ tail) = name :: Text.splitOn '/' tail := by
  have htext : (name ++ "/" ++ tail).toList = name.toList ++ '/' :: tail.toList := by simp
  rw [Text.splitOn, htext, List.splitOn_append_cons_self, List.map_append]
  exact congrArg (· ++ Text.splitOn '/' tail) h.splitOn_eq

/-- A path along a name and then along a tail is no path from the root. -/
theorem isAbsolute_append (h : IsName name) (tail : String) :
    Path.isAbsolute (name ++ "/" ++ tail) = false := by
  have hne : name.toList ≠ [] := by simpa using h.ne_empty
  obtain ⟨c, cs, hcs⟩ := List.exists_cons_of_ne_nil hne
  have hslash : c ≠ '/' := by
    rintro rfl
    exact h.not_mem_slash (by simp [hcs])
  simp [Path.isAbsolute, hcs, hslash]

/-- A path along a name and a tail is looked for by the name if the tail says nothing. -/
theorem searchName?_append (h : IsName name) (tail : String) :
    Path.searchName? (name ++ "/" ++ tail) =
      if name ≠ "." ∧ ∀ part ∈ Text.splitOn '/' tail, part = "" ∨ part = "." then some name
      else none := by
  have hidle : (Text.splitOn '/' tail).filter (fun part => part ≠ "" && part ≠ ".") = [] ↔
      ∀ part ∈ Text.splitOn '/' tail, part = "" ∨ part = "." := by
    simp [List.filter_eq_nil_iff, Decidable.or_iff_not_imp_left]
  simp only [Path.searchName?, Path.components, h.isAbsolute_append, h.splitOn_append, h.ne_empty,
    Bool.false_eq_true, ↓reduceIte, List.singleton_append, ← hidle]
  rcases (Text.splitOn '/' tail).filter (fun part => part ≠ "" && part ≠ ".") with _ | ⟨part, parts⟩
  · by_cases hdot : name = "." <;> simp [hdot]
  · simp

end IsName

/-- A path that is not looked at by itself is looked for by the name that it trails. -/
theorem Path.searchName?_eq_some_iff {path name : String} (h : '/' ∈ path.toList) :
    searchName? path = some name ↔ Trails path name := by
  constructor
  · intro hname
    obtain ⟨front, tail, hpath, hfront⟩ := List.eq_append_cons_of_mem h
    obtain rfl : path = String.ofList front ++ "/" ++ String.ofList tail := by
      rw [← String.toList_inj, hpath]
      simp
    by_cases hempty : front = []
    · subst hempty
      have habsolute : isAbsolute (String.ofList [] ++ "/" ++ String.ofList tail) = true := by
        simp [isAbsolute]
      rw [searchName?, habsolute, if_pos rfl] at hname
      cases hname
    have hisName : IsName (String.ofList front) := ⟨by simpa using hempty, by simpa using hfront⟩
    rw [hisName.searchName?_append] at hname
    split at hname
    · next hidle =>
      cases hname
      exact ⟨hisName, hidle.1, _, rfl, hidle.2⟩
    · cases hname
  · rintro ⟨hisName, hdot, tail, rfl, hidle⟩
    rw [hisName.searchName?_append, if_pos ⟨hdot, hidle⟩]

/-- A text whose parts are all empty holds nothing but separators. -/
theorem Text.eq_of_splitOn {separator : Char} {text : String}
    (h : ∀ part ∈ Text.splitOn separator text, part = "") : ∀ c ∈ text.toList, c = separator := by
  have hparts : ∀ part ∈ text.toList.splitOn separator, part = [] := by
    intro part hpart
    simpa using h _ (List.mem_map_of_mem hpart)
  generalize text.toList = cs at hparts
  induction cs with
  | nil => simp
  | cons c cs ih =>
    rw [List.splitOn_cons_eq_if_modifyHead] at hparts
    split at hparts
    · next hc =>
      simp only [List.mem_cons, forall_eq_or_imp, beq_iff_eq] at hparts hc ⊢
      exact ⟨hc, ih hparts.2⟩
    · -- The first part would hold the character.
      obtain ⟨part, parts, heq⟩ := List.exists_cons_of_ne_nil (List.splitOn_ne_nil separator cs)
      simp [heq] at hparts

/-- No program is found by a path that trails a name: where there is a slash or a dot at the end,
there would have to be a directory. -/
theorem Path.Trails.isProgram_eq {path name : String} (h : Trails path name) (fs : FileSystem)
    (directory : Location) : fs.isProgram directory path = false := by
  obtain ⟨hisName, -, tail, rfl, hidle⟩ := h
  refine FileSystem.isProgram_of_ofPath ?_
  have hnames : (Route.ofPath (name ++ "/" ++ tail)).names =
      name :: (Text.splitOn '/' tail).filter (· ≠ "") := by
    rw [Route.ofPath, hisName.splitOn_append,
      List.filter_cons_of_pos (by simpa using hisName.ne_empty)]
  rcases List.eq_nil_or_concat ((Text.splitOn '/' tail).filter (· ≠ "")) with
    hnil | ⟨init, last, hlast⟩
  · left
    have hslashes : ∀ c ∈ tail.toList, c = '/' := by
      refine Text.eq_of_splitOn fun part hpart => ?_
      simpa using List.filter_eq_nil_iff.mp hnil part hpart
    have hlast : ('/' :: tail.toList).getLast (by simp) = '/' := by
      rcases List.mem_cons.mp (List.getLast_mem (List.cons_ne_nil '/' tail.toList)) with heq | hmem
      · exact heq
      · exact hslashes _ hmem
    have htext : (name ++ "/" ++ tail).toList = name.toList ++ '/' :: tail.toList := by simp
    rw [Route.ofPath, decide_eq_true_eq, htext, List.getLast?_append,
      List.getLast?_eq_some_getLast (List.cons_ne_nil '/' tail.toList), hlast, Option.some_or]
  · right
    have hmem : last ∈ (Text.splitOn '/' tail).filter (· ≠ "") := by
      rw [hlast]
      simp
    obtain ⟨hpart, hne⟩ := List.mem_filter.mp hmem
    obtain rfl := (hidle last hpart).resolve_left (by simpa using hne)
    exact ⟨name :: init, by rw [hnames, hlast, List.concat_eq_append, List.cons_append]⟩

/-- What trails a name is looked for like the name. -/
theorem Path.Trails.locate_eq {path name : String} (h : Trails path name) (fs : FileSystem)
    (directory : Location) (searchPath : String) :
    locate fs directory searchPath path = locate fs directory searchPath name := by
  have hslash : '/' ∈ path.toList := by
    obtain ⟨-, -, tail, rfl, -⟩ := h
    simp
  rw [h.isName.locate_eq, locate, (Path.searchName?_eq_some_iff hslash).mpr h]

/-- Whatever is found has a slash in its path. -/
theorem mem_slash_of_locate {fs : FileSystem} {directory : Location}
    {searchPath path program : String} (h : locate fs directory searchPath path = some program) :
    '/' ∈ program.toList := by
  by_cases hslash : '/' ∈ path.toList
  · rcases hname : Path.searchName? path with _ | name
    · rw [locate, hname] at h
      simp only [Option.ite_none_right_eq_some, Option.some.injEq] at h
      rwa [← h.2]
    · have htrails := (Path.searchName?_eq_some_iff hslash).mp hname
      rw [htrails.locate_eq] at h
      exact htrails.isName.mem_slash_of_locate h
  by_cases hempty : path = ""
  · -- The empty path leads nowhere.
    subst hempty
    have hnone : fs.isProgram directory "" = false := by
      rw [Bool.eq_false_iff]
      intro hprogram
      obtain ⟨l, hfollow, -⟩ := FileSystem.isProgram_eq_true_iff.mp hprogram
      exact (FileSystem.isPath_of_follow hfollow).ne_empty rfl
    rw [locate, show Path.searchName? "" = none by decide, hnone] at h
    cases h
  · exact IsName.mem_slash_of_locate ⟨hempty, hslash⟩ h

/-- A directory with a program in it. -/
def binWithX : FileSystem :=
  (FileSystem.empty.put ["bin"] .directory).put ["bin", "x"] (.file 0o755 [])

theorem isName_x : IsName "x" := ⟨by decide, by decide⟩

theorem locate_binWithX : locate binWithX [] "/bin" "x" = some "/bin/x" := by
  have hroute : Route.ofPath "/bin/x" = ⟨true, ["bin", "x"], false⟩ := by decide
  have hprogram : binWithX.isProgram [] "/bin/x" = true := by
    rw [FileSystem.isProgram_of_walk (l := ["bin", "x"]) ⟨by decide, by decide, by decide⟩ hroute
      (by cbv)]
    decide
  rw [isName_x.locate_eq]
  exact findProgram?_eq_some_iff.mpr ⟨[], "/bin", [], by decide, by decide, hprogram, by simp⟩

/-- What has a slash is a path and is looked at by itself, whatever the search path, unless it
trails a name. Then it is looked for like the name, though it leads to no program by itself. -/
theorem locate_of_slash (fs : FileSystem) (directory : Location) (searchPath : String)
    {path : String} (h : '/' ∈ path.toList) :
    ((∀ name, ¬Path.Trails path name) → locate fs directory searchPath path =
        if fs.isProgram directory path then some path else none) ∧
      ∀ name, Path.Trails path name → fs.isProgram directory path = false ∧
        locate fs directory searchPath path = locate fs directory searchPath name := by
  refine ⟨?_, ?_⟩
  · intro hnone
    rcases hname : Path.searchName? path with _ | name
    · rw [locate, hname]
    · exact absurd ((Path.searchName?_eq_some_iff h).mp hname) (hnone name)
  · intro name htrails
    exact ⟨htrails.isProgram_eq fs directory, htrails.locate_eq fs directory searchPath⟩

/-- A slash behind a name does not keep it from being looked for, and one in front of it does. -/
theorem locate_of_slash_binWithX :
    '/' ∈ "x/.".toList ∧ Path.Trails "x/." "x" ∧
      locate binWithX [] "/bin" "x/." = some "/bin/x" ∧
      '/' ∈ "./x".toList ∧ (∀ name, ¬Path.Trails "./x" name) ∧
      locate binWithX [] "/bin" "./x" = none := by
  have htrails : Path.Trails "x/." "x" := ⟨isName_x, by decide, ".", by decide, by decide⟩
  have hslash : '/' ∈ "./x".toList := by decide
  have hnone : ∀ name, ¬Path.Trails "./x" name := by
    intro name hname
    have hsearch : Path.searchName? "./x" = none := by decide
    rw [← Path.searchName?_eq_some_iff hslash, hsearch] at hname
    cases hname
  have hroute : Route.ofPath "./x" = ⟨false, [".", "x"], false⟩ := by decide
  have hprogram : binWithX.isProgram [] "./x" = false := by
    rw [FileSystem.isProgram, FileSystem.lookup, FileSystem.resolve,
      FileSystem.follow_eq_walk ⟨by decide, by decide, by decide⟩, hroute]
    cbv
  refine ⟨by decide, htrails, ?_, hslash, hnone, ?_⟩
  · rw [((locate_of_slash binWithX [] "/bin" (by decide)).2 "x" htrails).2, locate_binWithX]
  · rw [(locate_of_slash binWithX [] "/bin" hslash).1 hnone, hprogram]
    rfl

/-- What trails the name of a program on the search path is found there, though it has a slash and
is no program by itself, and is not found along another search path. -/
theorem found_despite_slash :
    '/' ∈ "x/".toList ∧ binWithX.isProgram [] "x/" = false ∧
      locate binWithX [] "" "x/" = none ∧ locate binWithX [] "/bin" "x/" = some "/bin/x" := by
  have htrails : Path.Trails "x/" "x" := ⟨isName_x, by decide, "", by decide, by decide⟩
  refine ⟨by decide, htrails.isProgram_eq _ _, ?_, ?_⟩
  · rw [htrails.locate_eq, isName_x.locate_eq]
    decide
  · rw [htrails.locate_eq, locate_binWithX]

end CommandShell
