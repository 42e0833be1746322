import CommandShell.Proofs.Completion
import CommandShell.Proofs.File.Name
import CommandShell.Proofs.File.Touch

/-!
# Completion and resolution

Completion lists the directories of the search path, and resolution tries one path after the other.
`offered_iff_runnable` says that both come to the same names: a bare name is offered for every start
of it if it can be run, and for no start of it if it cannot.
-/

namespace CommandShell

/-- A name without slashes that is not one of the dots. -/
structure IsBareName (name : String) : Prop where
  ne_empty : name ≠ ""
  not_mem_slash : '/' ∉ name.toList
  ne_dot : name ≠ "."
  ne_dots : name ≠ ".."

/-- A bare name is a name. -/
theorem IsBareName.isName {name : String} (h : IsBareName name) : IsName name :=
  ⟨h.ne_empty, h.not_mem_slash⟩

/-- A bare name is looked for along the search path. -/
theorem IsBareName.searchName?_eq {name : String} (h : IsBareName name) :
    Path.searchName? name = some name := by
  rw [h.isName.searchName?_eq, if_neg h.ne_dot]

/-! ## Names in directories -/

namespace FileSystem

variable {fs : FileSystem} {links : Nat} {here l : Location} {names : List String} {name : String}
  {slash : Bool}

/-- A path to a name in a directory leads to the directory first, and there is something by that
name in it. -/
theorem exists_directory_of_leads (hdot : name ≠ ".") (hdots : name ≠ "..")
    (h : fs.Leads false links here (names ++ [name]) slash l) :
    ∃ m, fs.isDirectory m = true ∧ (fs.get? (m ++ [name])).isSome = true ∧
      ∀ slash, fs.Leads false links here names slash m := by
  generalize hall : names ++ [name] = all at h
  -- The name itself is what the path ends with, so all names before it are behind the directory.
  have hend {links : Nat} {here : Location} (hd : fs.isDirectory here = true)
      (hget : (fs.get? (here ++ [name])).isSome = true) :
      ∃ m, fs.isDirectory m = true ∧ (fs.get? (m ++ [name])).isSome = true ∧
        ∀ slash, fs.Leads false links here [] slash m :=
    ⟨here, hd, hget, fun _ => .here fun _ => hd⟩
  induction h generalizing names with
  | here => simp at hall
  | @dot links here l rest slash hd hc hrest ih =>
    rcases names with _ | ⟨n, names⟩
    · exact absurd (List.cons.inj hall).1 hdot
    obtain ⟨rfl, rfl⟩ := List.cons.inj hall
    obtain ⟨m, hm, hget, hleads⟩ := ih rfl
    exact ⟨m, hm, hget, fun slash => .dot hd (by simp) (hleads slash)⟩
  | @dots links here l rest slash hd hc hrest ih =>
    rcases names with _ | ⟨n, names⟩
    · exact absurd (List.cons.inj hall).1 hdots
    obtain ⟨rfl, rfl⟩ := List.cons.inj hall
    obtain ⟨m, hm, hget, hleads⟩ := ih rfl
    exact ⟨m, hm, hget, fun slash => .dots hd (by simp) (hleads slash)⟩
  | new hcr => cases hcr
  | @link links here l name' path rest slash hd hc hdot' hdots' hlen hget' hpath hrest ih =>
    rcases names with _ | ⟨n, names⟩
    · obtain ⟨rfl, -⟩ := List.cons.inj hall
      exact hend hd (by simp [hget'])
    obtain ⟨rfl, rfl⟩ := List.cons.inj hall
    obtain ⟨m, hm, hget, hleads⟩ := ih (List.append_assoc ..)
    exact ⟨m, hm, hget, fun slash => .link hd (by simp) hdot' hdots' hlen hget' hpath (hleads _)⟩
  | @through links here l name' rest slash node hd hc hdot' hdots' hlen hget' hnode hrest ih =>
    rcases names with _ | ⟨n, names⟩
    · obtain ⟨rfl, -⟩ := List.cons.inj hall
      exact hend hd (by simp [hget'])
    obtain ⟨rfl, rfl⟩ := List.cons.inj hall
    obtain ⟨m, hm, hget, hleads⟩ := ih rfl
    exact ⟨m, hm, hget, fun slash => .through hd (by simp) hdot' hdots' hlen hget' hnode (hleads _)⟩

/-- What stands in a directory is listed in it. -/
theorem mem_names {m : Location} (h : (fs.get? (m ++ [name])).isSome = true) :
    name ∈ fs.names m := by
  rw [get?, if_neg (by simp), Option.isSome_iff_exists] at h
  obtain ⟨n, hn⟩ := h
  rw [names, List.mem_filterMap]
  obtain ⟨before, after, heq, -⟩ := List.lookup_eq_some_iff.mp hn
  exact ⟨(m ++ [name], n), by simp [heq], by simp⟩

/-- A directory that a program is found in can be listed, and the program is one of its names. -/
theorem exists_list_of_isProgram_join {directory : Location} {d : String} (h : IsBareName name)
    (hd : d ≠ "") (hp : fs.isProgram directory (Path.join d name) = true) :
    ∃ names, fs.list directory d = .ok names ∧ name ∈ names := by
  obtain ⟨l, hfollow, -⟩ := isProgram_eq_true_iff.mp hp
  have hpath := isPath_of_follow hfollow
  rw [follow_eq_walk hpath, h.isName.ofPath_join hd] at hfollow
  obtain ⟨m, hm, hget, hleads⟩ := exists_directory_of_leads h.ne_dot h.ne_dots
    (leads_of_walk hfollow)
  have hresolve : fs.resolve directory d = .ok m := by
    rw [resolve, follow_eq_walk (h.isName.isPath_of_join hd hpath)]
    exact walk_of_leads (hleads _)
  refine ⟨fs.names m, ?_, mem_names hget⟩
  simp [list, resolveDirectory, hresolve, hm, bind, Except.bind, Except.map]

end FileSystem

/-! ## Names that can be completed to -/

/-- The programs in a directory are those that paths into it find. -/
theorem mem_programsIn {fs : FileSystem} {directory : Location} {d name : String}
    (h : IsBareName name) (hd : d ≠ "") :
    name ∈ programsIn fs directory d ↔ fs.isProgram directory (Path.join d name) = true := by
  constructor
  · intro hname
    rw [programsIn] at hname
    split at hname
    · simpa using (List.mem_filter.mp hname).2
    · cases hname
  · intro hprogram
    obtain ⟨names, hlist, hmem⟩ := FileSystem.exists_list_of_isProgram_join h hd hprogram
    rw [programsIn, hlist]
    exact List.mem_filter.mpr ⟨hmem, hprogram⟩

/-- The names that are registered are those that have builtins. -/
theorem Registry.mem_names {r : Registry} {name : String} :
    name ∈ r.names ↔ r.contains name = true := by
  rw [names, contains, lookup, List.lookup_isSome_iff]
  simp

namespace Completer

variable {c : Completer} {fs : FileSystem} {directory : Location} {name : String}

/-- The names that a text is completed to. -/
def offered (c : Completer) (fs : FileSystem) (directory : Location) (text : String) :
    List String :=
  (c.candidates fs directory text).map (text ++ ·)

/-- A name is offered for any start of it if it is a name to complete to. -/
theorem mem_offered {text : String} :
    name ∈ c.offered fs directory text ↔
      text.toList <+: name.toList ∧ name ∈ c.names fs directory := by
  simp only [offered, List.mem_map, mem_candidates]
  constructor
  · rintro ⟨rest, hrest, rfl⟩
    exact ⟨by simp, hrest⟩
  · rintro ⟨⟨rest, hrest⟩, hname⟩
    obtain rfl : name = text ++ String.ofList rest := by
      rw [String.ext_iff, String.toList_append, String.toList_ofList, hrest]
    exact ⟨String.ofList rest, hname, rfl⟩

/-- Whether a name has a builtin or is found along the search path. -/
def CanRun (c : Completer) (fs : FileSystem) (directory : Location) (name : String) : Prop :=
  c.registry.contains name = true ∨ (locate fs directory c.searchPath name).isSome = true

/-- The names to complete to are those that can be run. -/
theorem mem_names_iff (h : IsBareName name) :
    name ∈ c.names fs directory ↔ c.CanRun fs directory name := by
  simp only [CanRun, names, List.mem_append, Registry.mem_names, List.mem_flatMap, locate,
    h.searchName?_eq, findProgram?, List.find?_isSome, List.mem_map]
  have hd {d : String} (hd : d ∈ searchDirectories c.searchPath) : d ≠ "" := by
    simpa using (List.mem_filter.mp hd).2
  refine or_congr_right ⟨?_, ?_⟩
  · rintro ⟨d, hmem, hname⟩
    exact ⟨_, ⟨d, hmem, rfl⟩, (mem_programsIn h (hd hmem)).mp hname⟩
  · rintro ⟨-, ⟨d, hmem, rfl⟩, hprogram⟩
    exact ⟨d, hmem, (mem_programsIn h (hd hmem)).mpr hprogram⟩

/-- Completion and resolution agree: a bare name is offered for all its starts if it has a builtin
or is found along the search path, and for none of them otherwise. -/
theorem offered_iff_runnable (c : Completer) (fs : FileSystem) (directory : Location)
    {name : String} (h : IsBareName name) :
    ((∀ text, text ≠ "" → text.toList <+: name.toList → name ∈ c.offered fs directory text) ↔
        c.CanRun fs directory name) ∧
      ∀ text, text ≠ "" → text.toList <+: name.toList →
        (name ∈ c.offered fs directory text ↔ c.CanRun fs directory name) := by
  have hstart {text : String} (ht : text.toList <+: name.toList) :
      name ∈ c.offered fs directory text ↔ c.CanRun fs directory name := by
    rw [mem_offered, mem_names_iff h, and_iff_right ht]
  refine ⟨⟨?_, ?_⟩, fun text _ ht => hstart ht⟩
  · intro hall
    exact (hstart (List.prefix_refl _)).mp (hall name h.ne_empty (List.prefix_refl _))
  · intro hrun text _ ht
    exact (hstart ht).mpr hrun

/-- A link to a program, in a directory that stands twice on the search path behind an empty
entry. -/
theorem offered_iff_runnable_link :
    let fs := ((FileSystem.empty.put ["bin"] .directory).put ["bin", "tool"] (.link "run")).put
      ["bin", "run"] (.file 0o755 [])
    let c : Completer := ⟨.default, ":/bin/:/bin"⟩
    IsBareName "tool" ∧ locate fs [] c.searchPath "tool" = some "/bin/tool" ∧
      "tool" ∈ c.offered fs [] "to" := by
  intro fs c
  have htool : IsBareName "tool" := ⟨by decide, by decide, by decide, by decide⟩
  have hlink : Route.ofPath "run" = ⟨false, ["run"], false⟩ := by decide
  have hprogram : fs.isProgram [] "/bin/tool" = true := by
    refine FileSystem.isProgram_eq_true_iff.mpr ⟨["bin", "run"], ?_, by decide⟩
    rw [FileSystem.follow_eq_walk ⟨by decide, by decide, by decide⟩]
    refine FileSystem.walk_of_leads (.through (n := .directory) rfl (by decide) (by decide)
      (by decide) (by decide) rfl (by simp) (.link rfl (by decide) (by decide)
        (by decide) (by decide) rfl (by decide) ?_))
    rw [hlink]
    exact .through (n := .file 0o755 []) rfl (by decide) (by decide) (by decide) (by decide) rfl
      (by simp) (.here (by decide))
  have hdirectories : searchDirectories c.searchPath = ["/bin/", "/bin"] := by decide
  have hjoin : Path.join "/bin/" "tool" = "/bin/tool" := by decide
  have hfound : locate fs [] c.searchPath "tool" = some "/bin/tool" := by
    simp only [locate, htool.searchName?_eq, findProgram?, hdirectories, List.map_cons, hjoin,
      List.find?_cons, hprogram]
  refine ⟨htool, hfound, ?_⟩
  exact ((offered_iff_runnable c fs [] htool).2 "to" (by decide) (by decide)).mpr
    (.inr (by rw [hfound]; rfl))

end Completer

end CommandShell
