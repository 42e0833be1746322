import CommandShell.Proofs.File.Walk

/-!
# Names

What a path says is decided by the names between its slashes. Here is what they come to for a path
as seen from a directory, `Path.join d path`, and in particular for a name that has no slash itself.
-/

namespace CommandShell

/-! ## Paths as seen from a directory -/

/-- A path from the root stands for itself. -/
theorem Path.join_of_isAbsolute {path : String} (h : isAbsolute path = true) (d : String) :
    join d path = path := by
  rw [join, if_pos (.inl h)]

theorem Path.isAbsolute_append {d : String} (h : isAbsolute d = true) (path : String) :
    isAbsolute (d ++ path) = true := by
  rw [isAbsolute, decide_eq_true_iff] at h ⊢
  rw [String.toList_append, List.head?_append, h, Option.some_or]

/-- A path as seen from a directory that is given from the root is one from the root. -/
theorem Path.isAbsolute_join {d : String} (h : isAbsolute d = true) (path : String) :
    isAbsolute (join d path) = true := by
  have hd : d ≠ "" := by
    rintro rfl
    cases h
  rcases hpath : isAbsolute path with _ | _
  · rw [join, if_neg (by simp [hpath, hd])]
    split
    · exact isAbsolute_append h path
    · exact isAbsolute_append (isAbsolute_append h "/") path
  · rwa [join_of_isAbsolute hpath]

/-- Another path has one slash in front of it, be it that of the directory. -/
theorem Path.exists_join_eq {d path : String} (h : isAbsolute path = false) (hd : d ≠ "") :
    ∃ base, join d path = base ++ "/" ++ path ∧ (d = base ∨ d = base ++ "/") := by
  rw [join, if_neg (by simp [h, hd])]
  split
  · next hslash =>
    obtain ⟨base, hbase⟩ := List.getLast?_eq_some_iff.mp hslash
    have hsplit : d = String.ofList base ++ "/" := by
      apply String.toList_injective
      simpa using hbase
    exact ⟨String.ofList base, by rw [← hsplit], .inr hsplit⟩
  · exact ⟨d, rfl, .inl rfl⟩

namespace Route

/-- The names before a slash come before those behind it. -/
theorem names_slash (before after : String) :
    (ofPath (before ++ "/" ++ after)).names = (ofPath before).names ++ (ofPath after).names := by
  have hsplit : Text.splitOn '/' (before ++ "/" ++ after) =
      Text.splitOn '/' before ++ Text.splitOn '/' after := by
    have hlist : (before ++ "/" ++ after).toList = before.toList ++ '/' :: after.toList := by simp
    rw [Text.splitOn, hlist, List.splitOn_append_cons_self, List.map_append]
    rfl
  simp only [ofPath, hsplit, List.filter_append]

/-- A slash at the end of a path adds no name. -/
theorem names_slash_end (path : String) : (ofPath (path ++ "/")).names = (ofPath path).names := by
  have h := names_slash path ""
  rwa [String.append_empty, show (ofPath "").names = [] by decide, List.append_nil] at h

/-- A path ends in a slash if what is behind one of its slashes does. -/
theorem slash_slash (before after : String) :
    (ofPath (before ++ "/" ++ after)).slash = (decide (after = "") || (ofPath after).slash) := by
  by_cases h : after = ""
  · simp [ofPath, h]
  · obtain ⟨init, c, hc⟩ := (List.eq_nil_or_concat after.toList).resolve_left (by simpa using h)
    have hlast : (before ++ "/" ++ after).toList = (before.toList ++ '/' :: init) ++ [c] := by
      simp [hc]
    rw [ofPath, ofPath, hlast, hc, List.concat_eq_append, List.getLast?_concat, List.getLast?_concat,
      decide_eq_false h, Bool.false_or]

/-- A path goes along the names of the directory that it is seen from, and then along its own. -/
theorem names_join {d path : String} (h : Path.isAbsolute path = false) (hd : d ≠ "") :
    (ofPath (Path.join d path)).names = (ofPath d).names ++ (ofPath path).names := by
  obtain ⟨base, hjoin, rfl | rfl⟩ := Path.exists_join_eq h hd
  · rw [hjoin, names_slash]
  · rw [hjoin, names_slash, names_slash_end]

end Route

/-! ## Names in a directory -/

/-- A text that can be one name of a path. -/
structure IsName (name : String) : Prop where
  ne_empty : name ≠ ""
  not_mem_slash : '/' ∉ name.toList

namespace IsName

variable {d name : String}

/-- A name is the only one along itself. -/
theorem splitOn_eq (h : IsName name) : Text.splitOn '/' name = [name] := by
  rw [Text.splitOn, List.splitOn_eq_singleton h.not_mem_slash, List.map_singleton,
    String.ofList_toList]

/-- A name is no path from the root. -/
theorem isAbsolute_eq (h : IsName name) : Path.isAbsolute name = false := by
  rw [Path.isAbsolute, decide_eq_false_iff_not]
  intro hhead
  exact h.not_mem_slash (List.mem_of_head? hhead)

/-- A name is looked for along the search path, unless it is the dot. -/
theorem searchName?_eq (h : IsName name) :
    Path.searchName? name = if name = "." then none else some name := by
  simp [Path.searchName?, Path.components, h.isAbsolute_eq, h.splitOn_eq, h.ne_empty]

/-- A path into a directory starts with the path of the directory. -/
theorem exists_join_eq (h : IsName name) (hd : d ≠ "") :
    ∃ rest, Path.join d name = d ++ rest := by
  rw [Path.join, if_neg (by simp [h.isAbsolute_eq, hd])]
  split
  · exact ⟨name, rfl⟩
  · exact ⟨"/" ++ name, String.append_assoc⟩

/-- A path into a directory has one slash in front of the name, be it that of the directory. -/
theorem exists_toList_join (h : IsName name) (hd : d ≠ "") :
    ∃ base, (Path.join d name).toList = base ++ '/' :: name.toList ∧
      (d.toList = base ∨ d.toList = base ++ ['/']) := by
  obtain ⟨base, hjoin, hbase⟩ := Path.exists_join_eq h.isAbsolute_eq hd
  refine ⟨base.toList, by simp [hjoin], ?_⟩
  obtain rfl | rfl := hbase
  · exact .inl rfl
  · exact .inr (by simp)

/-- A path into a directory goes along the names of the directory and then to the name in it. -/
theorem ofPath_join (h : IsName name) (hd : d ≠ "") :
    Route.ofPath (Path.join d name) =
      ⟨(Route.ofPath d).absolute, (Route.ofPath d).names ++ [name], false⟩ := by
  have habsolute : (Route.ofPath (Path.join d name)).absolute = (Route.ofPath d).absolute := by
    obtain ⟨rest, hrest⟩ := h.exists_join_eq hd
    obtain ⟨c, cs, hcs⟩ := List.exists_cons_of_ne_nil (show d.toList ≠ [] by simpa using hd)
    simp [Route.ofPath, hrest, hcs]
  have hnames : (Route.ofPath (Path.join d name)).names = (Route.ofPath d).names ++ [name] := by
    rw [Route.names_join h.isAbsolute_eq hd]
    simp [Route.ofPath, h.splitOn_eq, h.ne_empty]
  have hslash : (Route.ofPath (Path.join d name)).slash = false := by
    obtain ⟨base, hjoin, -⟩ := Path.exists_join_eq h.isAbsolute_eq hd
    rw [hjoin, Route.slash_slash, decide_eq_false h.ne_empty, Bool.false_or, Route.ofPath,
      decide_eq_false_iff_not]
    exact fun hlast => h.not_mem_slash (List.mem_of_getLast? hlast)
  rw [← habsolute, ← hnames, ← hslash]

/-- A path into a directory can be followed only if the path of the directory can. -/
theorem isPath_of_join (h : IsName name) (hd : d ≠ "")
    (hp : FileSystem.IsPath (Path.join d name)) : FileSystem.IsPath d := by
  obtain ⟨rest, hrest⟩ := h.exists_join_eq hd
  rw [hrest] at hp
  obtain ⟨hnul, -, hlong⟩ := hp
  refine ⟨?_, hd, ?_⟩
  · simp only [Text.hasNul, String.toList_append, List.contains_append,
      Bool.or_eq_false_iff] at hnul
    exact hnul.1
  · rw [String.utf8ByteSize_append] at hlong
    omega

end IsName

end CommandShell
