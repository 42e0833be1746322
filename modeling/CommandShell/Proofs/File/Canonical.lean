import CommandShell.Proofs.History
import CommandShell.Proofs.Resolution
import Mathlib.Data.List.Induction

/-!
# Canonical locations

A location is canonical if it is a directory and so is everything on the way to it, by names that
can stand in a path. Canonical paths lead to canonical locations, and a canonical location remains
one as long as no directory goes.
-/

namespace CommandShell

/-- The names along a path are not empty and hold no slashes. -/
theorem Route.of_mem_names {path name : String} (h : name ∈ (Route.ofPath path).names) :
    name ≠ "" ∧ '/' ∉ name.toList := by
  obtain ⟨hsplit, hne⟩ := List.mem_filter.mp h
  obtain ⟨part, hpart, rfl⟩ := List.mem_map.mp hsplit
  refine ⟨by simpa using hne, ?_⟩
  rw [String.toList_ofList]
  exact History.not_mem_of_mem_splitOn hpart

namespace FileSystem

variable {fs fs' : FileSystem} {l m here : Location} {name : String} {names more : List String}
  {links : Nat} {slash : Bool} {path : String}

/-- Whether no directory of a file system is gone in another. -/
def KeepsDirectories (fs fs' : FileSystem) : Prop :=
  ∀ l, fs.isDirectory l = true → fs'.isDirectory l = true

theorem Alike.keepsDirectories (h : fs.Alike fs') : fs.KeepsDirectories fs' :=
  fun l hl => h.isDirectory_eq l ▸ hl

/-- Whether a location and all on the way to it are directories, by names that can stand in a
path. -/
structure IsCanonical (fs : FileSystem) (l : Location) : Prop where
  isBareName : ∀ name ∈ l, IsBareName name
  isDirectory : ∀ m, m <+: l → fs.isDirectory m = true

/-- The root is always there. -/
theorem isCanonical_nil (fs : FileSystem) : fs.IsCanonical [] := by
  refine ⟨by simp, ?_⟩
  intro m hm
  rw [List.prefix_nil.mp hm]
  simp [FileSystem.isDirectory, get?]

theorem IsCanonical.of_prefix (h : fs.IsCanonical l) (hm : m <+: l) : fs.IsCanonical m :=
  ⟨fun name hname => h.isBareName name (hm.mem hname), fun n hn => h.isDirectory n (hn.trans hm)⟩

theorem IsCanonical.concat (h : fs.IsCanonical l) (hname : IsBareName name)
    (hd : fs.isDirectory (l ++ [name]) = true) : fs.IsCanonical (l ++ [name]) := by
  constructor
  · intro other hother
    rcases List.mem_append.mp hother with hother | hother
    · exact h.isBareName other hother
    · rwa [List.mem_singleton.mp hother]
  · intro m hm
    rcases List.prefix_concat_iff.mp hm with rfl | hm
    · exact hd
    · exact h.isDirectory m hm

theorem IsCanonical.keep (h : fs.IsCanonical l) (hkeeps : fs.KeepsDirectories fs') :
    fs'.IsCanonical l :=
  ⟨h.isBareName, fun m hm => hkeeps m (h.isDirectory m hm)⟩

/-! ## Following canonical paths -/

/-- Names that lead to a directory start from a directory. -/
theorem isDirectory_of_walkByPath (h : fs.walkByPath links here names slash = .ok l)
    (hl : fs.isDirectory l = true) : fs.isDirectory here = true := by
  rcases names with _ | ⟨name, rest⟩
  · rw [walkByPath] at h
    split at h
    · cases h
    · cases h
      exact hl
  · rcases hhere : fs.isDirectory here with _ | _
    · rw [walkByPath_cons] at h
      simp only [hhere, Bool.not_false, Bool.false_eq_true, ↓reduceIte] at h
      split at h
      · cases h
      · split at h <;> cases h
    · rfl

/-- Names that lead from a canonical location to a directory lead to a canonical location. -/
theorem isCanonical_of_walkByPath (h : fs.walkByPath links here names slash = .ok l)
    (hl : fs.isDirectory l = true) (hhere : fs.IsCanonical here)
    (hnames : ∀ name ∈ names, name ≠ "" ∧ '/' ∉ name.toList) : fs.IsCanonical l := by
  -- Along the walk, the location that it has come to is canonical: what is left of the names leads from
  -- it to a directory, so it is one itself.
  fun_induction fs.walkByPath links here names slash with
  | case2 links here slash hs =>
    cases h
    exact hhere
  | case3 links here slash name rest hdots hd ih =>
    rw [List.forall_mem_cons] at hnames
    refine ih h ?_ hnames.2
    -- The dots stay, or go to the directory above.
    split
    · exact hhere
    · exact hhere.of_prefix (List.dropLast_prefix here)
  | case10 here slash name rest hdots hlong hd hlen path links hget route ih =>
    rw [List.forall_mem_cons] at hnames
    -- The path of the link comes before the rest, from the root or from here.
    refine ih h ?_ (List.forall_mem_append.mpr ⟨fun _ => Route.of_mem_names, hnames.2⟩)
    split
    · exact isCanonical_nil fs
    · exact hhere
  | case11 here slash name rest hdots hlong hd hlen n links hno hno' hget ih =>
    rw [List.forall_mem_cons] at hnames
    obtain ⟨⟨hempty, hslash⟩, hrest⟩ := hnames
    simp only [Bool.or_eq_true, decide_eq_true_eq, not_or] at hdots
    have hname : IsBareName name := ⟨hempty, hslash, hdots.1, hdots.2⟩
    exact ih h (hhere.concat hname (isDirectory_of_walkByPath h hl)) hrest
  | _ => cases h

/-- Names that lead to a directory lead there also as names that have to. -/
theorem walkByPath_slash (hw : fs.walkByPath links here names slash = .ok l)
    (hl : fs.isDirectory l = true) (slash' : Bool) :
    fs.walkByPath links here names slash' = .ok l := by
  fun_induction fs.walkByPath links here names slash generalizing slash' with
  | case2 links here slash hs =>
    cases hw
    simp [walkByPath, hl]
  | case3 links here slash name rest hdots hd ih =>
    rw [walkByPath_cons, if_pos hdots, if_pos hd]
    exact ih hw slash'
  | case10 here slash name rest hdots hlong hd hlen path links hget route ih =>
    rw [walkByPath_cons, if_neg hdots, if_neg hlong, if_neg hd, if_neg hlen, hget]
    exact ih hw _
  | case11 here slash name rest hdots hlong hd hlen n links hno hno' hget ih =>
    have hdir := isDirectory_of_walkByPath hw hl
    rw [isDirectory, decide_eq_true_iff] at hdir
    rw [walkByPath_cons, if_neg hdots, if_neg hlong, if_neg hd, if_neg hlen, hdir]
    exact ih hw slash'
  | _ => cases hw

/-- Names that lead to a directory lead on from a directory that the first of them lead to. -/
theorem walkByPath_append {slash' : Bool}
    (hw : fs.walkByPath links here (names ++ more) slash' = .ok l) (hl : fs.isDirectory l = true)
    (slash : Bool) :
    ∃ m links', fs.walkByPath links here names slash = .ok m ∧ fs.isDirectory m = true ∧
      fs.walkByPath links' m more slash' = .ok l := by
  fun_induction fs.walkByPath links here names slash generalizing slash' with
  | case1 links here slash hs => simp [isDirectory_of_walkByPath hw hl] at hs
  | case2 links here slash hs => exact ⟨here, links, rfl, isDirectory_of_walkByPath hw hl, hw⟩
  | case3 links here slash name rest hdots hd ih =>
    rw [List.cons_append, walkByPath_cons, if_pos hdots, if_pos hd] at hw
    exact ih hw
  | case10 here slash name rest hdots hlong hd hlen path links hget route =>
    rename_i ih
    rw [List.cons_append, walkByPath_cons, if_neg hdots, if_neg hlong, if_neg hd, if_neg hlen,
      hget] at hw
    simp only [← List.append_assoc] at hw
    obtain ⟨m, links', hfirst, hm, hrest⟩ := ih hw
    exact ⟨m, links', hfirst, hm, walkByPath_slash hrest hl slash'⟩
  | case11 here slash name rest hdots hlong hd hlen n links hno hno' hget ih =>
    rw [List.cons_append, walkByPath_cons, if_neg hdots, if_neg hlong, if_neg hd, if_neg hlen,
      hget] at hw
    cases n with
    | link path =>
      cases links with
      | zero => exact (hno path rfl rfl).elim
      | succ links => exact (hno' path links rfl rfl).elim
    | file | directory | device | tool => exact ih hw
  | _ => simp only [List.cons_append, walkByPath_cons, *, ↓reduceIte, reduceCtorEq] at hw

/-- Names lead down, past dots that stay, if they go nowhere up and past no link. -/
theorem walkByPath_down (hw : fs.walkByPath links here names slash = .ok l) (hup : ".." ∉ names)
    (hlinks : ∀ p, p <+: names.filter (· ≠ ".") →
      ∀ target, fs.get? (here ++ p) ≠ some (.link target)) :
    l = here ++ names.filter (· ≠ ".") := by
  fun_induction fs.walkByPath links here names slash with
  | case2 links here slash hs =>
    cases hw
    simp
  | case3 links here slash name rest hdots hd ih =>
    rw [List.mem_cons, not_or] at hup
    obtain rfl : name = "." := by simpa [Ne.symm hup.1] using hdots
    rw [List.filter_cons_of_neg (by simp)] at hlinks ⊢
    exact ih hw hup.2 hlinks
  | case10 here slash name rest hdots hlong hd hlen path links hget route ih =>
    simp only [Bool.or_eq_true, decide_eq_true_eq, not_or] at hdots
    refine absurd hget (hlinks [name] ?_ path)
    rw [List.filter_cons_of_pos (by simpa using hdots.1)]
    simp
  | case11 here slash name rest hdots hlong hd hlen n links hno hno' hget ih =>
    simp only [Bool.or_eq_true, decide_eq_true_eq, not_or] at hdots
    rw [List.mem_cons, not_or] at hup
    rw [List.filter_cons_of_pos (by simpa using hdots.1)] at hlinks ⊢
    have hrest := ih hw hup.2 fun p hp target => by
      rw [List.append_assoc]
      exact hlinks (name :: p) (by simpa using hp) target
    rw [hrest, List.append_assoc, List.singleton_append]
  | _ => cases hw

/-- A path is one of a directory if it is a path at all and its names lead to a directory. -/
theorem canonicalDirectory_eq_ok_iff :
    fs.canonicalDirectory path = .ok l ↔ Text.hasNul path = false ∧ path ≠ "" ∧
      fs.walkByPath maxLinks [] (Route.ofPath path).names (Route.ofPath path).slash = .ok l ∧
      fs.isDirectory l = true := by
  rw [canonicalDirectory]
  rcases Text.hasNul path with _ | _
  · by_cases hempty : path = ""
    · simp [hempty, bind, Except.bind, throw, throwThe, MonadExceptOf.throw]
    · rcases hw : fs.walkByPath maxLinks [] (Route.ofPath path).names (Route.ofPath path).slash
        with e | m
      · simp [hempty, hw, bind, Except.bind]
      · simp only [Bool.false_eq_true, ↓reduceIte, hempty, hw, bind, Except.bind, Except.ok.injEq,
          ne_eq, not_false_eq_true, true_and]
        -- Where the walk ends, the location is looked at, and it has to be a directory.
        constructor
        · intro h
          split at h
          · next hd =>
            cases h
            exact ⟨rfl, hd⟩
          · cases h
        · rintro ⟨rfl, hd⟩
          rw [if_pos hd]
  · simp [bind, Except.bind, throw, throwThe, MonadExceptOf.throw]

/-- Which directory a path is one of depends on its names, on whether it ends in a slash, and on
whether it is a path at all. -/
theorem canonicalDirectory_congr {path' : String} (hnul : Text.hasNul path = Text.hasNul path')
    (hne : path ≠ "") (hne' : path' ≠ "")
    (hnames : (Route.ofPath path).names = (Route.ofPath path').names)
    (hslash : (Route.ofPath path).slash = (Route.ofPath path').slash) :
    fs.canonicalDirectory path = fs.canonicalDirectory path' := by
  simp only [canonicalDirectory, hnul, if_neg hne, if_neg hne', hnames, hslash]

/-- A path of a directory is one of a canonical location. -/
theorem isCanonical_of_canonicalDirectory (h : fs.canonicalDirectory path = .ok l) :
    fs.IsCanonical l := by
  obtain ⟨-, -, hwalk, hl⟩ := canonicalDirectory_eq_ok_iff.mp h
  exact isCanonical_of_walkByPath hwalk hl (isCanonical_nil fs) fun _ => Route.of_mem_names

/-- Names that lead to a directory lead there in a file system that is alike. -/
theorem Alike.walkByPath_ok (h : fs.Alike fs') (hw : fs.walkByPath links here names slash = .ok l)
    (hl : fs.isDirectory l = true) : fs'.walkByPath links here names slash = .ok l := by
  have hd' := h.isDirectory_eq
  fun_induction fs.walkByPath links here names slash with
  | case2 links here slash hs =>
    rw [walkByPath, ← hd', if_neg hs]
    exact hw
  | case3 links here slash name rest hdots hd ih =>
    rw [walkByPath_cons, if_pos hdots, ← hd', if_pos hd]
    exact ih hw
  | case10 here slash name rest hdots hlong hd hlen path links hget route ih =>
    have hget' := (h.get?_eq (isPlain_of_link hget)).symm.trans hget
    rw [walkByPath_cons, if_neg hdots, if_neg hlong, ← hd', if_neg hd, if_neg hlen, hget']
    exact ih hw
  | case11 here slash name rest hdots hlong hd hlen n links hno hno' hget ih =>
    -- The walk goes on behind the name or ends there, so a directory stands there.
    have hdir := isDirectory_of_walkByPath hw hl
    have hdir' := (hd' (here ++ [name])).symm.trans hdir
    rw [isDirectory, decide_eq_true_iff] at hdir'
    rw [walkByPath_cons, if_neg hdots, if_neg hlong, ← hd', if_neg hd, if_neg hlen, hdir']
    exact ih hw
  | _ => cases hw

/-- A path of a directory is one of the same in a file system that is alike. -/
theorem Alike.canonicalDirectory_ok (h : fs.Alike fs') (hc : fs.canonicalDirectory path = .ok l) :
    fs'.canonicalDirectory path = .ok l := by
  obtain ⟨hnul, hempty, hwalk, hl⟩ := canonicalDirectory_eq_ok_iff.mp hc
  exact canonicalDirectory_eq_ok_iff.mpr
    ⟨hnul, hempty, h.walkByPath_ok hwalk hl, h.isDirectory_eq l ▸ hl⟩

/-- Which directory a path is one of, if it is, is the same in file systems that are alike. -/
theorem Alike.toOption_canonicalDirectory (h : fs.Alike fs') (path : String) :
    (fs.canonicalDirectory path).toOption = (fs'.canonicalDirectory path).toOption := by
  rcases hc : fs.canonicalDirectory path with e | l
  · rcases hc' : fs'.canonicalDirectory path with e' | l
    · rfl
    · rw [h.symm.canonicalDirectory_ok hc'] at hc
      cases hc
  · rw [h.canonicalDirectory_ok hc]

end FileSystem

end CommandShell
