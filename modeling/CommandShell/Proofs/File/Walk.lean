import CommandShell.File.Lookup

/-!
# What paths depend on

Following a path, one looks at directories and links until one meets a regular file or nothing at
all: `reach` says where. File systems that are alike have the same directories and links. A path
means the same on both if what it reaches is the same on both.
-/

namespace CommandShell.FileSystem

variable {fs fs' : FileSystem}

/-! ## Plain locations -/

/-- Whether a regular file with contents stands at a location, or nothing. -/
def isPlain (fs : FileSystem) (l : Location) : Bool :=
  match fs.get? l with
  | none | some (.file ..) => true
  | _ => false

theorem isPlain_of_none {l : Location} (h : fs.get? l = none) : fs.isPlain l = true := by
  rw [isPlain, h]

theorem isPlain_of_file {l : Location} {mode : Nat} {content : Bytes}
    (h : fs.get? l = some (.file mode content)) : fs.isPlain l = true := by
  rw [isPlain, h]

theorem isPlain_of_link {l : Location} {path : String} (h : fs.get? l = some (.link path)) :
    fs.isPlain l = false := by
  rw [isPlain, h]

/-- What stands at a plain location, if anything does, is a regular file. -/
theorem eq_file_of_isPlain {l : Location} {n : Node} (h : fs.isPlain l = true)
    (hn : fs.get? l = some n) : ∃ mode content, n = .file mode content := by
  rw [isPlain, hn] at h
  cases n <;> simp_all

theorem isDirectory_of_isPlain {l : Location} (h : fs.isPlain l = true) :
    fs.isDirectory l = false := by
  simp only [isDirectory, decide_eq_false_iff_not]
  intro hd
  obtain ⟨_, _, heq⟩ := eq_file_of_isPlain h hd
  cases heq

/-- A plain location is not the root. -/
theorem ne_nil_of_isPlain {l : Location} (h : fs.isPlain l = true) : l ≠ [] := by
  rintro rfl
  simp [isPlain, get?] at h

/-- Whether two file systems differ at most in regular files and in where there are any. -/
def Alike (fs fs' : FileSystem) : Prop :=
  ∀ l, fs.get? l = fs'.get? l ∨ (fs.isPlain l = true ∧ fs'.isPlain l = true)

theorem Alike.refl (fs : FileSystem) : fs.Alike fs := fun _ => .inl rfl

theorem Alike.symm (h : fs.Alike fs') : fs'.Alike fs :=
  fun l => (h l).imp Eq.symm And.symm

theorem Alike.isDirectory_eq (h : fs.Alike fs') (l : Location) :
    fs.isDirectory l = fs'.isDirectory l := by
  rcases h l with heq | ⟨h₁, h₂⟩
  · simp only [isDirectory, heq]
  · rw [isDirectory_of_isPlain h₁, isDirectory_of_isPlain h₂]

theorem Alike.isPlain_eq (h : fs.Alike fs') (l : Location) : fs.isPlain l = fs'.isPlain l := by
  rcases h l with heq | ⟨h₁, h₂⟩
  · simp only [isPlain, heq]
  · rw [h₁, h₂]

/-- Locations that are not plain hold the same. -/
theorem Alike.get?_eq (h : fs.Alike fs') {l : Location} (hl : fs.isPlain l = false) :
    fs.get? l = fs'.get? l := by
  rcases h l with heq | ⟨h₁, -⟩
  · exact heq
  · simp [hl] at h₁

theorem Alike.trans {fs'' : FileSystem} (h : fs.Alike fs') (h' : fs'.Alike fs'') :
    fs.Alike fs'' := by
  intro l
  rcases hl : fs.isPlain l with _ | _
  · exact .inl ((h.get?_eq hl).trans (h'.get?_eq (h.isPlain_eq l ▸ hl)))
  · exact .inr ⟨rfl, by rw [← h'.isPlain_eq, ← h.isPlain_eq, hl]⟩

/-- A file put in a plain place makes a file system that is alike. -/
theorem alike_put {l : Location} (hl : fs.isPlain l = true) (mode : Nat) (content : Bytes) :
    fs.Alike (fs.put l (.file mode content)) := by
  intro m
  by_cases hm : m = l
  · subst hm
    exact .inr ⟨hl, isPlain_of_file (by rw [get?_put fs (ne_nil_of_isPlain hl), if_pos rfl])⟩
  · exact .inl (by rw [get?_put fs (ne_nil_of_isPlain hl), if_neg hm])

/-! ## One name of a path -/

/-- Following a path takes its first name, whatever the number of links left. -/
theorem walk_cons (fs : FileSystem) (creating : Bool) (links : Nat) (here : Location)
    (name : String) (rest : List String) (slash : Bool) :
    fs.walk creating links here (name :: rest) slash =
      if !fs.isDirectory here then .error .notDirectory
      else if creating && rest.isEmpty && slash then .error .isDirectory
      else if name = "." then fs.walk creating links here rest slash
      else if name = ".." then fs.walk creating links here.dropLast rest slash
      else if maxNameLength < name.utf8ByteSize then .error .nameTooLong
      else
        match fs.get? (here ++ [name]), links with
        | none, _ => if creating && rest.isEmpty then .ok (here ++ [name]) else .error .noEntry
        | some (.link _), 0 => .error .linkLoop
        | some (.link path), links + 1 =>
          if path = "" then .error .noEntry
          else
            let route := Route.ofPath path
            fs.walk creating links (if route.absolute then [] else here) (route.names ++ rest)
              (slash || (rest.isEmpty && route.slash))
        | some _, links => fs.walk creating links (here ++ [name]) rest slash := by
  refine (walk.eq_def ..).trans ?_
  rfl

/-- Following a path by canonical paths takes its first name. -/
theorem walkByPath_cons (fs : FileSystem) (links : Nat) (here : Location) (name : String)
    (rest : List String) (slash : Bool) :
    fs.walkByPath links here (name :: rest) slash =
      if name = "." || name = ".." then
        if fs.isDirectory here then
          fs.walkByPath links (if name = "." then here else here.dropLast) rest slash
        else .error .notDirectory
      else if pathLimit ≤ (Location.path (here ++ [name])).utf8ByteSize then .error .nameTooLong
      else if !fs.isDirectory here then .error .notDirectory
      else if maxNameLength < name.utf8ByteSize then .error .nameTooLong
      else
        match fs.get? (here ++ [name]), links with
        | none, _ => .error .noEntry
        | some (.link _), 0 => .error .linkLoop
        | some (.link path), links + 1 =>
          let route := Route.ofPath path
          fs.walkByPath links (if route.absolute then [] else here) (route.names ++ rest)
            (slash || (rest.isEmpty && route.slash))
        | some _, links => fs.walkByPath links (here ++ [name]) rest slash := by
  refine (walkByPath.eq_def ..).trans ?_
  rfl

/-! ## Where a path leads -/

/-- The location that names lead to, from the location `here` and through at most the given number
of links, or else the first plain one on the way. -/
def reach (fs : FileSystem) (links : Nat) (here : Location) (names : List String) :
    Option Location :=
  match names with
  | [] => some here
  | name :: rest =>
    if name = "." then fs.reach links here rest
    else if name = ".." then fs.reach links here.dropLast rest
    else if fs.isPlain (here ++ [name]) then some (here ++ [name])
    else
      match fs.get? (here ++ [name]), links with
      | some (.link path), links + 1 =>
        let route := Route.ofPath path
        fs.reach links (if route.absolute then [] else here) (route.names ++ rest)
      | some (.link _), 0 => none
      | _, links => fs.reach links (here ++ [name]) rest
termination_by (links, names.length)

theorem reach_cons (fs : FileSystem) (links : Nat) (here : Location) (name : String)
    (rest : List String) :
    fs.reach links here (name :: rest) =
      if name = "." then fs.reach links here rest
      else if name = ".." then fs.reach links here.dropLast rest
      else if fs.isPlain (here ++ [name]) then some (here ++ [name])
      else
        match fs.get? (here ++ [name]), links with
        | some (.link path), links + 1 =>
          let route := Route.ofPath path
          fs.reach links (if route.absolute then [] else here) (route.names ++ rest)
        | some (.link _), 0 => none
        | _, links => fs.reach links (here ++ [name]) rest := by
  rw [reach.eq_def]

section

variable {links : Nat} {here : Location} {names : List String} {slash creating : Bool}

/-- File systems that are alike have the same directories and links on the way. -/
theorem Alike.reach_eq (h : fs.Alike fs') :
    fs.reach links here names = fs'.reach links here names := by
  have hp := h.isPlain_eq
  fun_induction fs.reach links here names with
  | case1 => simp [reach]
  | case2 links here rest ih => simp [reach_cons, ih]
  | case3 links here rest hdot ih => simp [reach_cons, ih]
  | case4 links here name rest hdot hdots hl => simp [reach_cons, hdot, hdots, hl, ← hp]
  | case5 here name rest hdot hdots hl path links hget route ih =>
    rw [h.get?_eq (by simpa using hl)] at hget
    simp only [reach_cons, hdot, hdots, hget, ← hp, hl, ↓reduceIte]
    exact ih
  | case6 here name rest hdot hdots hl path hget =>
    rw [h.get?_eq (by simpa using hl)] at hget
    simp [reach_cons, hdot, hdots, hget, ← hp, hl]
  | case7 here name rest hdot hdots hl links hlink hloop ih =>
    rw [reach_cons, if_neg hdot, if_neg hdots, ← hp, if_neg hl, ← h.get?_eq (by simpa using hl)]
    split
    · next heq => exact (hlink _ _ heq rfl).elim
    · next heq => exact (hloop _ heq rfl).elim
    · exact ih

/-- Behind a location that is no directory, no path goes on. -/
theorem walk_of_not_isDirectory (hl : fs.isDirectory here = false) :
    fs.walk creating links here names slash =
      if names = [] ∧ slash = false then .ok here else .error .notDirectory := by
  cases names with
  | nil => cases slash <;> simp [walk, hl]
  | cons name rest => simp [walk_cons, hl]

/-- What stands at a location that is neither plain nor a link, neither one to be followed while
some links are left nor one too many. -/
theorem exists_get?_of_not_isPlain {l : Location} (hl : ¬fs.isPlain l = true)
    (hlink : ∀ path more, fs.get? l = some (.link path) → links = more + 1 → False)
    (hloop : ∀ path, fs.get? l = some (.link path) → links = 0 → False) :
    fs.get? l = some .directory ∨ (∃ d, fs.get? l = some (.device d)) ∨
      ∃ t, fs.get? l = some (.tool t) := by
  rcases hget : fs.get? l with _ | n
  · exact absurd (isPlain_of_none hget) hl
  cases n with
  | directory => exact .inl rfl
  | file mode content => exact absurd (isPlain_of_file hget) hl
  | link path =>
    cases links with
    | zero => exact (hloop path hget rfl).elim
    | succ more => exact (hlink path more hget rfl).elim
  | device d => exact .inr (.inl ⟨d, rfl⟩)
  | tool t => exact .inr (.inr ⟨t, rfl⟩)

/-- What a path reaches decides where it leads. -/
theorem Alike.walk_eq (h : fs.Alike fs')
    (hr : ∀ l ∈ fs.reach links here names, fs.get? l = fs'.get? l) :
    fs.walk creating links here names slash = fs'.walk creating links here names slash := by
  have hd := h.isDirectory_eq
  fun_induction fs.reach links here names generalizing slash with
  | case1 links here => simp [walk, hd]
  | case2 links here rest ih => simp [walk_cons, hd, ih hr]
  | case3 links here rest hdot ih => simp [walk_cons, hd, ih hr]
  | case4 links here name rest hdot hdots hl =>
    -- A plain place is reached, and no path goes on behind it.
    have hl' : fs'.isPlain (here ++ [name]) = true := by rw [← h.isPlain_eq, hl]
    have hget := hr _ rfl
    simp only [walk_cons, hd, hget, walk_of_not_isDirectory (isDirectory_of_isPlain hl),
      walk_of_not_isDirectory (isDirectory_of_isPlain hl')]
    rcases hget' : fs'.get? (here ++ [name]) with _ | n
    · simp [hdot, hdots]
    · obtain ⟨mode, content, rfl⟩ := eq_file_of_isPlain hl' hget'
      simp [hdot, hdots]
  | case5 here name rest hdot hdots hl path links hget route =>
    rename_i ih
    have hget' := (h.get?_eq (by simpa using hl)).symm.trans hget
    simp only [dite_eq_ite] at ih
    simp only [walk_cons, hd, hdot, hdots, hget, hget', ↓reduceIte]
    rw [ih hr]
  | case6 here name rest hdot hdots hl path hget =>
    have hget' := (h.get?_eq (by simpa using hl)).symm.trans hget
    simp [walk_cons, hd, hdot, hdots, hget, hget']
  | case7 here name rest hdot hdots hl links hlink hloop ih =>
    have hget := h.get?_eq (by simpa using hl)
    simp only [walk_cons, hd, ← hget]
    rcases exists_get?_of_not_isPlain hl hlink hloop with heq | ⟨d, heq⟩ | ⟨t, heq⟩ <;>
      simp [hdot, hdots, heq, ih hr]

/-- Behind a location that is no directory, no path goes on by canonical paths. -/
theorem walkByPath_of_not_isDirectory (hl : fs.isDirectory here = false)
    (hl' : fs'.isDirectory here = false) (links : Nat) (names : List String) (slash : Bool) :
    fs.walkByPath links here names slash = fs'.walkByPath links here names slash := by
  cases names with
  | nil => simp [walkByPath, hl, hl']
  | cons name rest => simp [walkByPath_cons, hl, hl']

/-- What a path reaches decides where it leads by canonical paths. -/
theorem Alike.walkByPath_eq (h : fs.Alike fs')
    (hr : ∀ l ∈ fs.reach links here names, fs.get? l = fs'.get? l) :
    fs.walkByPath links here names slash = fs'.walkByPath links here names slash := by
  have hd := h.isDirectory_eq
  fun_induction fs.reach links here names generalizing slash with
  | case1 links here => simp [walkByPath, hd]
  | case2 links here rest ih => simp [walkByPath_cons, hd, ih hr]
  | case3 links here rest hdot ih => simp [walkByPath_cons, hd, ih hr]
  | case4 links here name rest hdot hdots hl =>
    have hl' : fs'.isPlain (here ++ [name]) = true := by rw [← h.isPlain_eq, hl]
    have hget := hr _ rfl
    have hstop := walkByPath_of_not_isDirectory (isDirectory_of_isPlain hl)
      (isDirectory_of_isPlain hl') links rest slash
    simp only [walkByPath_cons, hd, hget]
    rcases hget' : fs'.get? (here ++ [name]) with _ | n
    · simp [hdot, hdots]
    · obtain ⟨mode, content, rfl⟩ := eq_file_of_isPlain hl' hget'
      simp [hdot, hdots, hstop]
  | case5 here name rest hdot hdots hl path links hget route =>
    rename_i ih
    have hget' := (h.get?_eq (by simpa using hl)).symm.trans hget
    simp only [dite_eq_ite] at ih
    simp only [walkByPath_cons, hd, hget, hget']
    rw [ih hr]
    simp [hdot, hdots, route]
  | case6 here name rest hdot hdots hl path hget =>
    have hget' := (h.get?_eq (by simpa using hl)).symm.trans hget
    simp [walkByPath_cons, hd, hdot, hdots, hget, hget']
  | case7 here name rest hdot hdots hl links hlink hloop ih =>
    have hget := h.get?_eq (by simpa using hl)
    simp only [walkByPath_cons, hd, ← hget]
    rcases exists_get?_of_not_isPlain hl hlink hloop with heq | ⟨d, heq⟩ | ⟨t, heq⟩ <;>
      simp [hdot, hdots, heq, ih hr]

end

/-! ## Paths that lead somewhere -/

/-- How following names comes to a location, one rule for each kind of name. -/
inductive Leads (fs : FileSystem) (creating : Bool) :
    Nat → Location → List String → Bool → Location → Prop
  | here {links : Nat} {here : Location} {slash : Bool} :
      (slash = true → fs.isDirectory here = true) → Leads fs creating links here [] slash here
  | dot {links : Nat} {here l : Location} {rest : List String} {slash : Bool} :
      fs.isDirectory here = true → ¬(creating && rest.isEmpty && slash) = true →
        Leads fs creating links here rest slash l →
        Leads fs creating links here ("." :: rest) slash l
  | dots {links : Nat} {here l : Location} {rest : List String} {slash : Bool} :
      fs.isDirectory here = true → ¬(creating && rest.isEmpty && slash) = true →
        Leads fs creating links here.dropLast rest slash l →
        Leads fs creating links here (".." :: rest) slash l
  | new {links : Nat} {here : Location} {name : String} :
      creating = true → fs.isDirectory here = true → name ≠ "." → name ≠ ".." →
        ¬maxNameLength < name.utf8ByteSize → fs.get? (here ++ [name]) = none →
        Leads fs creating links here [name] false (here ++ [name])
  | link {links : Nat} {here l : Location} {name path : String} {rest : List String}
      {slash : Bool} :
      fs.isDirectory here = true → ¬(creating && rest.isEmpty && slash) = true → name ≠ "." →
        name ≠ ".." → ¬maxNameLength < name.utf8ByteSize →
        fs.get? (here ++ [name]) = some (.link path) → path ≠ "" →
        Leads fs creating links (if (Route.ofPath path).absolute then [] else here)
          ((Route.ofPath path).names ++ rest)
          (slash || (rest.isEmpty && (Route.ofPath path).slash)) l →
        Leads fs creating (links + 1) here (name :: rest) slash l
  | through {links : Nat} {here l : Location} {name : String} {rest : List String} {slash : Bool}
      {n : Node} :
      fs.isDirectory here = true → ¬(creating && rest.isEmpty && slash) = true → name ≠ "." →
        name ≠ ".." → ¬maxNameLength < name.utf8ByteSize → fs.get? (here ++ [name]) = some n →
        (∀ path, n ≠ .link path) → Leads fs creating links (here ++ [name]) rest slash l →
        Leads fs creating links here (name :: rest) slash l

section

variable {links : Nat} {here l : Location} {names : List String} {slash creating : Bool}

theorem leads_of_walk (h : fs.walk creating links here names slash = .ok l) :
    fs.Leads creating links here names slash l := by
  fun_induction fs.walk creating links here names slash with
  | case2 links here slash hs =>
    cases h
    exact .here (by simpa using hs)
  | case5 links here slash rest hd hc ih => exact .dot (by simpa using hd) hc (ih h)
  | case6 links here slash rest hd hc hdot ih => exact .dots (by simpa using hd) hc (ih h)
  | case8 links here slash name rest hd hc hdot hdots hlen hget hlast =>
    cases h
    simp only [Bool.and_eq_true, List.isEmpty_iff] at hlast
    obtain ⟨hcreating, rfl⟩ := hlast
    simp only [hcreating, List.isEmpty_nil, Bool.and_self, Bool.true_and, Bool.not_eq_true] at hc
    rw [hc]
    exact .new hcreating (by simpa using hd) hdot hdots hlen hget
  | case12 here slash name rest hd hc hdot hdots hlen path links hget hpath route ih =>
    exact .link (by simpa using hd) hc hdot hdots hlen hget hpath (ih h)
  | case13 here slash name rest hd hc hdot hdots hlen n links h0 h1 hget ih =>
    refine .through (by simpa using hd) hc hdot hdots hlen hget ?_ (ih h)
    intro path hn
    cases links with
    | zero => exact h0 path rfl hn
    | succ links => exact h1 path links rfl hn
  | _ => cases h

theorem walk_of_leads (h : fs.Leads creating links here names slash l) :
    fs.walk creating links here names slash = .ok l := by
  induction h with
  | here hs => 
    rw [walk, if_neg]
    simpa using hs
  | dot hd hc _ ih => simpa [walk_cons, hd, hc] using ih
  | dots hd hc _ ih => simpa [walk_cons, hd, hc] using ih
  | new hcr hd hdot hdots hlen hget => simp [walk_cons, hd, hcr, hdot, hdots, hlen, hget]
  | link hd hc hdot hdots hlen hget hpath _ ih =>
    simpa [walk_cons, hd, hc, hdot, hdots, hlen, hget, hpath] using ih
  | @through _ _ _ _ _ _ n hd hc hdot hdots hlen hget hn _ ih =>
    cases n with
    | link path => exact absurd rfl (hn path)
    | _ => simpa [walk_cons, hd, hc, hdot, hdots, hlen, hget] using ih

/-- A file that is there is the end of a path. -/
theorem walk_of_isPlain (hw : fs.walk creating links here names slash = .ok l)
    (hh : fs.isPlain here = true) : names = [] ∧ slash = false ∧ l = here := by
  rw [walk_of_not_isDirectory (isDirectory_of_isPlain hh)] at hw
  split at hw
  · next hend =>
    cases hw
    exact ⟨hend.1, hend.2, rfl⟩
  · cases hw

/-- A path that leads to a plain location reaches it. -/
theorem reach_of_walk (hw : fs.walk creating links here names slash = .ok l)
    (hl : fs.isPlain l = true) : fs.reach links here names = some l := by
  induction leads_of_walk hw with
  | here => rw [reach]
  | dot hd hc hrest ih => simpa [reach_cons] using ih (walk_of_leads hrest) hl
  | dots hd hc hrest ih => simpa [reach_cons] using ih (walk_of_leads hrest) hl
  | new hcr hd hdot hdots hlen hget => simp [reach_cons, hdot, hdots, hl]
  | link hd hc hdot hdots hlen hget hpath hrest ih =>
    have hplain := isPlain_of_link hget
    simpa [reach_cons, hdot, hdots, hget, hplain] using ih (walk_of_leads hrest) hl
  | @through links here l name rest slash n hd hc hdot hdots hlen hget hn hrest ih =>
    rcases hplain : fs.isPlain (here ++ [name]) with _ | _
    · have hreach := ih (walk_of_leads hrest) hl
      cases n with
      | link path => exact absurd rfl (hn path)
      | _ => simpa [reach_cons, hdot, hdots, hget, hplain] using hreach
    · obtain ⟨rfl, rfl, rfl⟩ := walk_of_isPlain (walk_of_leads hrest) hplain
      simp [reach_cons, hdot, hdots, hplain]

/-- Where a file can be created, one can be found if it is there. -/
theorem walk_false_of_walk_true (hw : fs.walk true links here names slash = .ok l) :
    fs.walk false links here names slash = .ok l ∨
      fs.walk false links here names slash = .error .noEntry ∧ fs.get? l = none := by
  induction leads_of_walk hw with
  | here hs =>
    left
    rw [walk, if_neg]
    simpa using hs
  | dot hd hc hrest ih => simpa [walk_cons, hd, hc] using ih (walk_of_leads hrest)
  | dots hd hc hrest ih => simpa [walk_cons, hd, hc] using ih (walk_of_leads hrest)
  | new hcr hd hdot hdots hlen hget => simp [walk_cons, hd, hdot, hdots, hlen, hget]
  | link hd hc hdot hdots hlen hget hpath hrest ih =>
    simpa [walk_cons, hd, hdot, hdots, hlen, hget, hpath] using ih (walk_of_leads hrest)
  | @through _ _ _ _ _ _ n hd hc hdot hdots hlen hget hn hrest ih =>
    cases n with
    | link path => exact absurd rfl (hn path)
    | _ => simpa [walk_cons, hd, hdot, hdots, hlen, hget] using ih (walk_of_leads hrest)

/-- A path that leads somewhere leads there in a file system that is alike, if something is there or
may be created. -/
theorem Alike.walk_ok (h : fs.Alike fs') (hl : creating = true ∨ (fs'.get? l).isSome)
    (hw : fs.walk creating links here names slash = .ok l) :
    fs'.walk creating links here names slash = .ok l := by
  have hd' := h.isDirectory_eq
  -- The last step to a plain place leads there whatever is there, as long as that counts.
  have hnew {links : Nat} {here : Location} {name : String} (hd : fs.isDirectory here = true)
      (hdot : name ≠ ".") (hdots : name ≠ "..") (hlen : ¬maxNameLength < name.utf8ByteSize)
      (hplain : fs.isPlain (here ++ [name]) = true)
      (hl : creating = true ∨ (fs'.get? (here ++ [name])).isSome) :
      fs'.walk creating links here [name] false = .ok (here ++ [name]) := by
    rw [h.isPlain_eq] at hplain
    rcases hget : fs'.get? (here ++ [name]) with _ | n
    · have hcr : creating = true := by simpa [hget] using hl
      simp [walk_cons, hcr, ← hd', hd, hdot, hdots, hlen, hget]
    · obtain ⟨mode, content, rfl⟩ := eq_file_of_isPlain hplain hget
      simp [walk_cons, ← hd', hd, hdot, hdots, hlen, hget, walk]
  induction leads_of_walk hw with
  | here hs =>
    rw [walk, if_neg]
    simpa [← hd'] using hs
  | dot hd hc hrest ih => simpa [walk_cons, ← hd', hd, hc] using ih hl (walk_of_leads hrest)
  | dots hd hc hrest ih => simpa [walk_cons, ← hd', hd, hc] using ih hl (walk_of_leads hrest)
  | new _ hd hdot hdots hlen hget => exact hnew hd hdot hdots hlen (isPlain_of_none hget) hl
  | link hd hc hdot hdots hlen hget hpath hrest ih =>
    have hw' := ih hl (walk_of_leads hrest)
    rw [h.get?_eq (isPlain_of_link hget)] at hget
    simpa [walk_cons, ← hd', hd, hc, hdot, hdots, hlen, hget, hpath] using hw'
  | @through links here l name rest slash n hd hc hdot hdots hlen hget hn hrest ih =>
    rcases hplain : fs.isPlain (here ++ [name]) with _ | _
    · have hw' := ih hl (walk_of_leads hrest)
      rw [h.get?_eq hplain] at hget
      cases n with
      | link path => exact absurd rfl (hn path)
      | _ => simpa [walk_cons, ← hd', hd, hc, hdot, hdots, hlen, hget] using hw'
    · obtain ⟨rfl, rfl, rfl⟩ := walk_of_isPlain (walk_of_leads hrest) hplain
      exact hnew hd hdot hdots hlen hplain hl

end

/-! ## Whole paths -/

/-- Whether a path can be followed at all, as far as the path itself goes. -/
structure IsPath (path : String) : Prop where
  not_hasNul : Text.hasNul path = false
  ne_empty : path ≠ ""
  not_tooLong : ¬pathLimit ≤ path.utf8ByteSize

theorem isPath_of_follow {creating : Bool} {directory l : Location} {path : String}
    (h : fs.follow creating directory path = .ok l) : IsPath path := by
  rw [follow] at h
  split at h
  · cases h
  next hnul =>
  split at h
  · cases h
  next hempty =>
  split at h
  · cases h
  next hlong => exact ⟨by simpa using hnul, hempty, hlong⟩

/-- A path that can be followed is walked from the root or from the directory. -/
theorem follow_eq_walk {path : String} (h : IsPath path) (creating : Bool) (directory : Location) :
    fs.follow creating directory path =
      fs.walk creating maxLinks (if (Route.ofPath path).absolute then [] else directory)
        (Route.ofPath path).names (Route.ofPath path).slash := by
  simp only [follow, h.not_hasNul, Bool.false_eq_true, ↓reduceIte, if_neg h.ne_empty,
    if_neg h.not_tooLong]

/-- A path under which a file can be created leads to the same place in a file system that is
alike. -/
theorem Alike.resolveNew_ok {directory l : Location} {path : String} (h : fs.Alike fs')
    (hl : fs.resolveNew directory path = .ok l) : fs'.resolveNew directory path = .ok l := by
  have hpath := isPath_of_follow hl
  rw [resolveNew, follow_eq_walk hpath] at hl ⊢
  exact h.walk_ok (.inl rfl) hl

/-- What a path leads to where a file can be created, if it is there. -/
theorem lookup_of_resolveNew {directory l : Location} {path : String}
    (hl : fs.resolveNew directory path = .ok l) :
    fs.lookup directory path = match fs.get? l with
      | some n => .ok n
      | none => .error .noEntry := by
  have hpath := isPath_of_follow hl
  rw [resolveNew, follow_eq_walk hpath] at hl
  rw [lookup, resolve, follow_eq_walk hpath]
  obtain hw | ⟨hw, hget⟩ := walk_false_of_walk_true hl
  · rw [hw]
    rfl
  · rw [hw, hget]
    rfl

end CommandShell.FileSystem
