import Mathlib
import CommandShell.Proofs.Completion.Order
import CommandShell.Proofs.Completion.Start
import CommandShell.Proofs.Resolution

/-!
# What completion depends on

What a text is completed to is settled by the set of the names that start with it. `Completes` says
how, and `complete_by_names` that it is so: neither the order in which the names are found nor how
often each of them is makes a difference.
-/

namespace CommandShell

/-! ## Directories in another order -/

/-- What is looked up in a table does not depend on the order of its keys. -/
theorem Table.lookup_perm {κ ν : Type} [BEq κ] [LawfulBEq κ] {es es' : List (κ × ν)}
    (h : es.Perm es') (hn : (es.map (·.1)).Nodup) (key : κ) : es.lookup key = es'.lookup key := by
  induction h with
  | nil => rfl
  | cons e _ ih => rw [List.lookup_cons, List.lookup_cons, ih (List.nodup_cons.mp hn).2]
  | swap e d es =>
    have hne : d.1 ≠ e.1 := by simp_all
    rw [List.lookup_cons, List.lookup_cons, List.lookup_cons, List.lookup_cons]
    split <;> split <;> simp_all
  | trans hp _ ih ih' => exact (ih hn).trans (ih' ((hp.map _).nodup_iff.mp hn))

namespace FileSystem

variable {fs fs' : FileSystem}

/-- Whether the same stands at every location of two file systems, and directories list the same
names in them, in whatever order. -/
structure SameButOrder (fs fs' : FileSystem) : Prop where
  get?_eq : ∀ l, fs.get? l = fs'.get? l
  names_perm : ∀ l, (fs.names l).Perm (fs'.names l)

theorem SameButOrder.refl (fs : FileSystem) : fs.SameButOrder fs :=
  ⟨fun _ => rfl, fun _ => .refl _⟩

theorem SameButOrder.symm (h : fs.SameButOrder fs') : fs'.SameButOrder fs :=
  ⟨fun l => (h.get?_eq l).symm, fun l => (h.names_perm l).symm⟩

/-- A file system is the same but for the order of names if its entries are kept in another order,
each location once. -/
theorem SameButOrder.of_perm (h : fs.entries.Perm fs'.entries)
    (hn : (fs.entries.map (·.1)).Nodup) : fs.SameButOrder fs' := by
  refine ⟨fun l => ?_, fun l => h.filterMap _⟩
  rw [get?, get?, Table.lookup_perm h hn]

theorem SameButOrder.akin (h : fs.SameButOrder fs') : fs.Akin fs' :=
  ⟨fun l => .inl (h.get?_eq l), fun l => by rw [h.get?_eq]⟩

/-- A path is one of the same directory, which lists the same names. -/
theorem SameButOrder.mem_of_list (h : fs.SameButOrder fs') {directory : Location} {path : String}
    {listed : List String} (hl : fs.list directory path = .ok listed) :
    ∃ listed', fs'.list directory path = .ok listed' ∧ ∀ name ∈ listed, name ∈ listed' := by
  have hfollow : fs.resolve directory path = fs'.resolve directory path :=
    h.akin.alike.follow_eq (fun l _ => h.get?_eq l) false
  have hresolve : fs.resolveDirectory directory path = fs'.resolveDirectory directory path := by
    simp only [resolveDirectory, hfollow, h.akin.alike.isDirectory_eq]
  rw [list, hresolve] at hl
  rw [list]
  rcases hd : fs'.resolveDirectory directory path with f | l
  · rw [hd] at hl
    cases hl
  · rw [hd] at hl
    obtain rfl : fs.names l = listed := Except.ok.inj hl
    exact ⟨fs'.names l, rfl, fun name hname => (h.names_perm l).mem_iff.mp hname⟩

end FileSystem

/-! ## What a set of names settles -/

/-- Whether a list holds each of some names once, in the order in which names are listed. -/
structure IsListing (listed : List String) (names : Set String) : Prop where
  nodup : listed.Nodup
  mem_iff : ∀ name, name ∈ listed ↔ name ∈ names
  ordered : listed.Pairwise ListedBefore

/-- What a text is completed to, given the names that start with it: a single name with a space
behind it, or else as far as the names agree, or else a list of them. -/
inductive Completes (names : Set String) (text : String) : Completion → Prop
  | none : names = ∅ → Completes names text .none
  | single {rest : String} : names = {text ++ rest} → Completes names text (.found (rest ++ " "))
  | shared {rest : String} : names.Nontrivial → IsLongestStart names (text ++ rest) → rest ≠ "" →
      Completes names text (.found rest)
  | listed {listed : List String} : names.Nontrivial → IsLongestStart names text →
      IsListing listed names → Completes names text (.more listed)

/-- The names settle what a text is completed to. -/
theorem Completes.unique {names : Set String} {text : String} {r r' : Completion}
    (h : Completes names text r) (h' : Completes names text r') : r = r' := by
  cases h with
  | none hnames =>
    subst hnames
    cases h' with
    | none => rfl
    | single hnames' => exact absurd hnames'.symm (Set.singleton_ne_empty _)
    | shared hmany => exact absurd hmany Set.not_nontrivial_empty
    | listed hmany => exact absurd hmany Set.not_nontrivial_empty
  | single hnames =>
    subst hnames
    cases h' with
    | none hnames' => exact absurd hnames' (Set.singleton_ne_empty _)
    | single hnames' => rw [(String.append_right_inj text).mp (Set.singleton_injective hnames')]
    | shared hmany => exact absurd hmany Set.not_nontrivial_singleton
    | listed hmany => exact absurd hmany Set.not_nontrivial_singleton
  | shared hmany hlongest hne =>
    cases h' with
    | none hnames' => exact absurd (hnames' ▸ hmany) Set.not_nontrivial_empty
    | single hnames' => exact absurd (hnames' ▸ hmany) Set.not_nontrivial_singleton
    | shared _ hlongest' => rw [(String.append_right_inj text).mp (hlongest.unique hlongest')]
    | listed _ hlongest' =>
      exact absurd (String.append_eq_left_iff.mp (hlongest.unique hlongest')) hne
  | listed hmany hlongest hlisting =>
    cases h' with
    | none hnames' => exact absurd (hnames' ▸ hmany) Set.not_nontrivial_empty
    | single hnames' => exact absurd (hnames' ▸ hmany) Set.not_nontrivial_singleton
    | shared _ hlongest' hne =>
      exact absurd (String.append_eq_left_iff.mp (hlongest'.unique hlongest)) hne
    | listed _ _ hlisting' =>
      rw [hlisting.ordered.eq_of_mem_iff hlisting'.ordered fun name =>
        (hlisting.mem_iff name).trans (hlisting'.mem_iff name).symm]

/-- What texts have in common behind a common start is in common with it. -/
theorem IsLongestStart.append {names : Set String} {common : String} (hne : names.Nonempty)
    (h : IsLongestStart names common) (text : String) :
    IsLongestStart ((text ++ ·) '' names) (text ++ common) := by
  constructor
  · rintro _ ⟨name, hname, rfl⟩
    simpa using h.starts name hname
  · intro other hother
    obtain ⟨name, hname⟩ := hne
    have hfirst := hother _ ⟨name, hname, rfl⟩
    rw [String.toList_append] at hfirst ⊢
    rcases List.prefix_or_prefix_of_prefix hfirst (List.prefix_append text.toList name.toList)
      with hshort | ⟨rest, hrest⟩
    · exact hshort.trans (List.prefix_append ..)
    · rw [← hrest, List.prefix_append_right_inj, ← String.toList_ofList (l := rest)]
      refine h.longest _ fun name hname => ?_
      have hall := hother _ ⟨name, hname, rfl⟩
      rw [← hrest, String.toList_append, List.prefix_append_right_inj] at hall
      rwa [String.toList_ofList]

/-! ## The names of a completer -/

namespace Completer

variable {c c' : Completer} {fs fs' : FileSystem} {directory directory' : Location}
  {text name : String}

/-- Whether a name is there to be completed to: it is registered, or a directory on the search path
can be listed and has a program of that name. -/
inductive Knows (c : Completer) (fs : FileSystem) (directory : Location) (name : String) : Prop
  | builtin : name ∈ c.registry.names → Knows c fs directory name
  | program {d : String} {listed : List String} : d ∈ Text.splitOn ':' c.searchPath → d ≠ "" →
      fs.list directory d = .ok listed → name ∈ listed →
      fs.isProgram directory (Path.join d name) = true → Knows c fs directory name

/-- The names that start with a text. -/
def namesFrom (c : Completer) (fs : FileSystem) (directory : Location) (text : String) :
    Set String :=
  {name | text.toList <+: name.toList ∧ c.Knows fs directory name}

/-- The names to complete to are those that are known. -/
theorem mem_names_iff_knows : name ∈ c.names fs directory ↔ c.Knows fs directory name := by
  simp only [names, List.mem_append, List.mem_flatMap, searchDirectories, List.mem_filter,
    decide_eq_true_eq]
  constructor
  · rintro (h | ⟨d, ⟨hd, hne⟩, hname⟩)
    · exact .builtin h
    · rw [programsIn] at hname
      split at hname
      · next listed hlist =>
        obtain ⟨hmem, hprogram⟩ := List.mem_filter.mp hname
        exact .program hd hne hlist hmem hprogram
      · cases hname
  · rintro (h | ⟨hd, hne, hlist, hmem, hprogram⟩)
    · exact .inl h
    · refine .inr ⟨_, ⟨hd, hne⟩, ?_⟩
      rw [programsIn, hlist]
      exact List.mem_filter.mpr ⟨hmem, hprogram⟩

/-- The names that start with a text are those that its candidates make of it. -/
theorem namesFrom_eq :
    c.namesFrom fs directory text =
      (text ++ ·) '' {rest | rest ∈ c.candidates fs directory text} := by
  ext name
  have hoffered : name ∈ c.offered fs directory text ↔
      text.toList <+: name.toList ∧ name ∈ c.names fs directory := mem_offered
  rw [mem_names_iff_knows, offered, List.mem_map] at hoffered
  exact hoffered.symm

/-- Completion gives what the names settle. -/
theorem completes (hne : text ≠ "") :
    Completes (c.namesFrom fs directory text) text (c.complete fs directory text) := by
  have hsorted : (c.candidates fs directory text).Pairwise fun a b =>
      Candidate.precedes a b = true := Candidate.pairwise_foldl_insert _ .nil
  rw [complete, if_neg hne, namesFrom_eq]
  generalize c.candidates fs directory text = candidates at hsorted
  rcases candidates with _ | ⟨first, _ | ⟨second, items⟩⟩
  · exact .none (by simp)
  · exact .single (by simp)
  · have hmany : ((text ++ ·) '' {rest | rest ∈ first :: second :: items}).Nontrivial := by
      refine ⟨text ++ first, ⟨first, by simp, rfl⟩, text ++ second, ⟨second, by simp, rfl⟩, ?_⟩
      intro heq
      have hbefore : ListedBefore (text ++ first) (text ++ second) :=
        Candidate.listedBefore_append text ((List.pairwise_cons.mp hsorted).1 second (by simp))
      rw [heq] at hbefore
      exact listedBefore_asymm hbefore hbefore
    have hlongest := (isLongestStart_commonStart first (second :: items)).append
      ⟨first, List.mem_cons_self ..⟩ text
    dsimp only
    split
    · next hcommon =>
      rw [hcommon, String.append_empty] at hlongest
      have hordered : ((first :: second :: items).map (text ++ ·)).Pairwise ListedBefore :=
        List.pairwise_map.mpr (hsorted.imp fun h => Candidate.listedBefore_append text h)
      exact .listed hmany hlongest ⟨hordered.nodup, fun name => List.mem_map, hordered⟩
    · next hcommon => exact .shared hmany hlongest hcommon

/-- Completers that know the same names complete a text alike. -/
theorem complete_congr (h : ∀ name, c'.Knows fs' directory' name ↔ c.Knows fs directory name)
    (hne : text ≠ "") : c'.complete fs' directory' text = c.complete fs directory text := by
  have hnames : c'.namesFrom fs' directory' text = c.namesFrom fs directory text :=
    Set.ext fun name => and_congr_right fun _ => h name
  exact (hnames ▸ completes hne).unique (completes hne)

/-! ## Completing again -/

/-- A name that was completed with a space behind it is not completed any further. -/
theorem complete_single_again {rest : String}
    (h : c.namesFrom fs directory text = {text ++ rest}) :
    c.complete fs directory (text ++ (rest ++ " ")) = .none := by
  have hnone : c.namesFrom fs directory (text ++ (rest ++ " ")) = ∅ := by
    refine Set.eq_empty_iff_forall_notMem.mpr fun name hname => ?_
    obtain ⟨hstart, hknows⟩ := hname
    have hmem : name ∈ c.namesFrom fs directory text :=
      ⟨(by simp : text.toList <+: (text ++ (rest ++ " ")).toList).trans hstart, hknows⟩
    rw [h, Set.mem_singleton_iff] at hmem
    have hlength := hstart.length_le
    simp [hmem] at hlength
  have hne : text ++ (rest ++ " ") ≠ "" := by
    rw [Ne, String.append_eq_empty_iff, String.append_eq_empty_iff]
    exact fun h => absurd h.2.2 (by decide)
  exact (completes hne).unique (.none hnone)

/-- A text that was completed as far as the names agree starts all of them. -/
theorem namesFrom_append {common : String}
    (h : IsLongestStart (c.namesFrom fs directory text) (text ++ common)) :
    c.namesFrom fs directory (text ++ common) = c.namesFrom fs directory text := by
  ext name
  constructor
  · rintro ⟨hstart, hknows⟩
    exact ⟨(by simp : text.toList <+: (text ++ common).toList).trans hstart, hknows⟩
  · intro hname
    exact ⟨h.starts name hname, hname.2⟩

/-- A text that was completed as far as the names agree is not completed any further: the names are
listed. -/
theorem complete_shared_again {common : String} (hmany : (c.namesFrom fs directory text).Nontrivial)
    (hlongest : IsLongestStart (c.namesFrom fs directory text) (text ++ common))
    (hne : common ≠ "") :
    ∃ listed, c.complete fs directory (text ++ common) = .more listed ∧
      IsListing listed (c.namesFrom fs directory (text ++ common)) := by
  have hcompletes : Completes (c.namesFrom fs directory (text ++ common)) (text ++ common)
      (c.complete fs directory (text ++ common)) := completes (by simp [hne])
  rw [namesFrom_append hlongest] at hcompletes ⊢
  generalize c.complete fs directory (text ++ common) = r at hcompletes
  cases hcompletes with
  | none hnames => exact absurd (hnames ▸ hmany) Set.not_nontrivial_empty
  | single hnames => exact absurd (hnames ▸ hmany) Set.not_nontrivial_singleton
  | shared _ hlongest' hrest =>
    exact absurd (String.append_eq_left_iff.mp (hlongest'.unique hlongest)) hrest
  | listed _ _ hlisting => exact ⟨_, rfl, hlisting⟩

/-! ## Where names are found -/

/-- A name stays known if more is registered, more directories are on the search path, and
directories list it elsewhere among their names. -/
theorem Knows.mono (h : c.Knows fs directory name) (hfs : fs.SameButOrder fs')
    (hregistry : ∀ name ∈ c.registry.names, name ∈ c'.registry.names)
    (hpath : ∀ d ∈ Text.splitOn ':' c.searchPath, d ≠ "" → d ∈ Text.splitOn ':' c'.searchPath) :
    c'.Knows fs' directory name := by
  rcases h with h | ⟨hd, hne, hlist, hmem, hprogram⟩
  · exact .builtin (hregistry name h)
  · obtain ⟨listed, hlisted, hall⟩ := hfs.mem_of_list hlist
    rw [hfs.akin.isProgram_eq] at hprogram
    exact .program (hpath _ hd hne) hne hlisted (hall name hmem) hprogram

/-- A name is known with one more builtin if it was known before or is that of the builtin. -/
theorem knows_register {other : String} {b : Builtin} :
    (mk (c.registry.register other b) c.searchPath).Knows fs directory name ↔
      name = other ∨ c.Knows fs directory name := by
  have hregistry : name ∈ (c.registry.register other b).names ↔
      name = other ∨ name ∈ c.registry.names := by
    rw [Registry.mem_names, Registry.mem_names, Registry.contains, Registry.lookup_register]
    split
    · next heq => simp [heq]
    · next hne => simp [hne, Registry.contains]
  constructor
  · rintro (h | ⟨hd, hne, hlist, hmem, hprogram⟩)
    · exact (hregistry.mp h).imp_right .builtin
    · exact .inr (.program hd hne hlist hmem hprogram)
  · rintro (h | h | ⟨hd, hne, hlist, hmem, hprogram⟩)
    · exact .builtin (hregistry.mpr (.inl h))
    · exact .builtin (hregistry.mpr (.inr h))
    · exact .program hd hne hlist hmem hprogram

/-- A name is known with more directories behind the search path if it was known before or is known
with these directories alone. -/
theorem knows_append {more : String} :
    (mk c.registry (c.searchPath ++ ":" ++ more)).Knows fs directory name ↔
      c.Knows fs directory name ∨ (mk c.registry more).Knows fs directory name := by
  have hsplit : Text.splitOn ':' (c.searchPath ++ ":" ++ more) =
      Text.splitOn ':' c.searchPath ++ Text.splitOn ':' more := by
    rw [Text.splitOn, String.toList_append, String.toList_append, List.append_assoc]
    exact (congrArg _ (List.splitOn_append_cons_self _ _)).trans List.map_append
  constructor
  · rintro (h | ⟨hd, hne, hlist, hmem, hprogram⟩)
    · exact .inl (.builtin h)
    · rw [hsplit, List.mem_append] at hd
      rcases hd with hd | hd
      · exact .inl (.program hd hne hlist hmem hprogram)
      · exact .inr (.program hd hne hlist hmem hprogram)
  · rintro (h | h)
    · exact h.mono (.refl fs) (fun _ h => h) fun d hd _ => by simp [hsplit, hd]
    · exact h.mono (.refl fs) (fun _ h => h) fun d hd _ => by simp [hsplit, hd]

/-- Completion goes by the set of the names that start with a text. So it does not matter in which
order and how often directories stand on the search path, with empty entries between them, or in
which order they list their names, nor whether a name is found again as a builtin or in further
directories. -/
theorem complete_by_names (c : Completer) (fs : FileSystem) (directory : Location) {text : String}
    (hne : text ≠ "") :
    (∀ r, c.complete fs directory text = r ↔
      Completes (c.namesFrom fs directory text) text r) ∧
    (∀ (searchPath : String) (fs' : FileSystem),
      (∀ d, d ≠ "" → (d ∈ Text.splitOn ':' searchPath ↔ d ∈ Text.splitOn ':' c.searchPath)) →
      fs.SameButOrder fs' →
      (mk c.registry searchPath).complete fs' directory text = c.complete fs directory text) ∧
    (∀ (name : String) (b : Builtin), c.Knows fs directory name →
      (mk (c.registry.register name b) c.searchPath).complete fs directory text =
        c.complete fs directory text) ∧
    ∀ more, (∀ name, (mk c.registry more).Knows fs directory name → c.Knows fs directory name) →
      (mk c.registry (c.searchPath ++ ":" ++ more)).complete fs directory text =
        c.complete fs directory text := by
  refine ⟨fun r => ⟨?_, ?_⟩, ?_, ?_, ?_⟩
  · rintro rfl
    exact completes hne
  · exact (completes hne).unique
  · intro searchPath fs' hpath hfs
    refine complete_congr (fun name => ⟨fun h => ?_, fun h => ?_⟩) hne
    · exact h.mono hfs.symm (fun _ h => h) fun d hd hdne => (hpath d hdne).mp hd
    · exact h.mono hfs (fun _ h => h) fun d hd hdne => (hpath d hdne).mpr hd
  · intro name b hname
    refine complete_congr (fun other => knows_register.trans ?_) hne
    exact ⟨by rintro (rfl | h) <;> assumption, .inr⟩
  · intro more hmore
    refine complete_congr (fun name => knows_append.trans ?_) hne
    exact ⟨fun h => h.elim id (hmore name), .inl⟩

/-- Two names that part within the bytes of a character, in a directory that stands twice on the
search path. -/
theorem complete_by_names_accents :
    let bin := FileSystem.empty.put ["bin"] .directory
    let fs := (bin.put ["bin", "xé"] (.file 0o755 [])).put ["bin", "xè"] (.file 0o755 [])
    let fs' := (bin.put ["bin", "xè"] (.file 0o755 [])).put ["bin", "xé"] (.file 0o755 [])
    let complete (r : Registry) (searchPath : String) (fs : FileSystem) : Completion :=
      (mk r searchPath).complete fs [] "x"
    fs.SameButOrder fs' ∧ (mk .empty ":/bin::/bin").Knows fs [] "xé" ∧
      complete .empty ":/bin::/bin" fs = .more ["xè", "xé"] ∧
      complete .empty "/bin" fs' = complete .empty ":/bin::/bin" fs ∧
      complete (.register .empty "xé" .echo) ":/bin::/bin" fs =
        complete .empty ":/bin::/bin" fs ∧
      complete .empty (":/bin::/bin" ++ ":" ++ "/bin") fs = complete .empty ":/bin::/bin" fs := by
  intro bin fs fs' complete
  have hfs : fs.SameButOrder fs' := .of_perm (by decide) (by decide)
  have hlist : fs.list [] "/bin" = .ok ["xé", "xè"] := by
    have hresolve : fs.resolve [] "/bin" = .ok ["bin"] := by
      rw [FileSystem.resolve, FileSystem.follow_eq_walk ⟨by decide, by decide, by decide⟩]
      cbv
    rw [FileSystem.list, FileSystem.resolveDirectory, hresolve]
    decide
  have hprogram (name : String) (hname : name = "xé" ∨ name = "xè") :
      fs.isProgram [] (Path.join "/bin" name) = true := by
    rcases hname with rfl | rfl
    · refine FileSystem.isProgram_eq_true_iff.mpr ⟨["bin", "xé"], ?_, by decide⟩
      rw [FileSystem.follow_eq_walk ⟨by decide, by decide, by decide⟩]
      cbv
    · refine FileSystem.isProgram_eq_true_iff.mpr ⟨["bin", "xè"], ?_, by decide⟩
      rw [FileSystem.follow_eq_walk ⟨by decide, by decide, by decide⟩]
      cbv
  have hknown {searchPath name : String} (hbin : "/bin" ∈ Text.splitOn ':' searchPath)
      (hname : name = "xé" ∨ name = "xè") : (mk .empty searchPath).Knows fs [] name :=
    .program hbin (by decide) hlist (by simpa using hname) (hprogram name hname)
  have hknows {searchPath name : String}
      (hpath : ∀ d ∈ Text.splitOn ':' searchPath, d ≠ "" → d = "/bin")
      (h : (mk .empty searchPath).Knows fs [] name) : name = "xé" ∨ name = "xè" := by
    rcases h with h | ⟨hd, hne, hlisted, hmem, -⟩
    · cases h
    · obtain rfl := hpath _ hd hne
      obtain rfl := Except.ok.inj (hlist.symm.trans hlisted)
      simpa using hmem
  have hnames : (mk .empty ":/bin::/bin").namesFrom fs [] "x" = {name | name ∈ ["xè", "xé"]} := by
    ext name
    constructor
    · rintro ⟨-, h⟩
      simpa [or_comm] using hknows (by decide) h
    · intro hname
      have hname : name = "xé" ∨ name = "xè" := by simpa [or_comm] using hname
      refine ⟨?_, hknown (by decide) hname⟩
      rcases hname with rfl | rfl <;> decide
  have hmore : Completes {name | name ∈ ["xè", "xé"]} "x" (.more ["xè", "xé"]) :=
    .listed ⟨"xè", by simp, "xé", by simp, by decide⟩ (isLongestStart_commonStart "xè" ["xé"])
      ⟨by decide, fun _ => .rfl, by simp [ListedBefore]; decide⟩
  obtain ⟨hsettled, horder, hbuiltin, hfurther⟩ :=
    complete_by_names (mk .empty ":/bin::/bin") fs [] (show "x" ≠ "" by decide)
  refine ⟨hfs, hknown (by decide) (.inl rfl), (hsettled _).mpr (hnames ▸ hmore), ?_, ?_, ?_⟩
  · refine horder "/bin" fs' (fun d hd => ?_) hfs
    rw [show Text.splitOn ':' "/bin" = ["/bin"] by decide,
      show Text.splitOn ':' ":/bin::/bin" = ["", "/bin", "", "/bin"] by decide]
    simp [hd]
  · exact hbuiltin "xé" .echo (hknown (by decide) (.inl rfl))
  · exact hfurther "/bin" fun name h => hknown (by decide) (hknows (by decide) h)

end Completer

end CommandShell
