import CommandShell.Program.Search
import CommandShell.Proofs.File.Walk

/-!
# What paths touch

A path touches the regular file that it reaches, or the place for one. On file systems that are
akin, which differ at most in what regular files hold and in where there are files that are no
programs, a path leads to the same end if what it touches is the same; whether a program is found
does not even depend on that.
-/

namespace CommandShell

namespace FileSystem

variable {fs fs' : FileSystem}

/-- Whether two file systems are alike and have programs in the same places. -/
structure Akin (fs fs' : FileSystem) : Prop where
  alike : fs.Alike fs'
  isProgram : ∀ l, (fs.get? l).any Node.isProgram = (fs'.get? l).any Node.isProgram

theorem Akin.refl (fs : FileSystem) : fs.Akin fs := ⟨.refl fs, fun _ => rfl⟩

theorem Akin.symm (h : fs.Akin fs') : fs'.Akin fs := ⟨h.alike.symm, fun l => (h.isProgram l).symm⟩

theorem Akin.trans {fs'' : FileSystem} (h : fs.Akin fs') (h' : fs'.Akin fs'') : fs.Akin fs'' :=
  ⟨h.alike.trans h'.alike, fun l => (h.isProgram l).trans (h'.isProgram l)⟩

/-- A file put in a plain place makes a file system that is akin, if it is a program just in case
one was there. -/
theorem akin_put {l : Location} (hl : fs.isPlain l = true) {mode : Nat} {content : Bytes}
    (hprogram : (fs.get? l).any Node.isProgram = (Node.file mode content).isProgram) :
    fs.Akin (fs.put l (.file mode content)) := by
  refine ⟨alike_put hl mode content, ?_⟩
  intro m
  rw [get?_put fs (ne_nil_of_isPlain hl)]
  by_cases hm : m = l
  · rw [hm, if_pos rfl, Option.any_some, hprogram]
  · rw [if_neg hm]

/-- Whether two file systems are akin and files may be made in the same directories. -/
structure CloselyAkin (fs fs' : FileSystem) : Prop extends fs.Akin fs' where
  closed : fs'.closed = fs.closed

theorem CloselyAkin.refl (fs : FileSystem) : fs.CloselyAkin fs := ⟨.refl fs, rfl⟩

theorem CloselyAkin.symm (h : fs.CloselyAkin fs') : fs'.CloselyAkin fs :=
  ⟨h.toAkin.symm, h.closed.symm⟩

theorem CloselyAkin.trans {fs'' : FileSystem} (h : fs.CloselyAkin fs')
    (h' : fs'.CloselyAkin fs'') : fs.CloselyAkin fs'' :=
  ⟨h.toAkin.trans h'.toAkin, h'.closed.trans h.closed⟩

theorem closelyAkin_put {l : Location} (hl : fs.isPlain l = true) {mode : Nat} {content : Bytes}
    (hprogram : (fs.get? l).any Node.isProgram = (Node.file mode content).isProgram) :
    fs.CloselyAkin (fs.put l (.file mode content)) :=
  ⟨akin_put hl hprogram, rfl⟩

theorem CloselyAkin.isOpen_eq (h : fs.CloselyAkin fs') (l : Location) :
    fs'.isOpen l = fs.isOpen l := by
  rw [isOpen, isOpen, h.closed]

/-! ## What a path leads to -/

/-- The plain location that a path reaches from a directory, if it reaches one. -/
def touched? (fs : FileSystem) (directory : Location) (path : String) : Option Location :=
  (fs.reach maxLinks (if (Route.ofPath path).absolute then [] else directory)
    (Route.ofPath path).names).filter fs.isPlain

theorem Alike.touched?_eq (h : fs.Alike fs') (directory : Location) (path : String) :
    fs.touched? directory path = fs'.touched? directory path := by
  have hplain : fs.isPlain = fs'.isPlain := funext h.isPlain_eq
  rw [touched?, touched?, h.reach_eq, hplain]

section

variable {directory : Location} {path : String}

/-- What a path reaches is the same if what it touches is. -/
theorem Alike.get?_reach_eq (h : fs.Alike fs')
    (ht : ∀ l ∈ fs.touched? directory path, fs.get? l = fs'.get? l) :
    ∀ l ∈ fs.reach maxLinks (if (Route.ofPath path).absolute then [] else directory)
      (Route.ofPath path).names, fs.get? l = fs'.get? l := by
  intro l hl
  rcases hplain : fs.isPlain l with _ | _
  · exact h.get?_eq hplain
  · exact ht l (Option.mem_filter_iff.mpr ⟨hl, hplain⟩)

/-- A path leads to the same location if what it touches is the same. -/
theorem Alike.follow_eq (h : fs.Alike fs')
    (ht : ∀ l ∈ fs.touched? directory path, fs.get? l = fs'.get? l) (creating : Bool) :
    fs.follow creating directory path = fs'.follow creating directory path := by
  simp only [follow, h.walk_eq (h.get?_reach_eq ht)]

/-- A path that leads to a plain location touches it. -/
theorem mem_touched?_of_follow {creating : Bool} {l : Location}
    (hf : fs.follow creating directory path = .ok l) (hl : fs.isPlain l = true) :
    l ∈ fs.touched? directory path := by
  rw [follow_eq_walk (isPath_of_follow hf)] at hf
  exact Option.mem_filter_iff.mpr ⟨reach_of_walk hf hl, hl⟩

/-- A path leads to the same node if what it touches is the same. -/
theorem Alike.lookup_eq (h : fs.Alike fs')
    (ht : ∀ l ∈ fs.touched? directory path, fs.get? l = fs'.get? l) :
    fs.lookup directory path = fs'.lookup directory path := by
  simp only [lookup, resolve, ← h.follow_eq ht]
  rcases hf : fs.follow false directory path with e | l
  · rfl
  · have hget : fs.get? l = fs'.get? l := by
      rcases hplain : fs.isPlain l with _ | _
      · exact h.get?_eq hplain
      · exact ht l (mem_touched?_of_follow hf hplain)
    simp only [bind, Except.bind, hget]

/-- The same bytes are read through a path if what it touches is the same. -/
theorem Alike.read_eq (h : fs.Alike fs')
    (ht : ∀ l ∈ fs.touched? directory path, fs.get? l = fs'.get? l) :
    fs.read directory path = fs'.read directory path := by
  simp only [read, h.lookup_eq ht]

/-- A path is one of the same directory if what it touches is the same. -/
theorem Alike.canonicalDirectory_eq (h : fs.Alike fs')
    (ht : ∀ l ∈ fs.touched? [] path, fs.get? l = fs'.get? l) :
    fs.canonicalDirectory path = fs'.canonicalDirectory path := by
  have hr := h.get?_reach_eq ht
  rw [ite_self] at hr
  simp only [canonicalDirectory, h.walkByPath_eq hr, h.isDirectory_eq]

end

/-! ## Programs -/

/-- A path leads to a program just in case it leads to a location with one. -/
theorem isProgram_eq_true_iff {directory : Location} {path : String} :
    fs.isProgram directory path = true ↔
      ∃ l, fs.follow false directory path = .ok l ∧ (fs.get? l).any Node.isProgram = true := by
  simp only [isProgram, lookup, resolve]
  rcases hf : fs.follow false directory path with e | l
  · simp [bind, Except.bind]
  · rcases hget : fs.get? l with _ | n <;> simp [bind, Except.bind, hget]

/-- A path leads to a program in all file systems that are akin. -/
theorem Akin.isProgram_of (h : fs.Akin fs') {directory : Location} {path : String}
    (hp : fs.isProgram directory path = true) : fs'.isProgram directory path = true := by
  obtain ⟨l, hf, hl⟩ := isProgram_eq_true_iff.mp hp
  rw [h.isProgram] at hl
  have hsome : (fs'.get? l).isSome := by
    rcases hget : fs'.get? l with _ | n
    · simp [hget] at hl
    · rfl
  refine isProgram_eq_true_iff.mpr ⟨l, ?_, hl⟩
  have hpath := isPath_of_follow hf
  rw [follow_eq_walk hpath] at hf ⊢
  exact h.alike.walk_ok (.inr hsome) hf

/-- The same paths lead to programs in file systems that are akin. -/
theorem Akin.isProgram_eq (h : fs.Akin fs') (directory : Location) (path : String) :
    fs.isProgram directory path = fs'.isProgram directory path :=
  Bool.eq_iff_iff.mpr ⟨h.isProgram_of, h.symm.isProgram_of⟩

/-- A name stands for the same program in file systems that are akin. -/
theorem Akin.locate_eq (h : fs.Akin fs') (directory : Location) (searchPath name : String) :
    locate fs directory searchPath name = locate fs' directory searchPath name := by
  have heq : fs.isProgram directory = fs'.isProgram directory := funext (h.isProgram_eq directory)
  simp only [locate, findProgram?, heq]

end FileSystem

end CommandShell
