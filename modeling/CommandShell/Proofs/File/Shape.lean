import CommandShell.Emission
import CommandShell.Proofs.File.Opened

/-!
# The shape of a file system

File systems have the same shape if they differ at most in what their files hold. Whatever is
written, to whichever handle, leaves the shape as it is, and so do notices and complaints. Where a
path can be opened, and why it cannot be, depends on the shape alone.
-/

namespace CommandShell

/-- The node, without what a file holds. -/
def Node.shape : Node → Node
  | .file mode _ => .file mode []
  | n => n

namespace FileSystem

variable {fs fs' gs : FileSystem} {directory l : Location} {path : String} {keep : Bool}
  {mode : Nat} {content : Bytes} {n : Node} {e : Fault}

/-- Whether two file systems differ at most in what their files hold. -/
structure SameShape (fs fs' : FileSystem) : Prop where
  shape : ∀ l, (fs.get? l).map Node.shape = (fs'.get? l).map Node.shape
  closed : fs'.closed = fs.closed

theorem SameShape.refl (fs : FileSystem) : fs.SameShape fs := ⟨fun _ => rfl, rfl⟩

theorem SameShape.symm (h : fs.SameShape fs') : fs'.SameShape fs :=
  ⟨fun l => (h.shape l).symm, h.closed.symm⟩

theorem SameShape.trans {fs'' : FileSystem} (h : fs.SameShape fs') (h' : fs'.SameShape fs'') :
    fs.SameShape fs'' :=
  ⟨fun l => (h.shape l).trans (h'.shape l), h'.closed.trans h.closed⟩

/-- Files may be made in the same directories. -/
theorem SameShape.isOpen_eq (h : fs.SameShape fs') (l : Location) : fs'.isOpen l = fs.isOpen l := by
  rw [isOpen, isOpen, h.closed]

theorem SameShape.get?_none (h : fs.SameShape fs') (hl : fs.get? l = none) :
    fs'.get? l = none := by
  have hshape := h.shape l
  rw [hl] at hshape
  simpa using hshape.symm

/-- Where one file system has a file, the other has one with the same permission bits. -/
theorem SameShape.get?_file (h : fs.SameShape fs') (hl : fs.get? l = some (.file mode content)) :
    ∃ content', fs'.get? l = some (.file mode content') := by
  have hshape := h.shape l
  rw [hl] at hshape
  rcases hl' : fs'.get? l with _ | n
  · simp [hl'] at hshape
  · cases n <;> simp_all [Node.shape]

theorem SameShape.alike (h : fs.SameShape fs') : fs.Alike fs' := by
  intro l
  rcases hl : fs.get? l with _ | n
  · exact .inl (h.get?_none hl).symm
  rcases hl' : fs'.get? l with _ | n'
  · rw [h.symm.get?_none hl'] at hl
    cases hl
  rcases hp : fs.isPlain l with _ | _
  · -- Without a file, the shape is the node itself.
    have hshape := h.shape l
    rw [hl, hl'] at hshape
    left
    cases n <;> cases n' <;> simp_all [Node.shape, isPlain]
  · obtain ⟨mode, content, rfl⟩ := eq_file_of_isPlain hp hl
    obtain ⟨content', hfile⟩ := h.get?_file hl
    exact .inr ⟨rfl, isPlain_of_file hfile⟩

/-- What is no file is the same in the other file system. -/
theorem SameShape.get?_of_ne_file (h : fs.SameShape fs') (hl : fs.get? l = some n)
    (hn : ∀ mode content, n ≠ .file mode content) : fs'.get? l = some n := by
  rw [← h.alike.get?_eq, hl]
  rw [Bool.eq_false_iff]
  intro hplain
  obtain ⟨mode, content, rfl⟩ := eq_file_of_isPlain hplain hl
  exact hn mode content rfl

/-- A file that gets other bytes leaves the shape. -/
theorem sameShape_put (h : fs.get? l = some (.file mode content)) (bytes : Bytes) :
    fs.SameShape (fs.put l (.file mode bytes)) := by
  refine ⟨fun m => ?_, rfl⟩
  rw [get?_put _ (ne_nil_of_isPlain (isPlain_of_file h))]
  by_cases hm : m = l
  · rw [hm, if_pos rfl, h]
    rfl
  · rw [if_neg hm]

theorem SameShape.put (h : fs.SameShape fs') (hl : l ≠ []) (n : Node) :
    (fs.put l n).SameShape (fs'.put l n) := by
  refine ⟨fun m => ?_, h.closed⟩
  rw [get?_put _ hl, get?_put _ hl]
  split
  · rfl
  · exact h.shape m

/-- A path that can be opened can be opened at the same location of a file system of the same
shape. -/
theorem SameShape.opened (h : fs.SameShape fs')
    (ho : fs.opened directory path keep = .ok (l, gs)) :
    ∃ gs', fs'.opened directory path keep = .ok (l, gs') ∧ gs.SameShape gs' := by
  obtain ⟨hl, hcases⟩ := opened_cases ho
  have hl' := h.alike.resolveNew_ok hl
  -- A file is made, or is there and may be written, or something else is at the location.
  obtain ⟨hget, hopen, rfl⟩ | ⟨mode, content, hget, hmay, rfl⟩ | ⟨hplain, rfl⟩ := hcases
  · rw [← h.isOpen_eq] at hopen
    exact ⟨_, opened_of_none hl' (h.get?_none hget) hopen keep,
      h.put (ne_nil_of_isPlain (isPlain_of_none hget)) _⟩
  · obtain ⟨content', hget'⟩ := h.get?_file hget
    refine ⟨_, opened_of_file hl' hget' hmay keep, ?_⟩
    cases keep with
    | true => exact h
    | false => exact h.put (ne_nil_of_isPlain (isPlain_of_file hget)) _
  · exact ⟨fs', opened_of_not_isPlain ho hplain hl' (h.alike.get?_eq hplain).symm keep, h⟩

/-- Where names lead, or why they lead nowhere, does not depend on what files hold. -/
theorem SameShape.walk_eq (h : fs.SameShape fs') (creating : Bool) (links : Nat) (here : Location)
    (names : List String) (slash : Bool) :
    fs.walk creating links here names slash = fs'.walk creating links here names slash := by
  have hd := h.alike.isDirectory_eq
  fun_induction fs.walk creating links here names slash with
  | case1 | case2 => simp_all [walk]
  | case3 | case4 | case5 | case6 | case7 => simp_all [walk_cons]
  | case8 links here slash name rest hdir hc hdot hdots hlen hget hnew
  | case9 links here slash name rest hdir hc hdot hdots hlen hget hnew =>
    rw [walk_cons, ← hd, if_neg hdir, if_neg hc, if_neg hdot, if_neg hdots, if_neg hlen,
      h.get?_none hget]
    simp only [hnew, ↓reduceIte, Bool.false_eq_true]
  | case10 here slash name rest hdir hc hdot hdots hlen path hget =>
    rw [walk_cons, ← hd, if_neg hdir, if_neg hc, if_neg hdot, if_neg hdots, if_neg hlen,
      h.get?_of_ne_file hget (by simp)]
  | case11 here slash name rest hdir hc hdot hdots hlen links hget =>
    rw [walk_cons, ← hd, if_neg hdir, if_neg hc, if_neg hdot, if_neg hdots, if_neg hlen,
      h.get?_of_ne_file hget (by simp)]
    rfl
  | case12 here slash name rest hdir hc hdot hdots hlen path links hget hpath route ih =>
    rw [walk_cons, ← hd, if_neg hdir, if_neg hc, if_neg hdot, if_neg hdots, if_neg hlen,
      h.get?_of_ne_file hget (by simp)]
    simp only [if_neg hpath]
    exact ih
  | case13 here slash name rest hdir hc hdot hdots hlen n links hzero hsucc hget ih =>
    rw [walk_cons, ← hd, if_neg hdir, if_neg hc, if_neg hdot, if_neg hdots, if_neg hlen]
    cases n with
    | link path =>
      cases links with
      | zero => exact (hzero path rfl rfl).elim
      | succ links => exact (hsucc path links rfl rfl).elim
    | file mode content =>
      obtain ⟨content', hget'⟩ := h.get?_file hget
      rw [hget']
      exact ih
    | directory | device | tool =>
      rw [h.get?_of_ne_file hget (by simp)]
      exact ih

/-- Why a path cannot be opened does not depend on what files hold. -/
theorem SameShape.opened_error (h : fs.SameShape fs')
    (ho : fs.opened directory path keep = .error e) :
    fs'.opened directory path keep = .error e := by
  have hl : fs'.resolveNew directory path = fs.resolveNew directory path := by
    simp only [resolveNew, follow, h.walk_eq]
  rcases hr : fs.resolveNew directory path with f | l
  · rw [FileSystem.opened, hr] at ho
    rw [FileSystem.opened, hl, hr]
    exact ho
  rw [FileSystem.opened, hr] at ho
  rw [FileSystem.opened, hl, hr]
  simp only [bind, Except.bind] at ho ⊢
  split at ho
  · next hget =>
    simp only [h.get?_none hget, h.isOpen_eq]
    split at ho
    · cases ho
    · next hopen => rwa [if_neg hopen]
  · next mode content hget =>
    obtain ⟨content', hget'⟩ := h.get?_file hget
    simp only [hget']
    split at ho
    · cases ho
    · next hmay => rwa [if_neg (show ¬(Node.file mode content').mayWrite = true from hmay)]
  -- The rest is no file, and opening it fails in the same way.
  · next hget => simp only [h.get?_of_ne_file hget (by simp), ho]
  · next hget => simp only [h.get?_of_ne_file hget (by simp), ho]
  · next hget => simp only [h.get?_of_ne_file hget (by simp), ho]
  · cases ho

end FileSystem

/-! ## Writing -/

namespace Host

variable {h h' : Host} {handle : Handle} {bytes : Bytes}

/-- Writing to a handle leaves the shape of the files. -/
theorem sameShape_write (hw : h.write handle bytes = .ok h') : h.files.SameShape h'.files := by
  unfold write at hw
  split at hw
  · cases hw
    exact .refl _
  cases handle with
  | output | error =>
    cases hw
    exact .refl _
  | input | pipeReader => cases hw
  | pipeWriter id =>
    simp only at hw
    split at hw
    · cases hw
    · split at hw
      · cases hw
        exact .refl _
      · cases hw
  | file id =>
    simp only [writeFile] at hw
    split at hw
    · cases hw
    split at hw
    · cases hw
    split at hw
    · next hget =>
      cases hw
      exact FileSystem.sameShape_put hget _
    · cases hw
    · cases hw
      exact .refl _

theorem sameShape_tryWrite (h : Host) (handle : Handle) (bytes : Bytes) :
    h.files.SameShape (h.tryWrite handle bytes).files := by
  rcases hw : h.write handle bytes with f | h'
  · rw [tryWrite, hw]
    exact .refl _
  · rw [tryWrite, hw]
    exact sameShape_write hw

end Host

namespace Process

theorem sameShape_complain (p : Process) (h : Host) (line : String) :
    h.files.SameShape (p.complain h line).files := by
  rw [complain]
  split
  · exact h.sameShape_tryWrite _ _
  · exact .refl _

theorem sameShape_tell (p : Process) (h : Host) (n : Notice) :
    h.files.SameShape (p.tell h n).files := by
  rw [tell]
  split
  · exact p.sameShape_complain h _
  · exact .refl _

end Process

namespace Emission

theorem sameShape_write {e : Emission} {h h' : Host} (hw : e.write h = .ok h') :
    h.files.SameShape h'.files := by
  rw [write] at hw
  split at hw
  · exact Host.sameShape_write hw
  · split at hw
    · cases hw
      exact .refl _
    · cases hw

theorem sameShape_tellFault (e : Emission) (p : Process) (error : Option Handle) (h : Host)
    (f : Fault) : h.files.SameShape (e.tellFault p error h f).files := by
  have hcared : h.files.SameShape ({ e with keeper := none }.tellFault p error h f).files := by
    simp only [tellFault]
    split
    · exact h.sameShape_tryWrite _ _
    · exact .refl _
  simp only [tellFault] at hcared ⊢
  cases e.keeper with
  | none => exact hcared
  | some command => exact hcared.trans (p.sameShape_tell _ _)

/-- Texts whose failures are passed over are all tried, and leave the shape of the files. -/
theorem writeAll_ignore (p : Process) (error : Option Handle) {es : List Emission}
    (hes : ∀ e ∈ es, e.care = .ignore) (h : Host) :
    ∃ h', writeAll p error es h = (true, h') ∧ h.files.SameShape h'.files := by
  induction es generalizing h with
  | nil => exact ⟨h, rfl, .refl _⟩
  | cons e es ih =>
    rw [List.forall_mem_cons] at hes
    rw [writeAll]
    rcases hw : e.write h with f | g
    · obtain ⟨h', hall, hshape⟩ := ih hes.2 (e.tellFault p error h f)
      refine ⟨h', ?_, (e.sameShape_tellFault p error h f).trans hshape⟩
      simp only [hes.1, ↓reduceIte, hall]
    · obtain ⟨h', hall, hshape⟩ := ih hes.2 g
      exact ⟨h', hall, (sameShape_write hw).trans hshape⟩

end Emission

end CommandShell
