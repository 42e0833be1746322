import CommandShell.History
import CommandShell.Proofs.File.Walk

/-!
# Files opened for writing

What opening a path for writing makes of the file system, and at which location the file is:
`FileSystem.opened`, without open files and positions. Once a path was opened, it is opened again at
the same location, whatever has come behind the bytes of the file.
-/

namespace CommandShell

/-- A key that has a value is given the same value without effect. -/
theorem Table.set_of_lookup {κ ν : Type} [DecidableEq κ] [BEq κ] [LawfulBEq κ] {key : κ} {value : ν}
    {es : List (κ × ν)} (h : es.lookup key = some value) : Table.set key value es = es := by
  induction es with
  | nil => cases h
  | cons e es ih =>
    obtain ⟨k, v⟩ := e
    rw [Table.set]
    by_cases hk : k = key
    · subst hk
      rw [List.lookup_cons_self, Option.some.injEq] at h
      rw [if_pos rfl, h]
    · rw [List.lookup_cons, beq_eq_false_iff_ne.mpr (Ne.symm hk)] at h
      rw [if_neg hk, ih h]

namespace FileSystem

/-- The bytes of the regular file at a location; none if there is no such file. -/
def content (fs : FileSystem) (l : Location) : Bytes :=
  match fs.get? l with
  | some (.file _ bytes) => bytes
  | _ => []

theorem content_of_file {fs : FileSystem} {l : Location} {mode : Nat} {bytes : Bytes}
    (h : fs.get? l = some (.file mode bytes)) : fs.content l = bytes := by
  rw [content, h]

theorem content_of_none {fs : FileSystem} {l : Location} (h : fs.get? l = none) :
    fs.content l = [] := by
  rw [content, h]

/-- Whether a file system is another one with some bytes in the regular file at a location. -/
def Stores (fs fs' : FileSystem) (l : Location) (bytes : Bytes) : Prop :=
  (∃ mode, fs'.get? l = some (.file mode bytes)) ∧ ∀ m, m ≠ l → fs'.get? m = fs.get? m

theorem Stores.alike {fs fs' : FileSystem} {l : Location} {bytes : Bytes}
    (h : fs.Stores fs' l bytes) (hl : fs.isPlain l = true) : fs.Alike fs' := by
  obtain ⟨⟨mode, hfile⟩, hrest⟩ := h
  intro m
  by_cases hm : m = l
  · subst hm
    exact .inr ⟨hl, isPlain_of_file hfile⟩
  · exact .inl (hrest m hm).symm

/-! ## Opening -/

/-- The location at which a path is opened for writing, and the files afterwards: one is created
where there is none, and what it holds is dropped unless it is to be kept. -/
def opened (fs : FileSystem) (directory : Location) (path : String) (keep : Bool) :
    Except Fault (Location × FileSystem) := do
  let l ← fs.resolveNew directory path
  match fs.get? l with
  | none =>
    if fs.isOpen l.dropLast then .ok (l, fs.put l (.file Host.newFileMode []))
    else .error .permissionDenied
  | some (.file mode content) =>
    if (Node.file mode content).mayWrite then
      .ok (l, if keep then fs else fs.put l (.file mode []))
    else .error .permissionDenied
  | some .directory => .error .isDirectory
  | some (.tool _) => .error .permissionDenied
  | some (.device .terminal) => .error .noDevice
  | some _ => .ok (l, fs)

/-- The files with bytes behind what the regular file at a location holds. -/
def extended (fs : FileSystem) (l : Location) (bytes : Bytes) : FileSystem :=
  match fs.get? l with
  | some (.file mode content) => fs.put l (.file mode (content ++ bytes))
  | _ => fs

variable {fs fs' : FileSystem} {directory l : Location} {path : String} {keep : Bool}
  {bytes : Bytes} {mode : Nat} {content : Bytes}

theorem extended_of_file (h : fs.get? l = some (.file mode content)) (bytes : Bytes) :
    fs.extended l bytes = fs.put l (.file mode (content ++ bytes)) := by
  rw [extended, h]

/-- Nothing comes behind what is no regular file. -/
theorem extended_of_forall_ne (h : ∀ mode content, fs.get? l ≠ some (.file mode content))
    (bytes : Bytes) : fs.extended l bytes = fs := by
  rw [extended]
  split
  · next hget => exact absurd hget (h _ _)
  · rfl

/-- The node at a location stays when it is put there again. -/
theorem put_of_get? (hl : l ≠ []) {n : Node} (h : fs.get? l = some n) : fs.put l n = fs := by
  rw [get?, if_neg hl] at h
  rw [put, Table.set_of_lookup h]

/-- Nothing comes behind a file without effect. -/
@[simp] theorem extended_nil (fs : FileSystem) (l : Location) : fs.extended l [] = fs := by
  rw [extended]
  split
  · next mode content hget =>
    rw [List.append_nil, put_of_get? (ne_nil_of_isPlain (isPlain_of_file hget)) hget]
  · rfl

/-- What stands at a location after bytes came behind the file at some location. -/
theorem get?_extended_of_ne {m : Location} (hm : m ≠ l) (bytes : Bytes) :
    (fs.extended l bytes).get? m = fs.get? m := by
  rw [extended]
  split
  · next mode content hget =>
    rw [get?_put _ (ne_nil_of_isPlain (isPlain_of_file hget)), if_neg hm]
  · rfl

/-- A file is still there, with its permissions, after bytes came behind it. -/
theorem get?_extended_self (h : fs.get? l = some (.file mode content)) (bytes : Bytes) :
    (fs.extended l bytes).get? l = some (.file mode (content ++ bytes)) := by
  rw [extended_of_file h, get?_put _ (ne_nil_of_isPlain (isPlain_of_file h)), if_pos rfl]

theorem alike_extended (fs : FileSystem) (l : Location) (bytes : Bytes) :
    fs.Alike (fs.extended l bytes) := by
  rw [extended]
  split
  · next hget => exact alike_put (isPlain_of_file hget) _ _
  · exact .refl fs

/-- A file is made where there is none and files may be made. -/
theorem opened_of_none (hl : fs.resolveNew directory path = .ok l) (hget : fs.get? l = none)
    (hopen : fs.isOpen l.dropLast = true) (keep : Bool) :
    fs.opened directory path keep = .ok (l, fs.put l (.file Host.newFileMode [])) := by
  rw [opened, hl]
  simp only [bind, Except.bind, hget, hopen, ↓reduceIte]

/-- A file that may be written to is opened. -/
theorem opened_of_file (hl : fs.resolveNew directory path = .ok l)
    (hget : fs.get? l = some (.file mode content)) (hmay : (Node.file mode content).mayWrite = true)
    (keep : Bool) :
    fs.opened directory path keep = .ok (l, if keep then fs else fs.put l (.file mode [])) := by
  rw [opened, hl]
  simp only [bind, Except.bind, hget, hmay, ↓reduceIte]

/-! ## What was opened -/

/-- How a path is opened: at a place where a file is made, at a regular file, or at something that
keeps nothing. -/
theorem opened_cases (h : fs.opened directory path keep = .ok (l, fs')) :
    fs.resolveNew directory path = .ok l ∧
      ((fs.get? l = none ∧ fs.isOpen l.dropLast = true ∧ fs' = fs.put l (.file Host.newFileMode [])) ∨
        (∃ mode content, fs.get? l = some (.file mode content) ∧
          (Node.file mode content).mayWrite = true ∧
          fs' = if keep then fs else fs.put l (.file mode [])) ∨
        (fs.isPlain l = false ∧ fs' = fs)) := by
  rw [opened] at h
  rcases hl : fs.resolveNew directory path with e | m
  · rw [hl] at h
    cases h
  rw [hl] at h
  simp only [bind, Except.bind] at h
  rcases hget : fs.get? m with _ | n
  · simp only [hget] at h
    split at h
    · next hopen =>
      cases h
      exact ⟨rfl, .inl ⟨hget, hopen, rfl⟩⟩
    · cases h
  cases n with
  | directory => simp [hget] at h
  | tool t => simp [hget] at h
  | file mode content =>
    simp only [hget] at h
    split at h
    · next hmay =>
      cases h
      exact ⟨rfl, .inr (.inl ⟨mode, content, hget, hmay, rfl⟩)⟩
    · cases h
  | link target =>
    simp only [hget] at h
    cases h
    exact ⟨rfl, .inr (.inr ⟨by rw [isPlain, hget], rfl⟩)⟩
  | device d =>
    simp only [hget] at h
    cases d with
    | terminal => cases h
    | null | full =>
      cases h
      exact ⟨rfl, .inr (.inr ⟨by rw [isPlain, hget], rfl⟩)⟩

/-- A path is opened at the location that it leads to. -/
theorem resolveNew_of_opened (h : fs.opened directory path keep = .ok (l, fs')) :
    fs.resolveNew directory path = .ok l :=
  (opened_cases h).1

/-- Opening a path leaves the files alike. -/
theorem alike_of_opened (h : fs.opened directory path keep = .ok (l, fs')) : fs.Alike fs' := by
  obtain ⟨-, ⟨hget, -, rfl⟩ | ⟨mode, content, hget, -, rfl⟩ | ⟨-, rfl⟩⟩ := opened_cases h
  · exact alike_put (isPlain_of_none hget) _ _
  · split
    · exact .refl fs
    · exact alike_put (isPlain_of_file hget) _ _
  · exact .refl _

/-- Opening a path leaves everything as it is but the file that it is opened at. -/
theorem get?_of_opened (h : fs.opened directory path keep = .ok (l, fs')) {m : Location}
    (hm : m ≠ l) : fs'.get? m = fs.get? m := by
  obtain ⟨-, ⟨hget, -, rfl⟩ | ⟨mode, content, hget, -, rfl⟩ | ⟨-, rfl⟩⟩ := opened_cases h
  · rw [get?_put _ (ne_nil_of_isPlain (isPlain_of_none hget)), if_neg hm]
  · split
    · rfl
    · rw [get?_put _ (ne_nil_of_isPlain (isPlain_of_file hget)), if_neg hm]
  · rfl

/-- What a path is opened at, if it is or becomes a regular file, is one that may be written to. -/
theorem file_of_opened (h : fs.opened directory path keep = .ok (l, fs'))
    (hplain : fs.isPlain l = true) :
    ∃ mode content, fs'.get? l = some (.file mode content) ∧
      (∀ content, (Node.file mode content).mayWrite = true) ∧
      content = if keep then fs.content l else [] := by
  obtain ⟨-, ⟨hget, -, rfl⟩ | ⟨mode, content, hget, hmay, rfl⟩ | ⟨hno, -⟩⟩ := opened_cases h
  · rw [get?_put _ (ne_nil_of_isPlain (isPlain_of_none hget)), if_pos rfl, content_of_none hget,
      ite_self]
    exact ⟨_, _, rfl, fun _ => rfl, rfl⟩
  · rw [content_of_file hget]
    refine ⟨mode, _, ?_, fun _ => hmay, rfl⟩
    split
    · exact hget
    · rw [get?_put _ (ne_nil_of_isPlain (isPlain_of_file hget)), if_pos rfl]
  · simp [hplain] at hno

/-- Opening what keeps nothing has no effect. -/
theorem eq_of_opened (h : fs.opened directory path keep = .ok (l, fs'))
    (hplain : fs.isPlain l = false) : fs' = fs := by
  obtain ⟨-, ⟨hget, -, -⟩ | ⟨mode, content, hget, -, -⟩ | ⟨-, rfl⟩⟩ := opened_cases h
  · simp [isPlain_of_none hget] at hplain
  · simp [isPlain_of_file hget] at hplain
  · rfl

/-- What keeps nothing can be opened wherever a path leads to it. -/
theorem opened_of_not_isPlain {gs : FileSystem} (h : fs.opened directory path keep = .ok (l, fs'))
    (hplain : fs.isPlain l = false) (hl : gs.resolveNew directory path = .ok l)
    (hget : gs.get? l = fs.get? l) (keep' : Bool) :
    gs.opened directory path keep' = .ok (l, gs) := by
  rw [opened, resolveNew_of_opened h] at h
  rw [opened, hl]
  simp only [bind, Except.bind, hget] at h ⊢
  rcases hn : fs.get? l with _ | n
  · simp [isPlain_of_none hn] at hplain
  simp only [hn] at h ⊢
  cases n with
  | file mode content => simp [isPlain_of_file hn] at hplain
  | device d =>
    cases d with
    | terminal => cases h
    | null | full => rfl
  | link target => rfl
  | directory | tool => cases h

/-- A path that was opened is opened again at the same place, whatever has come behind the bytes of
the file. -/
theorem opened_again (h : fs.opened directory path keep = .ok (l, fs')) (bytes : Bytes) :
    (fs'.extended l bytes).opened directory path true = .ok (l, fs'.extended l bytes) := by
  have hl := resolveNew_of_opened h
  rcases hplain : fs.isPlain l with _ | _
  · have hnot (mode : Nat) (content : Bytes) : fs.get? l ≠ some (.file mode content) := by
      intro hget
      simp [isPlain_of_file hget] at hplain
    rw [eq_of_opened h hplain, extended_of_forall_ne hnot]
    exact opened_of_not_isPlain h hplain hl rfl true
  · obtain ⟨mode, content, hget, hmay, -⟩ := file_of_opened h hplain
    have hget' := get?_extended_self hget bytes
    have halike := (alike_of_opened h).trans (alike_extended fs' l bytes)
    exact opened_of_file (halike.resolveNew_ok hl) hget' (hmay _) true

/-- Where a path is opened, or why it cannot be, does not depend on whether what the file holds is
kept. -/
theorem map_fst_opened (fs : FileSystem) (directory : Location) (path : String) (keep keep' : Bool) :
    (fs.opened directory path keep).map Prod.fst = (fs.opened directory path keep').map Prod.fst := by
  rw [opened, opened]
  rcases fs.resolveNew directory path with e | l
  · rfl
  simp only [bind, Except.bind]
  split
  · split <;> rfl
  · split <;> rfl
  all_goals rfl

end FileSystem

namespace Host

/-- Opening a path for writing adds an open file, at the location and on the files that `opened`
says. -/
theorem openFile_eq (h : Host) (directory : Location) (path : String) (append : Bool) :
    h.openFile directory path append = (h.files.opened directory path append).map fun x =>
      (.file h.openFiles.length, { h with
        files := x.2
        openFiles := h.openFiles ++ [⟨x.1, 0, append, false, true⟩] }) := by
  have hcreate : (if append then Access.append else .replace) ≠ .read := by
    cases append <;> decide
  rw [openFile, openFor, if_neg hcreate, FileSystem.opened]
  rcases h.files.resolveNew directory path with e | l
  · rfl
  simp only [bind, Except.bind]
  rcases hget : h.files.get? l with _ | n
  · simp only
    split
    · cases append <;> rfl
    · rfl
  cases n with
  | file mode content =>
    have hread (b : Bool) : (if b then Access.append else .replace).reads = false := by
      cases b <;> rfl
    have hwrite (b : Bool) : (if b then Access.append else .replace).writes = true := by
      cases b <;> rfl
    have hnew (b : Bool) : (if b then Access.append else .replace) ≠ Access.create := by
      cases b <;> decide
    simp only [hread, hwrite, hnew, decide_false, Bool.false_and, Bool.true_and, Bool.false_or,
      Bool.false_eq_true, ↓reduceIte, Bool.not_eq_true']
    rcases (Node.file mode content).mayWrite with _ | _
    · rfl
    · cases append <;> rfl
  | device d => cases d <;> cases append <;> rfl
  | directory => cases append <;> rfl
  | link target => cases append <;> rfl
  | tool t => cases append <;> rfl

/-- Bytes written at the end of what a file holds. -/
theorem overwrite_at_end (content bytes : Bytes) :
    overwrite content content.length bytes = content ++ bytes := by
  simp [overwrite]

/-- Bytes written at the end of an open file come behind what the file holds. -/
theorem write_file {h : Host} {f : OpenFile} {id mode : Nat} {content bytes : Bytes}
    (hf : h.openFiles[id]? = some f) (hwritable : f.writable = true)
    (hget : h.files.get? f.location = some (.file mode content))
    (hpos : f.append = true ∨ f.position = content.length) (hne : bytes ≠ []) :
    h.write (.file id) bytes = .ok { h with
      files := h.files.extended f.location bytes
      openFiles := h.openFiles.set id { f with
        position := (if f.append then content.length else f.position) + bytes.length } } := by
  have hend : (if f.append then content.length else f.position) = content.length := by
    rcases hpos with ha | hp
    · rw [if_pos ha]
    · rw [hp, ite_self]
  rw [write, if_neg (by simpa using hne)]
  simp only [writeFile, hf, hwritable, hget, hend, overwrite_at_end, Bool.not_true,
    Bool.false_eq_true, ↓reduceIte, FileSystem.extended_of_file hget]

/-- Whatever an open file takes at its end comes behind what the file holds, if it holds
anything. -/
theorem files_write {h h' : Host} {f : OpenFile} {id : Nat} {bytes : Bytes}
    (hw : h.write (.file id) bytes = .ok h') (hf : h.openFiles[id]? = some f)
    (hpos : ∀ mode content, h.files.get? f.location = some (.file mode content) →
      f.append = true ∨ f.position = content.length) :
    h'.files = h.files.extended f.location bytes := by
  by_cases hnil : bytes = []
  · rw [hnil, write_nil] at hw
    cases hw
    rw [hnil, FileSystem.extended_nil]
  rcases hwritable : f.writable with _ | _
  · rw [write, if_neg (by simpa using hnil)] at hw
    simp [writeFile, hf, hwritable] at hw
  by_cases hfile : ∃ mode content, h.files.get? f.location = some (.file mode content)
  · obtain ⟨mode, content, hget⟩ := hfile
    rw [write_file hf hwritable hget (hpos mode content hget) hnil] at hw
    cases hw
    rfl
  · -- What is no regular file takes the bytes, or refuses them, and keeps nothing.
    simp only [not_exists] at hfile
    rw [FileSystem.extended_of_forall_ne hfile]
    rw [write, if_neg (by simpa using hnil)] at hw
    simp only [writeFile, hf, hwritable, Bool.not_true, Bool.false_eq_true, ↓reduceIte] at hw
    split at hw
    · next hget => exact absurd hget (hfile _ _)
    · cases hw
    · cases hw
      rfl

end Host

end CommandShell
