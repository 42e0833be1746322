import CommandShell.History
import CommandShell.Streams
import CommandShell.Proofs.Pipeline.Twin

/-!
# Opening files on twin hosts

A stage that begins opens files one after another, each with the next free number. `Host.Twins`
follows it on two hosts at once, from where it began on each of them.
-/

namespace CommandShell

namespace Host

/-- Whether a stage that began on the twin hosts `g₀` and `h₀` has done the same on both, and has
opened `n` files. -/
structure Twins (touched : Location → Prop) (g₀ h₀ : Host) (n : Nat) (g h : Host) : Prop where
  seen : Matches touched g₀.openFiles.length h₀.openFiles.length n g h
  left : g.openFiles.length = g₀.openFiles.length + n
  right : h.openFiles.length = h₀.openFiles.length + n
  changes : ∃ told, Changes touched (g₀.openFiles.length ≤ ·) told g₀ g ∧
    Changes touched (h₀.openFiles.length ≤ ·) told h₀ h

variable {touched : Location → Prop} {g₀ h₀ g h g' h' : Host} {n : Nat} {directory l : Location}
  {path : String}

/-- A stage can begin on hosts that agree on the files that it touches. -/
theorem twins_refl (hakin : g₀.files.CloselyAkin h₀.files)
    (hfiles : ∀ l, touched l → g₀.files.get? l = h₀.files.get? l) :
    Twins touched g₀ h₀ 0 g₀ h₀ :=
  ⟨⟨hakin, hfiles, fun k hk => absurd hk (by omega), fun k hk => absurd hk (by omega)⟩, by simp,
    by simp, [], .refl .., .refl ..⟩

/-- Twin hosts stay twins when the stage does the same on both. -/
theorem Twins.step (ht : Twins touched g₀ h₀ n g h)
    (hs : Step touched g₀.openFiles.length h₀.openFiles.length n g h g' h') :
    Twins touched g₀ h₀ n g' h' := by
  obtain ⟨told, hg, hh⟩ := ht.changes
  obtain ⟨told', hg', hh'⟩ := hs.changes
  exact ⟨hs.seen, hs.left.trans ht.left, hs.right.trans ht.right, told ++ told',
    hg.trans (hg'.mono fun _ hid => hid.1), hh.trans (hh'.mono fun _ hid => hid.1)⟩

/-- Twin hosts stay twins when the same file is put on both. -/
theorem Twins.put {mode : Nat} {content : Bytes} (ht : Twins touched g₀ h₀ n g h)
    (htouched : touched l) (hl : g.files.isPlain l = true)
    (hprogram : (g.files.get? l).any Node.isProgram = (Node.file mode content).isProgram) :
    Twins touched g₀ h₀ n { g with files := g.files.put l (.file mode content) }
      { h with files := h.files.put l (.file mode content) } := by
  have hl' : h.files.isPlain l = true := by rw [← ht.seen.akin.alike.isPlain_eq, hl]
  have hprogram' : (h.files.get? l).any Node.isProgram = (Node.file mode content).isProgram := by
    rwa [← ht.seen.files l htouched]
  obtain ⟨told, hg, hh⟩ := ht.changes
  refine ⟨ht.seen.put htouched hl hprogram, ht.left, ht.right, told ++ [], ?_, ?_⟩
  · exact hg.trans (changes_put htouched hl hprogram)
  · exact hh.trans (changes_put htouched hl' hprogram')

/-- Twin hosts stay twins when the same file is opened on both. -/
theorem Twins.addOpen (ht : Twins touched g₀ h₀ n g h)
    (htouched : g.files.isPlain l = true → touched l) (access : Access) :
    Twins touched g₀ h₀ (n + 1) (g.addOpen l access).2 (h.addOpen l access).2 := by
  have hleft := ht.left
  have hright := ht.right
  obtain ⟨told, hg, hh⟩ := ht.changes
  refine ⟨⟨ht.seen.akin, ht.seen.files, ?_, ?_⟩, ?_, ?_,
    told, ?_, ?_⟩
  · intro k hk
    simp only [Host.addOpen]
    by_cases hkn : k = n
    · rw [hkn, ← hleft, ← hright, List.getElem?_concat_length, List.getElem?_concat_length]
    · rw [List.getElem?_append_left (by omega), List.getElem?_append_left (by omega)]
      exact ht.seen.openFiles k (by omega)
  · intro k hk f hf hplain
    simp only [Host.addOpen] at hf
    by_cases hkn : k = n
    · rw [hkn, ← hleft, List.getElem?_concat_length, Option.some.injEq] at hf
      rw [← hf] at hplain ⊢
      exact htouched hplain
    · rw [List.getElem?_append_left (by omega)] at hf
      exact ht.seen.locations k (by omega) f hf hplain
  · simp only [Host.addOpen, List.length_append, List.length_singleton]
    omega
  · simp only [Host.addOpen, List.length_append, List.length_singleton]
    omega
  · exact hg.setOpenFiles fun id hid => List.getElem?_append_left (by omega)
  · exact hh.setOpenFiles fun id hid => List.getElem?_append_left (by omega)

/-- What opening a file on twin hosts comes to: the next open file of the stage. -/
def Opens (touched : Location → Prop) (g₀ h₀ : Host) (n : Nat) (x y : Handle × Host) : Prop :=
  x.1 = .file (g₀.openFiles.length + n) ∧ y.1 = .file (h₀.openFiles.length + n) ∧
    Twins touched g₀ h₀ (n + 1) x.2 y.2

/-- Opening the file at a location on twin hosts. -/
theorem Twins.opens (ht : Twins touched g₀ h₀ n g h)
    (htouched : g.files.isPlain l = true → touched l) (access : Access) :
    Opens touched g₀ h₀ n (g.addOpen l access) (h.addOpen l access) :=
  ⟨congrArg Handle.file ht.left, congrArg Handle.file ht.right, ht.addOpen htouched access⟩

/-- A path touches on the way what it touched at first. -/
theorem Twins.get?_touched? (ht : Twins touched g₀ h₀ n g h)
    (htouched : ∀ l ∈ g₀.files.touched? directory path, touched l) :
    ∀ l ∈ g.files.touched? directory path, g.files.get? l = h.files.get? l := by
  obtain ⟨told, hg, -⟩ := ht.changes
  rw [hg.akin.alike.touched?_eq] at htouched
  exact fun l hl => ht.seen.files l (htouched l hl)

/-- Opening a file on twin hosts has the same effect. -/
theorem Twins.openFile (ht : Twins touched g₀ h₀ n g h)
    (htouched : ∀ l ∈ g₀.files.touched? directory path, touched l) (append : Bool) :
    Agree (Opens touched g₀ h₀ n) (g.openFile directory path append)
      (h.openFile directory path append) := by
  have hread : (if append then Access.append else .replace) ≠ .read := by
    cases append <;> decide
  have hfollow : g.files.resolveNew directory path = h.files.resolveNew directory path :=
    ht.seen.akin.alike.follow_eq (ht.get?_touched? htouched) true
  simp only [Host.openFile, openFor, if_neg hread, ← hfollow]
  rcases hl : g.files.resolveNew directory path with e | l
  · exact .error e
  -- What a stage opens it touches, and so it finds the same there on both hosts.
  have hplain (hp : g.files.isPlain l = true) : touched l := by
    obtain ⟨told, hg, -⟩ := ht.changes
    apply htouched l
    rw [hg.akin.alike.touched?_eq]
    exact FileSystem.mem_touched?_of_follow hl hp
  simp only [bind, Except.bind, ← ht.seen.get?_eq hplain]
  rcases hget : g.files.get? l with _ | n
  · simp only [ht.seen.akin.isOpen_eq]
    split
    · have hp := FileSystem.isPlain_of_none hget
      have hprogram : (g.files.get? l).any Node.isProgram =
          (Node.file newFileMode []).isProgram := by
        rw [hget]
        rfl
      have hput := ht.put (hplain hp) hp hprogram
      exact .ok (hput.opens (fun _ => hplain hp) _)
    · exact .error _
  cases n with
  | directory => cases append <;> exact .error _
  | link target => cases append <;> exact .ok (ht.opens hplain _)
  | tool t => cases append <;> exact .error _
  | device d => cases d <;> cases append <;> first | exact .error _ | exact .ok (ht.opens hplain _)
  | file mode content =>
    have hp := FileSystem.isPlain_of_file hget
    have hprogram : (g.files.get? l).any Node.isProgram = (Node.file mode []).isProgram := by
      rw [hget]
      rfl
    have hput := ht.put (hplain hp) hp hprogram
    rcases hmay : (Node.file mode content).mayWrite with _ | _
    · cases append <;> simp only [hmay] <;> exact .error _
    cases append with
    | false =>
      simp only [hmay]
      exact .ok (hput.opens (fun _ => hplain hp) _)
    | true =>
      simp only [hmay]
      exact .ok (ht.opens hplain _)

end Host

/-! ## Saving entries -/

namespace History

variable {touched : Location → Prop} {g₀ h₀ g h : Host} {n : Nat} {directory : Location}
  {path : String}

/-- Entries are saved with the same effect on twin hosts. -/
theorem save_twins (ht : Host.Twins touched g₀ h₀ n g h)
    (htouched : ∀ l ∈ g₀.files.touched? directory path, touched l) (entries : List String)
    (append : Bool) :
    (save entries h directory path append).1 = (save entries g directory path append).1 ∧
      ∃ n', n ≤ n' ∧ Host.Twins touched g₀ h₀ n' (save entries g directory path append).2
        (save entries h directory path append).2 := by
  have hopen := ht.openFile htouched append
  simp only [save]
  generalize g.openFile directory path append = left at hopen ⊢
  generalize h.openFile directory path append = right at hopen ⊢
  cases hopen with
  | error f => exact ⟨rfl, n, Nat.le_refl n, ht⟩
  | @ok x y hxy =>
    obtain ⟨handle, g'⟩ := x
    obtain ⟨handle', h'⟩ := y
    obtain ⟨rfl, rfl, ht'⟩ := hxy
    have htwin : Host.Twin g₀.openFiles.length h₀.openFiles.length (n + 1) .output
        (.file (g₀.openFiles.length + n)) (.file (h₀.openFiles.length + n)) :=
      .file (Nat.lt_succ_self n)
    have hwrite := ht'.seen.write htwin (by simp) (Text.encode (textOf entries))
    simp only
    generalize Host.write g' _ _ = left at hwrite ⊢
    generalize Host.write h' _ _ = right at hwrite ⊢
    cases hwrite with
    | error f => exact ⟨rfl, n + 1, by omega, ht'⟩
    | ok hstep => exact ⟨rfl, n + 1, by omega, ht'.step hstep⟩

/-- Entries are read alike on twin hosts. -/
theorem read_twins (ht : Host.Twins touched g₀ h₀ n g h)
    (htouched : ∀ l ∈ g₀.files.touched? directory path, touched l) (history : History) :
    history.read h directory path = history.read g directory path := by
  have hread := ht.seen.akin.alike.read_eq (ht.get?_touched? htouched)
  simp only [read, hread]

end History

/-! ## Opening redirections -/

/-- Whether two processes with a filter of notices differ at most in their numbers and in their
descriptors, and have the session's standard error in common. Where the one has standard output, the
other has `out`. -/
structure Process.Twins (filter : Filter) (out : Handle) (p q : Process) : Prop where
  directory : q.directory = p.directory
  filter : p.filter = filter ∧ q.filter = filter
  output : p.descriptors.get? 1 = some .output ∧ q.descriptors.get? 1 = some out
  error : p.descriptors.get? 2 = some .error ∧ q.descriptors.get? 2 = some .error

namespace Streams

/-- The paths of redirections that are opened, up to the first that cannot be. -/
def opened (p : Process) : Host → List Redirection → List String
  | _, [] => []
  | h, r :: rs =>
    if r.target = .unknown then opened p (p.tell h (skipped r)) rs
    else
      r.path :: match h.openFile p.directory r.path r.append with
        | .ok (_, h) => opened p h rs
        | .error _ => []

/-- Whether two handles stand for the same of the `n` open files of a stage. -/
def SameFile (a b n : Nat) (x y : Handle) : Prop := ∃ k < n, x = .file (a + k) ∧ y = .file (b + k)

/-- Whether two streams go to the same open files of a stage. -/
structure Twins (a b n : Nat) (s t : Streams) : Prop where
  output : Option.Rel (SameFile a b n) s.output t.output
  error : Option.Rel (SameFile a b n) s.error t.error
  valid : t.valid = s.valid

variable {a b n n' : Nat} {s t : Streams}

theorem twins_inherited (a b n : Nat) : Twins a b n inherited inherited := ⟨.none, .none, rfl⟩

theorem SameFile.isSome_eq {x y : Option Handle} (h : Option.Rel (SameFile a b n) x y) :
    y.isSome = x.isSome := by
  cases h <;> rfl

theorem SameFile.mono {x y : Option Handle} (h : Option.Rel (SameFile a b n) x y) (hn : n ≤ n') :
    Option.Rel (SameFile a b n') x y := by
  cases h with
  | none => exact .none
  | some h =>
    obtain ⟨k, hk, hx, hy⟩ := h
    exact .some ⟨k, by omega, hx, hy⟩

theorem Twins.mono (h : Twins a b n s t) (hn : n ≤ n') : Twins a b n' s t :=
  ⟨SameFile.mono h.output hn, SameFile.mono h.error hn, h.valid⟩

/-- Streams that are redirected to the next open file stay twins. -/
theorem Twins.redirect (h : Twins a b n s t) (target : Target) :
    Twins a b (n + 1) (s.redirect target (.file (a + n))) (t.redirect target (.file (b + n))) := by
  have hnext : Option.Rel (SameFile a b (n + 1)) (some (.file (a + n))) (some (.file (b + n))) :=
    .some ⟨n, by omega, rfl, rfl⟩
  have hmono := h.mono (Nat.le_succ n)
  cases target with
  | output => exact ⟨hnext, hmono.error, hmono.valid⟩
  | error => exact ⟨hmono.output, hnext, hmono.valid⟩
  | unknown => exact hmono

variable {touched : Location → Prop} {g₀ h₀ : Host} {filter : Filter} {out : Handle}
  {p q : Process}

/-- Redirections are opened with the same effect on twin hosts. -/
theorem openFrom_twins (hp : p.Twins filter out q) {g h : Host}
    (ht : Host.Twins touched g₀ h₀ n g h)
    (hs : Twins g₀.openFiles.length h₀.openFiles.length n s t) {rs : List Redirection}
    (htouched : ∀ path ∈ opened p g rs, ∀ l ∈ g₀.files.touched? p.directory path, touched l) :
    ∃ n', Twins g₀.openFiles.length h₀.openFiles.length n' (openFrom p s g rs).1
        (openFrom q t h rs).1 ∧
      Host.Twins touched g₀ h₀ n' (openFrom p s g rs).2 (openFrom q t h rs).2 := by
  induction rs generalizing n g h s t with
  | nil => exact ⟨n, hs, ht⟩
  | cons r rs ih =>
    rw [opened] at htouched
    rw [openFrom, openFrom, hp.directory]
    split
    · next hunknown =>
      rw [if_pos hunknown] at htouched
      have hfilter : q.filter = p.filter := hp.filter.2.trans hp.filter.1.symm
      have hstep := Process.tell_step ht.seen hp.error.1 hp.error.2 hfilter (skipped r)
      exact ih (ht.step hstep) hs htouched
    · next hknown =>
      rw [if_neg hknown, List.forall_mem_cons] at htouched
      have hopen := ht.openFile htouched.1 r.append
      have hrest := htouched.2
      generalize g.openFile p.directory r.path r.append = left at hopen hrest ⊢
      generalize h.openFile p.directory r.path r.append = right at hopen ⊢
      cases hopen with
      | error f =>
        have hstep :=
          Process.complain_step ht.seen hp.error.1 hp.error.2 (r.path ++ ": " ++ f.brief)
        exact ⟨n, ⟨hs.output, hs.error, rfl⟩, ht.step hstep⟩
      | @ok x y hxy =>
        obtain ⟨file, g'⟩ := x
        obtain ⟨file', h'⟩ := y
        obtain ⟨rfl, rfl, ht'⟩ := hxy
        exact ih ht' (hs.redirect r.target) hrest

/-- Redirections of a stage are opened with the same effect on twin hosts. -/
theorem ofRedirections_twins (hp : p.Twins filter out q) (ht : Host.Twins touched g₀ h₀ 0 g₀ h₀)
    {rs : List Redirection}
    (htouched : ∀ path ∈ opened p g₀ rs, ∀ l ∈ g₀.files.touched? p.directory path, touched l) :
    ∃ n, Twins g₀.openFiles.length h₀.openFiles.length n (ofRedirections p g₀ rs).1
        (ofRedirections q h₀ rs).1 ∧
      Host.Twins touched g₀ h₀ n (ofRedirections p g₀ rs).2 (ofRedirections q h₀ rs).2 :=
  openFrom_twins hp ht (twins_inherited ..) htouched

end Streams

end CommandShell
