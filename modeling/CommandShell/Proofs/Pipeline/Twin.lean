import CommandShell.Process
import CommandShell.Proofs.File.Touch

/-!
# Twin hosts

Two hosts are twins for a stage if the stage cannot tell them apart: the files that it touches are
the same on both, and so are the files that it has opened, though under other numbers. What the
stage does on one of them it does on the other, and they stay twins. `Changes` says what it can
change there at all.
-/

namespace CommandShell

/-- Whether two attempts fail alike, or both succeed with results in a relation. -/
inductive Agree {α β : Type} (r : α → β → Prop) : Except Fault α → Except Fault β → Prop
  | error (f : Fault) : Agree r (.error f) (.error f)
  | ok {x : α} {y : β} : r x y → Agree r (.ok x) (.ok y)

namespace Host

/-! ## What a stage changes -/

/-- Whether a host comes from another by changes to files that may be touched and to the stage's own
open files, and by bytes that standard error receives. -/
structure Changes (touched : Location → Prop) (own : Nat → Prop) (told : Bytes) (h h' : Host) :
    Prop where
  files : ∀ l, ¬touched l → h'.files.get? l = h.files.get? l
  akin : h.files.CloselyAkin h'.files
  openFiles : ∀ id, ¬own id → h'.openFiles[id]? = h.openFiles[id]?
  error : h'.error.bytes = h.error.bytes ++ told
  rest : h' = { h with files := h'.files, openFiles := h'.openFiles, error := h'.error }

section

variable {touched : Location → Prop} {own own' : Nat → Prop} {told told' : Bytes}
  {h h' h'' : Host} {l : Location} {mode : Nat} {content : Bytes}

theorem Changes.refl (touched : Location → Prop) (own : Nat → Prop) (h : Host) :
    Changes touched own [] h h :=
  ⟨fun _ _ => rfl, .refl _, fun _ _ => rfl, by simp, rfl⟩

theorem Changes.trans (hc : Changes touched own told h h')
    (hc' : Changes touched own told' h' h'') : Changes touched own (told ++ told') h h'' := by
  refine ⟨fun l hl => (hc'.files l hl).trans (hc.files l hl), hc.akin.trans hc'.akin,
    fun id hid => (hc'.openFiles id hid).trans (hc.openFiles id hid), ?_, ?_⟩
  · rw [hc'.error, hc.error, List.append_assoc]
  · rw [hc'.rest, hc.rest]

theorem Changes.mono (hc : Changes touched own told h h') (hown : ∀ id, own id → own' id) :
    Changes touched own' told h h' :=
  ⟨hc.files, hc.akin, fun id hid => hc.openFiles id fun ho => hid (hown id ho), hc.error, hc.rest⟩

/-- A regular file may be put where one may be touched, as long as no program comes or goes. -/
theorem changes_put (htouched : touched l) (hl : h.files.isPlain l = true)
    (hprogram : (h.files.get? l).any Node.isProgram = (Node.file mode content).isProgram) :
    Changes touched own [] h { h with files := h.files.put l (.file mode content) } := by
  refine ⟨?_, FileSystem.closelyAkin_put hl hprogram, fun _ _ => rfl, by simp, rfl⟩
  intro m hm
  rw [FileSystem.get?_put _ (FileSystem.ne_nil_of_isPlain hl), if_neg]
  rintro rfl
  exact hm htouched

theorem changes_error (h : Host) (bytes : Bytes) :
    Changes touched own bytes h { h with error := h.error.add bytes } :=
  ⟨fun _ _ => rfl, .refl _, fun _ _ => rfl, by simp, rfl⟩

/-- The stage's own open files may change. -/
theorem Changes.setOpenFiles (hc : Changes touched own told h h') {fs : List OpenFile}
    (hfs : ∀ id, ¬own id → fs[id]? = h'.openFiles[id]?) :
    Changes touched own told h { h' with openFiles := fs } := by
  refine ⟨hc.files, hc.akin, fun id hid => (hfs id hid).trans (hc.openFiles id hid), hc.error, ?_⟩
  rw [hc.rest]

end

/-! ## What a stage sees -/

/-- Whether a stage sees the same on two hosts: in the files that it may touch, and in the `n` open
files that have the numbers from `a` on on the one, and from `b` on on the other. -/
structure Matches (touched : Location → Prop) (a b n : Nat) (g h : Host) : Prop where
  akin : g.files.CloselyAkin h.files
  files : ∀ l, touched l → g.files.get? l = h.files.get? l
  openFiles : ∀ k < n, g.openFiles[a + k]? = h.openFiles[b + k]?
  locations : ∀ k < n, ∀ f, g.openFiles[a + k]? = some f → g.files.isPlain f.location = true →
    touched f.location

section

variable {touched : Location → Prop} {a b n k : Nat} {g h : Host} {l : Location} {mode : Nat}
  {content : Bytes}

/-- What can be told apart stands at the same place on both hosts. -/
theorem Matches.get?_eq (hm : Matches touched a b n g h)
    (hl : g.files.isPlain l = true → touched l) : g.files.get? l = h.files.get? l := by
  rcases hplain : g.files.isPlain l with _ | _
  · exact hm.akin.alike.get?_eq hplain
  · exact hm.files l (hl hplain)

/-- The same file put on both hosts looks the same. -/
theorem Matches.put (hm : Matches touched a b n g h) (htouched : touched l)
    (hl : g.files.isPlain l = true)
    (hprogram : (g.files.get? l).any Node.isProgram = (Node.file mode content).isProgram) :
    Matches touched a b n { g with files := g.files.put l (.file mode content) }
      { h with files := h.files.put l (.file mode content) } := by
  have hl' : h.files.isPlain l = true := by rw [← hm.akin.alike.isPlain_eq, hl]
  have hakin := FileSystem.closelyAkin_put hl hprogram
  have hakin' := FileSystem.closelyAkin_put hl' (by rwa [hm.files l htouched] at hprogram)
  refine ⟨hakin.symm.trans (hm.akin.trans hakin'), ?_, hm.openFiles, ?_⟩
  · intro m hmt
    simp only [FileSystem.get?_put _ (FileSystem.ne_nil_of_isPlain hl), hm.files m hmt]
  · intro k hk f hf hplain
    rw [← hakin.alike.isPlain_eq] at hplain
    exact hm.locations k hk f hf hplain

/-- The position of the same open file set on both hosts looks the same. -/
theorem Matches.set (hm : Matches touched a b n g h) {f : OpenFile}
    (hf : g.openFiles[a + k]? = some f) (hk : k < n) (position : Nat) :
    Matches touched a b n
      { g with openFiles := g.openFiles.set (a + k) { f with position := position } }
      { h with openFiles := h.openFiles.set (b + k) { f with position := position } } := by
  have hf' := (hm.openFiles k hk).symm.trans hf
  obtain ⟨ha, -⟩ := List.getElem?_eq_some_iff.mp hf
  obtain ⟨hb, -⟩ := List.getElem?_eq_some_iff.mp hf'
  refine ⟨hm.akin, hm.files, ?_, ?_⟩
  · intro j hj
    by_cases hjk : j = k
    · subst hjk
      simp only [List.getElem?_set_self ha, List.getElem?_set_self hb]
    · rw [List.getElem?_set_ne (by omega), List.getElem?_set_ne (by omega)]
      exact hm.openFiles j hj
  · intro j hj f' hj' hplain
    by_cases hjk : j = k
    · subst hjk
      simp only [List.getElem?_set_self ha, Option.some.injEq] at hj'
      subst hj'
      exact hm.locations j hj f hf hplain
    · simp only [List.getElem?_set_ne (show a + k ≠ a + j by omega)] at hj'
      exact hm.locations j hj f' hj' hplain

/-- Nothing but files and open files is seen. -/
theorem Matches.of_eq {g' h' : Host} (hm : Matches touched a b n g h) (hg : g'.files = g.files)
    (hg' : g'.openFiles = g.openFiles) (hh : h'.files = h.files)
    (hh' : h'.openFiles = h.openFiles) : Matches touched a b n g' h' := by
  refine ⟨?_, ?_, ?_, ?_⟩
  · rw [hg, hh]
    exact hm.akin
  · rw [hg, hh]
    exact hm.files
  · rw [hg', hh']
    exact hm.openFiles
  · rw [hg, hg']
    exact hm.locations

end

/-! ## Writing on twin hosts -/

/-- Whether a handle on one host stands for the same as another on a twin, where standard output may
have been replaced by `out`. -/
inductive Twin (a b n : Nat) (out : Handle) : Handle → Handle → Prop
  | file {k : Nat} : k < n → Twin a b n out (.file (a + k)) (.file (b + k))
  | output : Twin a b n out .output out
  | error : Twin a b n out .error .error

/-- Whether the number of an open file is one of the `n` from `a` on. -/
def Among (a n id : Nat) : Prop := a ≤ id ∧ id < a + n

section

variable {touched : Location → Prop} {a b n k : Nat} {out x y : Handle} {g h : Host}

/-- Whether the same was done on two hosts that look the same. -/
structure Step (touched : Location → Prop) (a b n : Nat) (g h g' h' : Host) : Prop where
  seen : Matches touched a b n g' h'
  left : g'.openFiles.length = g.openFiles.length
  right : h'.openFiles.length = h.openFiles.length
  changes : ∃ told, Changes touched (Among a n) told g g' ∧ Changes touched (Among b n) told h h'

theorem Matches.step_refl (hm : Matches touched a b n g h) : Step touched a b n g h g h :=
  ⟨hm, rfl, rfl, [], .refl .., .refl ..⟩

theorem Step.trans {g' h' g'' h'' : Host} (hs : Step touched a b n g h g' h')
    (hs' : Step touched a b n g' h' g'' h'') : Step touched a b n g h g'' h'' := by
  obtain ⟨told, hg, hh⟩ := hs.changes
  obtain ⟨told', hg', hh'⟩ := hs'.changes
  exact ⟨hs'.seen, hs'.left.trans hs.left, hs'.right.trans hs.right, told ++ told',
    hg.trans hg', hh.trans hh'⟩

/-- Writing to the same open file has the same effect. -/
theorem Matches.writeFile (hm : Matches touched a b n g h) (hk : k < n) (bytes : Bytes) :
    Agree (Step touched a b n g h) (g.writeFile (a + k) bytes) (h.writeFile (b + k) bytes) := by
  have hopen := hm.openFiles k hk
  rw [Host.writeFile, Host.writeFile, ← hopen]
  rcases hf : g.openFiles[a + k]? with _ | f
  · exact .error _
  have hget := hm.get?_eq (hm.locations k hk f hf)
  simp only [← hget]
  by_cases hw : (!f.writable) = true
  · rw [if_pos hw, if_pos hw]
    exact .error _
  rw [if_neg hw, if_neg hw]
  rcases hnode : g.files.get? f.location with _ | node
  · exact .ok hm.step_refl
  cases node with
  | file mode content =>
    have hplain := FileSystem.isPlain_of_file hnode
    have hplain' := FileSystem.isPlain_of_file (hget.symm.trans hnode)
    have htouched := hm.locations k hk f hf hplain
    -- Only the position of the file that is written to changes.
    have hown (a : Nat) (id : Nat) (hid : ¬Among a n id) : a + k ≠ id := fun heq =>
      hid ⟨by omega, by omega⟩
    refine .ok ⟨(hm.put htouched hplain (by rw [hnode]; rfl)).set hf hk _, by simp, by simp, [],
      ?_, ?_⟩
    · refine (changes_put htouched hplain (by rw [hnode]; rfl)).setOpenFiles ?_
      intro id hid
      exact List.getElem?_set_ne (hown a id hid)
    · refine (changes_put htouched hplain' (by rw [← hget, hnode]; rfl)).setOpenFiles
        ?_
      intro id hid
      exact List.getElem?_set_ne (hown b id hid)
  | device d =>
    cases d with
    | full => exact .error _
    | _ => exact .ok hm.step_refl
  | _ => exact .ok hm.step_refl

/-- Writing to twin handles has the same effect, unless standard output was replaced. -/
theorem Matches.write (hm : Matches touched a b n g h) (hxy : Twin a b n out x y)
    (hx : x ≠ .output) (bytes : Bytes) :
    Agree (Step touched a b n g h) (g.write x bytes) (h.write y bytes) := by
  simp only [Host.write]
  split
  · exact .ok hm.step_refl
  cases hxy with
  | file hk => exact hm.writeFile hk bytes
  | output => exact absurd rfl hx
  | error =>
    refine .ok ⟨?_, rfl, rfl, bytes, changes_error g _, changes_error h _⟩
    exact hm.of_eq rfl rfl rfl rfl

/-- Writing a line to twin handles has the same effect, be there nothing to be done about a
failure. -/
theorem Matches.tryWriteLine (hm : Matches touched a b n g h) (hxy : Twin a b n out x y)
    (hx : x ≠ .output) (line : String) :
    Step touched a b n g h (g.tryWriteLine x line) (h.tryWriteLine y line) := by
  have hwrite := hm.write hxy hx (Text.encode (line ++ "\n"))
  rw [Host.tryWriteLine, Host.tryWriteLine, tryWrite, tryWrite]
  generalize g.write x _ = l at hwrite ⊢
  generalize h.write y _ = r at hwrite ⊢
  cases hwrite with
  | error f => exact hm.step_refl
  | ok hstep => exact hstep

end

end Host

/-! ## Telling on twin hosts -/

namespace Process

variable {touched : Location → Prop} {a b n : Nat} {g h : Host} {p q : Process}

/-- Complaints are the same on twin hosts. -/
theorem complain_step (hm : Host.Matches touched a b n g h)
    (hp : p.descriptors.get? 2 = some .error) (hq : q.descriptors.get? 2 = some .error)
    (line : String) : Host.Step touched a b n g h (p.complain g line) (q.complain h line) := by
  rw [complain, complain, hp, hq]
  have htwin : Host.Twin a b n .output .error .error := .error
  exact hm.tryWriteLine htwin (by simp) line

/-- Notices are the same on twin hosts. -/
theorem tell_step (hm : Host.Matches touched a b n g h)
    (hp : p.descriptors.get? 2 = some .error) (hq : q.descriptors.get? 2 = some .error)
    (hfilter : q.filter = p.filter) (notice : Notice) :
    Host.Step touched a b n g h (p.tell g notice) (q.tell h notice) := by
  rw [tell, tell, hfilter]
  split
  · exact complain_step hm hp hq _
  · exact hm.step_refl

end Process

end CommandShell
