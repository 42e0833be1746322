import Mathlib.Algebra.GroupWithZero.Nat
import CommandShell.Program.Schedule
import CommandShell.Proofs.Pipeline.Begin

/-!
# Writing on twin hosts

A process that writes what a stage has to write does so piece by piece, and may have to wait for
room in a pipe. `Writer.Follows.step` compares it with the stage that writes all at once: each step
of the process leads to what the stage does at some time, unless the pipe refuses the bytes because
nobody is left to read them.
-/

namespace CommandShell

/-- Whether the next thing that a process does is a write that a pipe refuses because nobody holds
its read end. -/
def Running.isRefused (r : Running) (h : Host) : Bool :=
  match r with
  | .writer ⟨_, _, ⟨some handle, bytes, _, _⟩ :: _, _⟩ =>
    match h.send handle bytes with
    | .error f => f = .brokenPipe
    | .ok _ => false
  | _ => false

namespace Host

/-- Whether no signal is on its way on a host, and new processes have numbers of their own. -/
structure IsSettled (h : Host) : Prop where
  signals : h.signals = []
  fresh : ∀ e ∈ h.endings, e.1 < h.nextProcess

/-- A host is settled when it starts. -/
theorem isSettled_start (files : FileSystem) (input : Bytes) (exported : List (String × String)) :
    (Host.start files input exported).IsSettled :=
  ⟨rfl, fun _ he => by cases he⟩

/-! ## What a process does to the host -/

/-- Whether a process may have made a host out of another: it touched some files and some of the
open files, `told` something on standard error, showed something on standard output, and may have
written to pipes. -/
structure Acts (touched : Location → Prop) (own : Nat → Prop) (told shown : Bytes) (h h' : Host) :
    Prop where
  files : ∀ l, ¬touched l → h'.files.get? l = h.files.get? l
  akin : h.files.CloselyAkin h'.files
  openFiles : ∀ id, ¬own id → h'.openFiles[id]? = h.openFiles[id]?
  error : h'.error.bytes = h.error.bytes ++ told
  output : h'.output.bytes = h.output.bytes ++ shown
  pipes : h'.pipes.length = h.pipes.length
  signals : h'.signals = h.signals
  endings : h'.endings = h.endings
  nextProcess : h'.nextProcess = h.nextProcess

section

variable {touched : Location → Prop} {own own' : Nat → Prop} {told told' shown shown' : Bytes}
  {h h' h'' : Host}

theorem Acts.trans (ha : Acts touched own told shown h h')
    (ha' : Acts touched own told' shown' h' h'') :
    Acts touched own (told ++ told') (shown ++ shown') h h'' := by
  refine ⟨fun l hl => (ha'.files l hl).trans (ha.files l hl), ha.akin.trans ha'.akin,
    fun id hid => (ha'.openFiles id hid).trans (ha.openFiles id hid), ?_, ?_,
    ha'.pipes.trans ha.pipes, ha'.signals.trans ha.signals, ha'.endings.trans ha.endings,
    ha'.nextProcess.trans ha.nextProcess⟩
  · rw [ha'.error, ha.error, List.append_assoc]
  · rw [ha'.output, ha.output, List.append_assoc]

theorem Acts.mono (ha : Acts touched own told shown h h') (hown : ∀ id, own id → own' id) :
    Acts touched own' told shown h h' :=
  { ha with openFiles := fun id hid => ha.openFiles id fun ho => hid (hown id ho) }

theorem Acts.isSettled (ha : Acts touched own told shown h h') (hs : h.IsSettled) :
    h'.IsSettled := by
  refine ⟨ha.signals.trans hs.signals, ?_⟩
  rw [ha.endings, ha.nextProcess]
  exact hs.fresh

theorem Changes.acts (hc : Changes touched own told h h') : Acts touched own told [] h h' := by
  refine ⟨hc.files, hc.akin, hc.openFiles, hc.error, ?_, ?_, ?_, ?_, ?_⟩ <;> rw [hc.rest]
  rw [List.append_nil]

theorem acts_refl (touched : Location → Prop) (own : Nat → Prop) (h : Host) :
    Acts touched own [] [] h h :=
  (Changes.refl touched own h).acts

theorem acts_output (h : Host) (bytes : Bytes) :
    Acts touched own [] bytes h { h with output := h.output.add bytes } :=
  ⟨fun _ _ => rfl, .refl _, fun _ _ => rfl, by simp, by simp, rfl, rfl, rfl, rfl⟩

theorem acts_pipes {pipes : List Pipe} (hp : pipes.length = h.pipes.length) :
    Acts touched own [] [] h { h with pipes := pipes } :=
  ⟨fun _ _ => rfl, .refl _, fun _ _ => rfl, by simp, by simp, hp, rfl, rfl, rfl⟩

end

/-- What is sent to anything but a pipe is written at once. -/
theorem send_eq_write {handle : Handle} (hp : ∀ id, handle ≠ .pipeWriter id) (h : Host)
    (bytes : Bytes) : h.send handle bytes = (h.write handle bytes).map fun h => (h, []) := by
  simp only [send, write]
  split
  · rfl
  cases handle with
  | pipeWriter id => exact absurd rfl (hp id)
  | _ => rfl

end Host

namespace Emission

/-- What writing some texts at once comes to: the status, which is the given one unless a failure
ended it, and the host. -/
def outcome (p : Process) (error : Option Handle) (es : List Emission) (status : Status)
    (h : Host) : Status × Host :=
  (if (writeAll p error es h).1 then status else .failed, (writeAll p error es h).2)

/-- Whether an emission is what is left of another on a corresponding handle. What was to go to
standard output is not compared if something else takes its place. -/
structure Rest (a b n : Nat) (out : Handle) (e e' : Emission) : Prop where
  handle : ∃ x y, e.handle = some x ∧ e'.handle = some y ∧ Host.Twin a b n out x y
  bytes : e'.bytes = e.bytes ∨ e.handle = some .output ∧ out ≠ .output
  care : e'.care = e.care
  keeper : e'.keeper = e.keeper

variable {a b n : Nat} {out : Handle} {e e' : Emission} {p q : Process}
  {error error' : Option Handle} {g h : Host} {touched : Location → Prop}

theorem Twins.rest (h : e.Twins a b n out e') : e.Rest a b n out e' :=
  ⟨h.handle, .inl h.bytes, h.care, h.keeper⟩

/-- A failure is told alike on twin hosts. -/
theorem tellFault_step (he : e.Rest a b n out e') (hm : Host.Matches touched a b n g h)
    (herror : Host.TwinError a b n error error') (hp : p.descriptors.get? 2 = some .error)
    (hq : q.descriptors.get? 2 = some .error) (hfilter : q.filter = p.filter) (f : Fault) :
    Host.Step touched a b n g h (e.tellFault p error g f) (e'.tellFault q error' h f) := by
  have hcared : Host.Step touched a b n g h ({ e with keeper := none }.tellFault p error g f)
      ({ e' with keeper := none }.tellFault q error' h f) := by
    simp only [tellFault, he.care]
    cases herror with
    | none => cases e.care <;> exact hm.step_refl
    | some hxy =>
      cases e.care with
      | tell => exact hm.tryWriteLine hxy.2 hxy.1 f.message
      | _ => exact hm.step_refl
  simp only [tellFault, he.keeper] at hcared ⊢
  cases e.keeper with
  | none => exact hcared
  | some command => exact hcared.trans (Process.tell_step hcared.seen hp hq hfilter _)

/-! ## What is left to be written -/

/-- A text that is written leaves the others. -/
theorem outcome_cons_ok {es : List Emission} (hw : e.write g = .ok h) (status : Status) :
    outcome p error (e :: es) status g = outcome p error es status h := by
  simp only [outcome, writeAll, hw]

/-- A text that cannot be written leaves the others, or nothing if the builtin fails with it. -/
theorem outcome_cons_error {es : List Emission} {f : Fault} (hw : e.write g = .error f)
    (status : Status) :
    outcome p error (e :: es) status g =
      if e.care = .ignore then outcome p error es status (e.tellFault p error g f)
      else outcome p error [] .failed (e.tellFault p error g f) := by
  simp only [outcome, writeAll, hw]
  by_cases hcare : e.care = .ignore
  · simp only [if_pos hcare]
  · simp only [if_neg hcare]
    rfl

end Emission

namespace Writer

/-- How much a process has still to write. -/
def size (w : Writer) : Nat := (w.emissions.map fun e => e.bytes.length + 1).sum

/-- Whether a process on a host writes what a stage that writes at once has still to write on a twin
host, where the stage is to end with a status. -/
structure Follows (touched : Location → Prop) (a b n : Nat) (out : Handle) (p : Process)
    (error : Option Handle) (w : Writer) (es : List Emission) (status : Status) (g h : Host) :
    Prop where
  seen : Host.Matches touched a b n g h
  emissions : List.Forall₂ (Emission.Rest a b n out) es w.emissions
  error : Host.TwinError a b n error w.error
  filter : w.process.filter = p.filter
  alone : p.descriptors.get? 2 = some .error
  own : w.process.descriptors.get? 2 = some .error
  status : w.status = status.lowByte.toNat

/-- Each text that is left is what is left of one of the stage's. -/
theorem Follows.exists_rest {touched : Location → Prop} {a b n : Nat} {out : Handle} {p : Process}
    {error : Option Handle} {w : Writer} {es : List Emission} {status : Status} {g h : Host}
    (hf : w.Follows touched a b n out p error es status g h) {e' : Emission}
    (he' : e' ∈ w.emissions) : ∃ e, Emission.Rest a b n out e e' := by
  have hes := hf.emissions
  generalize w.emissions = es' at hes he'
  clear hf
  induction hes with
  | nil => cases he'
  | cons he _ ih =>
    rcases List.mem_cons.mp he' with rfl | he'
    · exact ⟨_, he⟩
    · exact ih he'

/-- Whether a process goes on as it should: it has less to write, and follows the stage that has
come further on its host. -/
def GoesOn (touched : Location → Prop) (a b n : Nat) (out : Handle) (p : Process)
    (error : Option Handle) (w : Writer) (es : List Emission) (status : Status) (g h : Host)
    (w' : Writer) (h' : Host) : Prop :=
  w'.process = w.process ∧ w'.size < w.size ∧ h'.openFiles.length = h.openFiles.length ∧
    ∃ es' status' g' told shown shown', w'.Follows touched a b n out p error es' status' g' h' ∧
      Emission.outcome p error es' status' g' = Emission.outcome p error es status g ∧
      Host.Acts touched (Host.Among a n) told shown g g' ∧
      Host.Acts touched (Host.Among b n) told shown' h h' ∧
      (out = .output → shown' = shown) ∧ (out ≠ .output → shown' = [])

variable {touched : Location → Prop} {a b n : Nat} {out : Handle} {p : Process}
  {error : Option Handle} {w : Writer} {es left : List Emission} {e e' : Emission}
  {status : Status} {g h g' h' : Host}

/-- A process that wrote a text goes on. -/
theorem Follows.goesOn_left (hf : w.Follows touched a b n out p error (e :: es) status g h)
    (hw : w.emissions = e' :: left) (hs : Host.Step touched a b n g h g' h')
    (hwrite : e.write g = .ok g') :
    GoesOn touched a b n out p error w (e :: es) status g h { w with emissions := left } h' := by
  obtain ⟨told, hg, hh⟩ := hs.changes
  have hrest := hf.emissions
  rw [hw, List.forall₂_cons] at hrest
  refine ⟨rfl, by simp [size, hw], hs.right, es, status, g', told, [], [], ?_, ?_, hg.acts,
    hh.acts, fun _ => rfl, fun _ => rfl⟩
  · exact ⟨hs.seen, hrest.2, hf.error, hf.filter, hf.alone, hf.own, hf.status⟩
  · exact (Emission.outcome_cons_ok hwrite status).symm

/-- A process that could not write a text goes on. -/
theorem Follows.goesOn_fail (hf : w.Follows touched a b n out p error (e :: es) status g h)
    (hw : w.emissions = e' :: left) {f : Fault} (hwrite : e.write g = .error f) :
    ∃ w' h', w.fail h f e' left = .goOn (.writer w') h' ∧
      GoesOn touched a b n out p error w (e :: es) status g h w' h' := by
  have hrest := hf.emissions
  rw [hw, List.forall₂_cons] at hrest
  obtain ⟨he, hes⟩ := hrest
  have hs := Emission.tellFault_step he hf.seen hf.error hf.alone hf.own hf.filter f
  obtain ⟨told, hg, hh⟩ := hs.changes
  simp only [fail, he.care]
  by_cases hcare : e.care = .ignore
  · rw [if_pos hcare]
    refine ⟨_, _, rfl, rfl, by simp [size, hw], hs.right, es, status, e.tellFault p error g f, told,
      [], [], ?_, ?_, hg.acts, hh.acts, fun _ => rfl, fun _ => rfl⟩
    · exact ⟨hs.seen, hes, hf.error, hf.filter, hf.alone, hf.own, hf.status⟩
    · rw [Emission.outcome_cons_error hwrite, if_pos hcare]
  · rw [if_neg hcare]
    have hsize : 0 < w.size := by
      rw [size, hw, List.map_cons, List.sum_cons]
      omega
    refine ⟨_, _, rfl, rfl, hsize, hs.right, [], .failed, e.tellFault p error g f, told,
      [], [], ?_, ?_, hg.acts, hh.acts, fun _ => rfl, fun _ => rfl⟩
    · exact ⟨hs.seen, .nil, hf.error, hf.filter, hf.alone, hf.own, rfl⟩
    · rw [Emission.outcome_cons_error hwrite, if_neg hcare]

/-- A process whose pipe took some of a text goes on. -/
theorem Follows.goesOn_pipe (hf : w.Follows touched a b n out p error (e :: es) status g h)
    (hw : w.emissions = e' :: left) (houtput : e.handle = some .output) (hout : out ≠ .output)
    {rest : Bytes} (hrest : rest.length < e'.bytes.length) {pipes : List Pipe}
    (hp : pipes.length = h.pipes.length) :
    GoesOn touched a b n out p error w (e :: es) status g h
      { w with emissions := { e' with bytes := rest } :: left } { h with pipes := pipes } := by
  have hes := hf.emissions
  rw [hw, List.forall₂_cons] at hes
  obtain ⟨he, hes⟩ := hes
  refine ⟨rfl, by simpa [size, hw] using hrest, rfl, e :: es, status, g, [], [], [], ?_, rfl,
    Host.acts_refl .., Host.acts_pipes hp, fun _ => rfl, fun _ => rfl⟩
  refine ⟨hf.seen.of_eq rfl rfl rfl rfl, ?_, hf.error, hf.filter, hf.alone, hf.own, hf.status⟩
  exact .cons ⟨he.handle, .inr ⟨houtput, hout⟩, he.care, he.keeper⟩ hes

/-- A process whose pipe took all of a text goes on. -/
theorem Follows.goesOn_taken (hf : w.Follows touched a b n out p error (e :: es) status g h)
    (hw : w.emissions = e' :: left) (houtput : e.handle = some .output) (hout : out ≠ .output)
    {pipes : List Pipe} (hp : pipes.length = h.pipes.length) :
    GoesOn touched a b n out p error w (e :: es) status g h
      { w with emissions := left } { h with pipes := pipes } := by
  have hes := hf.emissions
  rw [hw, List.forall₂_cons] at hes
  obtain ⟨g', hwrite, hg'⟩ : ∃ g', e.write g = .ok g' ∧
      (g' = g ∨ g' = { g with output := g.output.add e.bytes }) := by
    simp only [Emission.write, houtput, Host.write]
    split
    · exact ⟨g, rfl, .inl rfl⟩
    · exact ⟨_, rfl, .inr rfl⟩
  obtain ⟨shown, hacts⟩ : ∃ shown, Host.Acts touched (Host.Among a n) [] shown g g' := by
    rcases hg' with rfl | rfl
    · exact ⟨[], Host.acts_refl ..⟩
    · exact ⟨e.bytes, Host.acts_output ..⟩
  refine ⟨rfl, by simp [size, hw], rfl, es, status, g', [], shown, [], ?_,
    (Emission.outcome_cons_ok hwrite status).symm, hacts, Host.acts_pipes hp,
    fun h => absurd h hout, fun _ => rfl⟩
  have hseen : Host.Matches touched a b n g' { h with pipes := pipes } := by
    rcases hg' with rfl | rfl <;> exact hf.seen.of_eq rfl rfl rfl rfl
  exact ⟨hseen, hes.2, hf.error, hf.filter, hf.alone, hf.own, hf.status⟩

/-- A process that shows a text on the standard output of the session goes on. -/
theorem Follows.goesOn_shown (hf : w.Follows touched a b n .output p error (e :: es) status g h)
    (hw : w.emissions = e' :: left) (houtput : e.handle = some .output) (hne : e'.bytes ≠ []) :
    GoesOn touched a b n .output p error w (e :: es) status g h
      { w with emissions := left } { h with output := h.output.add e'.bytes } := by
  have hes := hf.emissions
  rw [hw, List.forall₂_cons] at hes
  obtain ⟨he, hes⟩ := hes
  have hbytes : e'.bytes = e.bytes := he.bytes.resolve_right fun h => h.2 rfl
  have hwrite : e.write g = .ok { g with output := g.output.add e'.bytes } := by
    simp only [Emission.write, houtput, Host.write, ← hbytes]
    rw [if_neg (by simpa using hne)]
  refine ⟨rfl, by simp [size, hw], rfl, es, status, _, [], e'.bytes, e'.bytes, ?_,
    (Emission.outcome_cons_ok hwrite status).symm, Host.acts_output g _, Host.acts_output h _,
    fun _ => rfl, fun h => absurd rfl h⟩
  exact ⟨hf.seen.of_eq rfl rfl rfl rfl, hes, hf.error, hf.filter, hf.alone, hf.own, hf.status⟩

/-- A step of a process that sends the first of its texts. -/
theorem step_cons (hw : w.emissions = e' :: left) {y : Handle} (hy : e'.handle = some y) :
    w.step h =
      match h.send y e'.bytes with
      | .error f => w.fail h f e' left
      | .ok (h, rest) =>
        if rest.isEmpty then w.goOn left h
        else if rest.length = e'.bytes.length then .waits
        else w.goOn ({ e' with bytes := rest } :: left) h := by
  obtain ⟨process, error', emissions, status'⟩ := w
  obtain ⟨handle, bytes, care, keeper⟩ := e'
  cases hy
  cases hw
  rfl

/-- A step of a process that writes to a file or to standard error. -/
theorem Follows.step_file (hf : w.Follows touched a b n out p error (e :: es) status g h)
    (hw : w.emissions = e' :: left) {x y : Handle} (hx : e.handle = some x)
    (hy : e'.handle = some y) (hxy : Host.Twin a b n out x y) (hxo : x ≠ .output) :
    ∃ w' h', w.step h = .goOn (.writer w') h' ∧
      GoesOn touched a b n out p error w (e :: es) status g h w' h' := by
  have hes := hf.emissions
  rw [hw, List.forall₂_cons] at hes
  have hbytes : e'.bytes = e.bytes := by
    refine hes.1.bytes.resolve_right fun h => hxo ?_
    rw [hx] at h
    exact Option.some.inj h.1
  have hpipe (id : Nat) : y ≠ .pipeWriter id := by
    cases hxy with
    | output => exact absurd rfl hxo
    | _ => simp
  have hagree := hf.seen.write hxy hxo e.bytes
  have hwrite : e.write g = g.write x e.bytes := by rw [Emission.write, hx]
  rw [step_cons hw hy, Host.send_eq_write hpipe, hbytes]
  generalize g.write x e.bytes = l at hagree hwrite
  generalize h.write y e.bytes = r at hagree
  cases hagree with
  | error f => exact hf.goesOn_fail hw hwrite
  | ok hs => exact ⟨_, _, rfl, hf.goesOn_left hw hs hwrite⟩

/-- A step of a process that writes to the standard output of the session. -/
theorem Follows.step_output (hf : w.Follows touched a b n .output p error (e :: es) status g h)
    (hw : w.emissions = e' :: left) (hx : e.handle = some .output)
    (hy : e'.handle = some .output) :
    ∃ w' h', w.step h = .goOn (.writer w') h' ∧
      GoesOn touched a b n .output p error w (e :: es) status g h w' h' := by
  have hes := hf.emissions
  rw [hw, List.forall₂_cons] at hes
  have hbytes : e'.bytes = e.bytes := hes.1.bytes.resolve_right fun h => h.2 rfl
  rw [step_cons hw hy, Host.send]
  by_cases hempty : e'.bytes.isEmpty = true
  · rw [if_pos hempty]
    refine ⟨_, _, rfl, hf.goesOn_left hw hf.seen.step_refl ?_⟩
    rw [Emission.write, hx, ← hbytes, List.isEmpty_iff.mp hempty]
    rfl
  · rw [if_neg hempty]
    exact ⟨_, _, rfl, hf.goesOn_shown hw hx (by simpa using hempty)⟩

/-- A step of a process that writes to a pipe. -/
theorem Follows.step_pipe {id : Nat}
    (hf : w.Follows touched a b n (.pipeWriter id) p error (e :: es) status g h)
    (hw : w.emissions = e' :: left) (hx : e.handle = some .output)
    (hy : e'.handle = some (.pipeWriter id)) (hid : id < h.pipes.length)
    (hok : (Running.writer w).isRefused h = false) :
    (w.step h = .waits ∧
      ∃ id', Handle.pipeWriter id = .pipeWriter id' ∧ h.hasReader id' = true) ∨
    ∃ w' h', w.step h = .goOn (.writer w') h' ∧
      GoesOn touched a b n (.pipeWriter id) p error w (e :: es) status g h w' h' := by
  have hsend : (Running.writer w).isRefused h =
      match h.send (.pipeWriter id) e'.bytes with
      | .error f => f = .brokenPipe
      | .ok _ => false := by
    obtain ⟨process, error', emissions, status'⟩ := w
    obtain ⟨handle, bytes, care, keeper⟩ := e'
    cases hy
    cases hw
    rfl
  rw [hsend] at hok
  rw [step_cons hw hy]
  rw [Host.send] at hok ⊢
  -- Nothing at all may be written to a pipe even when nobody reads from it.
  by_cases hempty : e'.bytes.isEmpty = true
  · rw [if_pos hempty]
    exact .inr ⟨_, _, rfl, hf.goesOn_taken hw hx (by simp) (Eq.refl h.pipes.length)⟩
  rw [if_neg hempty] at hok ⊢
  simp only [List.getElem?_eq_getElem hid] at hok ⊢
  by_cases hreader : h.hasReader id = true
  · rw [if_pos hreader]
    have hlength : (h.pipes.set id (h.pipes[id].fill e'.bytes).1).length = h.pipes.length :=
      List.length_set
    simp only
    split
    · exact .inr ⟨_, _, rfl, hf.goesOn_taken hw hx (by simp) hlength⟩
    split
    · exact .inl ⟨rfl, id, rfl, hreader⟩
    next hne =>
      have hle := h.pipes[id].length_fill_le e'.bytes
      exact .inr ⟨_, _, rfl, hf.goesOn_pipe hw hx (by simp) (by omega) hlength⟩
  · simp [hreader] at hok

/-- A step of a process that writes: it ends when the stage has written all, it waits only for room
in a pipe that can still be read, and otherwise it goes on as the stage does. -/
theorem Follows.step (hf : w.Follows touched a b n out p error es status g h)
    (hout : out = .output ∨ ∃ id, out = .pipeWriter id ∧ id < h.pipes.length)
    (hok : (Running.writer w).isRefused h = false) :
    (es = [] ∧ w.step h = .ended (.exited status.lowByte.toNat) h) ∨
      (w.step h = .waits ∧ ∃ id, out = .pipeWriter id ∧ h.hasReader id = true) ∨
      ∃ w' h', w.step h = .goOn (.writer w') h' ∧
        GoesOn touched a b n out p error w es status g h w' h' := by
  have hes := hf.emissions
  rcases hw : w.emissions with _ | ⟨e', left⟩
  · rw [hw, List.forall₂_nil_right_iff] at hes
    refine .inl ⟨hes, ?_⟩
    rw [Writer.step, hw, ← hf.status]
  rw [hw, List.forall₂_cons_right_iff] at hes
  obtain ⟨e, es, he, hes, rfl⟩ := hes
  obtain ⟨x, y, hx, hy, hxy⟩ := he.handle
  right
  -- Only what goes to standard output may go somewhere else than it does alone.
  by_cases hxo : x = .output
  · subst hxo
    cases hxy
    rcases hout with rfl | ⟨id, rfl, hid⟩
    · exact .inr (hf.step_output hw hx hy)
    · exact hf.step_pipe hw hx hy hid hok
  · exact .inr (hf.step_file hw hx hy hxy hxo)

end Writer

end CommandShell
