import CommandShell.Streams

/-!
# What passes through pipes

What one read takes out of a pipe and one write puts into it, and that opening the redirections of a
stage leaves all pipes alone.
-/

namespace CommandShell

namespace Host

variable {h h' h'' : Host} {handle : Handle} {bytes rest : Bytes}

/-- The bytes in a pipe. -/
def inPipe (h : Host) (id : Nat) : Bytes := ((h.pipes[id]?).map Pipe.bytes).getD []

/-- Whether a host knows the same processes as another, by which of them have ended and how many
were made, and has as many pipes. -/
structure Alongside (h h' : Host) : Prop where
  endings : h'.endings = h.endings
  nextProcess : h'.nextProcess = h.nextProcess
  pipes : h'.pipes.length = h.pipes.length

theorem Alongside.refl (h : Host) : h.Alongside h := ⟨rfl, rfl, rfl⟩

theorem Alongside.trans (ha : h.Alongside h') (ha' : h'.Alongside h'') : h.Alongside h'' :=
  ⟨ha'.endings.trans ha.endings, ha'.nextProcess.trans ha.nextProcess, ha'.pipes.trans ha.pipes⟩

/-! ## Reading and writing -/

/-- What is in the pipes once one of them was changed. -/
theorem inPipe_set {p : Pipe} {id : Nat} (hid : id < h.pipes.length) (m : Nat) :
    { h with pipes := h.pipes.set id p }.inPipe m = if m = id then p.bytes else h.inPipe m := by
  rw [inPipe]
  by_cases hm : m = id
  · rw [if_pos hm, hm, List.getElem?_set_self hid]
    rfl
  · rw [if_neg hm, List.getElem?_set_ne (Ne.symm hm)]
    rfl

/-- A read takes its bytes off the front of the pipe that it is made on. -/
theorem read_passes {limit : Nat} (hread : h.read handle limit = (.bytes bytes, h')) :
    h.Alongside h' ∧
      ∀ id, h.inPipe id = (if handle = .pipeReader id then bytes else []) ++ h'.inPipe id := by
  simp only [read] at hread
  split at hread
  · cases hread
  obtain ⟨rfl, rfl⟩ : (h.available handle).1.take limit = bytes ∧
      h.consume handle ((h.available handle).1.take limit).length = h' := by
    cases hread
    exact ⟨rfl, rfl⟩
  cases handle with
  | input | output | error | pipeWriter id => exact ⟨⟨rfl, rfl, rfl⟩, fun _ => rfl⟩
  | file id =>
    simp only [consume]
    split
    · exact ⟨⟨rfl, rfl, rfl⟩, fun _ => rfl⟩
    · exact ⟨.refl h, fun _ => rfl⟩
  | pipeReader id =>
    simp only [available, consume]
    cases hp : h.pipes[id]? with
    | none =>
      refine ⟨.refl h, ?_⟩
      intro m
      simp
    | some p =>
      have hid : id < h.pipes.length := (List.getElem?_eq_some_iff.mp hp).1
      refine ⟨⟨rfl, rfl, List.length_set⟩, ?_⟩
      intro m
      simp only [inPipe_set hid, Pipe.bytes_drop, Handle.pipeReader.injEq]
      by_cases hm : m = id
      · have htaken := List.prefix_iff_eq_append.mp (List.take_prefix limit p.bytes)
        rw [if_pos hm, if_pos hm.symm, htaken, hm, inPipe, hp]
        rfl
      · rw [if_neg hm, if_neg (Ne.symm hm), List.nil_append]

/-- A read that gives no bytes, though there was room for some, has found the end. -/
theorem available_of_read_nil {limit : Nat} (hlimit : 0 < limit)
    (hread : h.read handle limit = (.bytes [], h')) : h.available handle = ([], true) := by
  simp only [read] at hread
  split at hread
  · cases hread
  · next hnot =>
    have htaken : (h.available handle).1.take limit = [] :=
      Reading.bytes.inj (Prod.mk.inj hread).1
    have hnil : (h.available handle).1 = [] := by
      rcases List.take_eq_nil_iff.mp htaken with hzero | hnil
      · omega
      · exact hnil
    refine Prod.ext hnil ?_
    simpa [hnil] using hnot

/-- What was written and what has to wait are all of the bytes. -/
theorem bytes_fill_eq (p : Pipe) (bytes : Bytes) : (p.fill bytes).1.bytes =
    p.bytes ++ bytes.take (bytes.length - (p.fill bytes).2.length) := by
  have hle := p.length_fill_le bytes
  have hall : p.bytes ++ bytes =
      (p.bytes ++ bytes.take (bytes.length - (p.fill bytes).2.length)) ++
        bytes.drop (bytes.length - (p.fill bytes).2.length) := by
    rw [List.append_assoc, List.take_append_drop]
  refine (List.append_inj' ((p.bytes_fill bytes).trans hall) ?_).1
  rw [List.length_drop]
  omega

/-- A write to a file happens along the pipes. -/
theorem alongside_writeFile {id : Nat} (hw : h.writeFile id bytes = .ok h') :
    h.Alongside h' ∧ h'.pipes = h.pipes := by
  rw [writeFile] at hw
  split at hw
  · cases hw
  split at hw
  · cases hw
  split at hw
  · cases hw
    exact ⟨⟨rfl, rfl, rfl⟩, rfl⟩
  · cases hw
  · cases hw
    exact ⟨.refl h, rfl⟩

/-- A write puts what was written behind what is in the pipe that it is made on. -/
theorem send_passes (hsend : h.send handle bytes = .ok (h', rest)) :
    h.Alongside h' ∧ ∀ id, h'.inPipe id = h.inPipe id ++
      (if handle = .pipeWriter id then bytes.take (bytes.length - rest.length) else []) := by
  simp only [send] at hsend
  split at hsend
  · next hempty =>
    cases hsend
    rw [List.isEmpty_iff.mp hempty]
    refine ⟨.refl h, ?_⟩
    intro id
    simp
  split at hsend
  · cases hsend
    exact ⟨⟨rfl, rfl, rfl⟩, fun _ => (List.append_nil _).symm⟩
  · cases hsend
    exact ⟨⟨rfl, rfl, rfl⟩, fun _ => (List.append_nil _).symm⟩
  · next id =>
    cases hw : h.writeFile id bytes with
    | error f =>
      rw [hw] at hsend
      cases hsend
    | ok after =>
      rw [hw] at hsend
      cases hsend
      obtain ⟨halong, hpipes⟩ := alongside_writeFile hw
      refine ⟨halong, ?_⟩
      intro m
      rw [inPipe, inPipe, hpipes, if_neg (by simp), List.append_nil]
  · next id =>
    split at hsend
    · cases hsend
    next p hp =>
    split at hsend
    · cases hsend
      have hid : id < h.pipes.length := (List.getElem?_eq_some_iff.mp hp).1
      refine ⟨⟨rfl, rfl, List.length_set⟩, ?_⟩
      intro m
      simp only [inPipe_set hid, Handle.pipeWriter.injEq]
      by_cases hm : m = id
      · rw [if_pos hm, if_pos hm.symm, bytes_fill_eq, hm, inPipe, hp]
        rfl
      · rw [if_neg hm, if_neg (Ne.symm hm), List.append_nil]
    · cases hsend
  · cases hsend
  · cases hsend

/-- A write leaves all pipes there. -/
theorem alongside_write (hw : h.write handle bytes = .ok h') : h.Alongside h' := by
  simp only [write] at hw
  split at hw
  · cases hw
    exact .refl h
  split at hw
  · cases hw
    exact ⟨rfl, rfl, rfl⟩
  · cases hw
    exact ⟨rfl, rfl, rfl⟩
  · exact (alongside_writeFile hw).1
  · split at hw
    · cases hw
    split at hw
    · cases hw
      exact ⟨rfl, rfl, List.length_set⟩
    · cases hw
  · cases hw
  · cases hw

/-- A write to the session's standard error leaves the pipes alone. -/
theorem pipes_write_error (hw : h.write .error bytes = .ok h') : h'.pipes = h.pipes := by
  simp only [write] at hw
  split at hw <;> cases hw <;> rfl

/-! ## Waiting -/

/-- Waiting for a process takes note of how it has ended, and of nothing else. -/
theorem takeEnding_eq_some {number : Nat} {e : Ending}
    (htake : h.takeEnding number = (some e, h')) :
    (number, e) ∈ h.endings ∧ h'.pipes = h.pipes ∧ h'.nextProcess = h.nextProcess ∧
      h'.endings = h.endings.filter (·.1 ≠ number) := by
  rw [takeEnding] at htake
  split at htake
  · cases htake
  · next heq =>
    cases htake
    obtain ⟨before, after, hendings, -⟩ := List.lookup_eq_some_iff.mp heq
    refine ⟨?_, rfl, rfl, rfl⟩
    rw [hendings]
    exact List.mem_append_right before List.mem_cons_self

/-! ## Opening -/

/-- A file that is opened gets a handle of its own, and the pipes are left alone. -/
theorem openFor_passes {directory : Location} {path : String} {access : Access} {mode : Nat}
    (ho : h.openFor directory path access mode = .ok (handle, h')) :
    (∃ id, handle = .file id) ∧ h.Alongside h' ∧ h'.pipes = h.pipes := by
  have hadd {g : Host} {l : Location}
      (ho : (Except.ok (g.addOpen l access) : Except Fault _) = .ok (handle, h'))
      (halong : h.Alongside g) (hpipes : g.pipes = h.pipes) :
      (∃ id, handle = .file id) ∧ h.Alongside h' ∧ h'.pipes = h.pipes := by
    cases ho
    exact ⟨⟨_, rfl⟩, halong.trans ⟨rfl, rfl, rfl⟩, hpipes⟩
  simp only [openFor, bind, Except.bind] at ho
  -- A file that is to be written need not be there, which makes no difference to what follows.
  split at ho
  all_goals
    split at ho
    · cases ho
    split at ho
    · split at ho
      · exact hadd ho ⟨rfl, rfl, rfl⟩ rfl
      · cases ho
    · split at ho
      · cases ho
      · exact hadd ho (.refl h) rfl
    · cases ho
    · split at ho
      · cases ho
      split at ho
      · cases ho
      split at ho
      · exact hadd ho ⟨rfl, rfl, rfl⟩ rfl
      · exact hadd ho (.refl h) rfl

end Host

/-- What a process says leaves all pipes there, and leaves them alone if it says it on the session's
standard error. -/
theorem Process.complain_passes (p : Process) (h : Host) (line : String) :
    h.Alongside (p.complain h line) ∧
      (p.descriptors.get? 2 = some .error → (p.complain h line).pipes = h.pipes) := by
  rw [complain]
  cases p.descriptors.get? 2 with
  | none => exact ⟨.refl h, fun _ => rfl⟩
  | some handle =>
    simp only [Host.tryWriteLine, Host.tryWrite, Option.some.injEq]
    cases hw : h.write handle (Text.encode (line ++ "\n")) with
    | error f => exact ⟨.refl h, fun _ => rfl⟩
    | ok h' => exact ⟨Host.alongside_write hw, fun herror => Host.pipes_write_error (herror ▸ hw)⟩

/-- A notice leaves all pipes there, and leaves them alone on the session's standard error. -/
theorem Process.tell_passes (p : Process) (h : Host) (n : Notice) :
    h.Alongside (p.tell h n) ∧
      (p.descriptors.get? 2 = some .error → (p.tell h n).pipes = h.pipes) := by
  rw [tell]
  split
  · exact complain_passes p h _
  · exact ⟨.refl h, fun _ => rfl⟩

namespace Streams

/-- Whether the streams that are redirected go to open files. -/
def AreFiles (s : Streams) : Prop := ∀ handle ∈ s.handles, ∃ id, handle = .file id

theorem areFiles_inherited : inherited.AreFiles := nofun

/-- Redirecting one more stream to an open file. -/
theorem AreFiles.redirect {s : Streams} (hs : s.AreFiles) (target : Target) (id : Nat) :
    (s.redirect target (.file id)).AreFiles := by
  have hsplit {o e : Option Handle} {valid : Bool} (ho : ∀ handle ∈ o, ∃ id, handle = .file id)
      (he : ∀ handle ∈ e, ∃ id, handle = .file id) : (⟨o, e, valid⟩ : Streams).AreFiles := by
    intro handle hmem
    rcases List.mem_append.mp hmem with hmem | hmem
    · exact ho handle (Option.mem_toList.mp hmem)
    · exact he handle (Option.mem_toList.mp hmem)
  have hfile : ∀ handle ∈ some (Handle.file id), ∃ id, handle = .file id :=
    fun _ h => ⟨id, (Option.some.inj h).symm⟩
  have houtput (handle : Handle) (h : handle ∈ s.output) : ∃ id, handle = .file id :=
    hs handle (List.mem_append_left _ (Option.mem_toList.mpr h))
  have herror (handle : Handle) (h : handle ∈ s.error) : ∃ id, handle = .file id :=
    hs handle (List.mem_append_right _ (Option.mem_toList.mpr h))
  cases target with
  | output => exact hsplit hfile herror
  | error => exact hsplit houtput hfile
  | unknown => exact hs

/-- Redirections go to open files, and opening them leaves all pipes there, and leaves them alone if
what cannot be opened is reported on the session's standard error. -/
theorem openFrom_passes (p : Process) {s : Streams} (hs : s.AreFiles) (h : Host)
    (rs : List Redirection) :
    (openFrom p s h rs).1.AreFiles ∧ h.Alongside (openFrom p s h rs).2 ∧
      (p.descriptors.get? 2 = some .error → (openFrom p s h rs).2.pipes = h.pipes) := by
  induction rs generalizing s h with
  | nil => exact ⟨hs, .refl h, fun _ => rfl⟩
  | cons r rs ih =>
    rw [openFrom]
    split
    · obtain ⟨htold, hpipes⟩ := p.tell_passes h (skipped r)
      obtain ⟨hfiles, hrest, hpipes'⟩ := ih hs (p.tell h (skipped r))
      exact ⟨hfiles, htold.trans hrest, fun he => (hpipes' he).trans (hpipes he)⟩
    · split
      · next file after ho =>
        obtain ⟨⟨id, rfl⟩, hopened, hpipes⟩ := Host.openFor_passes ho
        obtain ⟨hfiles, hrest, hpipes'⟩ := ih (hs.redirect r.target id) after
        exact ⟨hfiles, hopened.trans hrest, fun he => (hpipes' he).trans hpipes⟩
      · next f _ =>
        obtain ⟨htold, hpipes⟩ := p.complain_passes h (r.path ++ ": " ++ f.brief)
        exact ⟨hs, htold, hpipes⟩

/-- The redirections of a stage go to open files, and opening them does to the pipes what
`openFrom_passes` says. -/
theorem ofRedirections_passes {p : Process} {h h' : Host} {rs : List Redirection} {s : Streams}
    (hopens : ofRedirections p h rs = (s, h')) :
    s.AreFiles ∧ h.Alongside h' ∧
      (p.descriptors.get? 2 = some .error → h'.pipes = h.pipes) := by
  have hpasses := openFrom_passes p areFiles_inherited h rs
  rw [ofRedirections] at hopens
  rw [hopens] at hpasses
  exact hpasses

/-- Whether standard output goes to an open file if it is redirected. -/
def IsOpen (s : Streams) : Prop := ∀ handle, s.output = some handle → ∃ id, handle = .file id

/-- Standard output goes to an open file if all redirected streams do. -/
theorem AreFiles.isOpen {s : Streams} (hs : s.AreFiles) : s.IsOpen := by
  intro handle houtput
  exact hs handle (List.mem_append_left _ (Option.mem_toList.mpr houtput))

end Streams

end CommandShell
