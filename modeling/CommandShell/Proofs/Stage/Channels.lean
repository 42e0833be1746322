import CommandShell.Builtin.Run
import CommandShell.Proofs.File.Shape

/-!
# What is written to channels

A builtin writes texts to two channels, which go where the streams of its stage do. Handles that
take whatever is written to them keep doing so while texts are written,
`Streams.Take.exists_writeTexts`, and then a builtin just writes one text after the other,
`Streams.Take.writeAll_map_emission`.
-/

namespace CommandShell

/-! ## Handles that take what is written -/

namespace Host

variable {h h' : Host} {handle other : Handle} {bytes : Bytes}

/-- Whether a handle takes whatever is written to it: it is one of the session's streams, a file
that is open for writing and not on a full device, or a pipe that somebody reads. -/
inductive Takes (h : Host) : Handle → Prop
  | output : h.Takes .output
  | error : h.Takes .error
  | file {id : Nat} {f : OpenFile} : h.openFiles[id]? = some f → f.writable = true →
      h.files.get? f.location ≠ some (.device .full) → h.Takes (.file id)
  | pipe {id : Nat} {p : Pipe} : h.pipes[id]? = some p → h.hasReader id = true →
      h.Takes (.pipeWriter id)

/-- A handle takes what is written just in case no write to it fails. -/
theorem takes_iff : h.Takes handle ↔ ∀ bytes, ∃ h', h.write handle bytes = .ok h' := by
  constructor
  · intro ht bytes
    rcases hnil : bytes.isEmpty with _ | _
    · cases ht with
      | output | error => exact ⟨_, by rw [write, hnil]; rfl⟩
      | pipe hp hreader => exact ⟨_, by simp [write, hnil, hp, hreader]; rfl⟩
      | @file id f hf hwritable hfull =>
        simp only [write, hnil, writeFile, hf, hwritable]
        rcases hget : h.files.get? f.location with _ | n
        · exact ⟨_, rfl⟩
        · cases n with
          | device d =>
            cases d with
            | full => exact absurd hget hfull
            | _ => exact ⟨_, rfl⟩
          | _ => exact ⟨_, rfl⟩
    · obtain rfl := List.isEmpty_iff.mp hnil
      exact ⟨h, write_nil h handle⟩
  · intro hall
    obtain ⟨h', hw⟩ := hall [0]
    cases handle with
    | output => exact .output
    | error => exact .error
    | input | pipeReader => cases hw
    | pipeWriter id =>
      simp only [write, List.isEmpty_cons, Bool.false_eq_true, ↓reduceIte] at hw
      split at hw
      · cases hw
      · next p hp =>
        split at hw
        · next hreader => exact .pipe hp hreader
        · cases hw
    | file id =>
      simp only [write, writeFile, List.isEmpty_cons, Bool.false_eq_true, ↓reduceIte] at hw
      split at hw
      · cases hw
      next f hf =>
      split at hw
      · cases hw
      next hwritable =>
      refine .file hf (by simpa using hwritable) ?_
      intro hfull
      simp [hfull] at hw

/-- What a write leaves of a host: no file is opened elsewhere or otherwise, and pipes and those who
hold their ends remain. -/
structure Remains (h h' : Host) : Prop where
  shape : h.files.SameShape h'.files
  openFiles : ∀ (id : Nat) (f : OpenFile), h.openFiles[id]? = some f →
    ∃ position, h'.openFiles[id]? = some { f with position := position }
  pipes : h'.pipes.length = h.pipes.length
  held : h'.held = h.held

theorem remains_write (hw : h.write handle bytes = .ok h') : h.Remains h' := by
  have hshape := sameShape_write hw
  unfold write at hw
  split at hw
  · cases hw
    exact ⟨hshape, fun _ f hf => ⟨f.position, hf⟩, rfl, rfl⟩
  cases handle with
  | output | error =>
    cases hw
    exact ⟨hshape, fun _ f hf => ⟨f.position, hf⟩, rfl, rfl⟩
  | input | pipeReader => cases hw
  | pipeWriter id =>
    simp only at hw
    split at hw
    · cases hw
    · split at hw
      · cases hw
        exact ⟨hshape, fun _ f hf => ⟨f.position, hf⟩, List.length_set, rfl⟩
      · cases hw
  | file id =>
    simp only [writeFile] at hw
    split at hw
    · cases hw
    next g hg =>
    split at hw
    · cases hw
    split at hw
    · cases hw
      refine ⟨hshape, ?_, rfl, rfl⟩
      intro k f hf
      by_cases hk : id = k
      · subst hk
        obtain rfl : g = f := Option.some.inj (hg.symm.trans hf)
        have hlt := (List.getElem?_eq_some_iff.mp hg).1
        exact ⟨_, List.getElem?_set_self hlt⟩
      · exact ⟨f.position, (List.getElem?_set_ne hk).trans hf⟩
    · cases hw
    · cases hw
      exact ⟨hshape, fun _ f hf => ⟨f.position, hf⟩, rfl, rfl⟩

/-- A handle that takes what is written still does after a write, to whichever handle. -/
theorem Takes.write (ht : h.Takes handle) (hw : h.write other bytes = .ok h') :
    h'.Takes handle := by
  obtain ⟨hshape, hfiles, hpipes, hheld⟩ := remains_write hw
  cases ht with
  | output => exact .output
  | error => exact .error
  | @file id f hf hwritable hfull =>
    obtain ⟨position, hf'⟩ := hfiles id f hf
    refine .file hf' hwritable ?_
    intro hdevice
    have hl := hshape.shape f.location
    rw [hdevice] at hl
    rcases hget : h.files.get? f.location with _ | n
    · simp [hget] at hl
    · cases n <;> simp_all [Node.shape]
  | @pipe id p hp hreader =>
    have hlt : id < h'.pipes.length := hpipes ▸ (List.getElem?_eq_some_iff.mp hp).1
    exact .pipe (List.getElem?_eq_getElem hlt) (by rwa [hasReader, hheld])

end Host

/-! ## Texts on channels -/

/-- The texts that go to a channel, put together. -/
def Channel.text (channel : Channel) (texts : List (Channel × String)) : String :=
  String.join ((texts.filter (·.1 = channel)).map Prod.snd)

theorem Channel.text_cons (c : Channel) (text : Channel × String)
    (texts : List (Channel × String)) :
    c.text (text :: texts) = (if text.1 = c then text.2 else "") ++ c.text texts := by
  by_cases hc : text.1 = c <;> simp [Channel.text, hc, String.join_cons]

/-- The texts that go to a channel are put together one by one. -/
theorem Channel.text_map {α : Type} (c : Channel) (line : α → Channel × String) (xs : List α) :
    c.text (xs.map line) = String.join (xs.map fun x => c.text [line x]) := by
  induction xs with
  | nil => rfl
  | cons x xs ih =>
    have hone : c.text [line x] = if (line x).1 = c then (line x).2 else "" := by
      rw [text_cons]
      exact String.append_empty
    rw [List.map_cons, text_cons, ih, List.map_cons, String.join_cons, hone]

/-- Where a channel goes. -/
def Streams.handle (s : Streams) (p : Process) : Channel → Option Handle
  | .output => s.outputHandle p
  | .error => s.errorHandle p

namespace Builtin

variable (sh : Shell) (streams : Streams) (keeper : Option String) (care : Care)
  (text : Channel × String)

/-- A text of a builtin is to be written to where its channel goes. -/
theorem handle_emission :
    (emission sh streams keeper care text).handle = streams.handle sh.process text.1 := by
  obtain ⟨channel, text⟩ := text
  cases channel <;> rfl

theorem bytes_emission :
    (emission sh streams keeper care text).bytes = Text.encode text.2 := by
  obtain ⟨channel, text⟩ := text
  cases channel <;> rfl

end Builtin

namespace Streams

variable {streams : Streams} {p : Process} {h h' : Host} {texts : List (Channel × String)}

/-- Writes a text to its channel. -/
def writeText (s : Streams) (p : Process) (h : Host) (text : Channel × String) :
    Except Fault Host :=
  match text.1 with
  | .output => s.writeOutput p h text.2
  | .error => s.writeError p h text.2

/-- Writes texts to their channels, one after another. -/
def writeTexts (s : Streams) (p : Process) (h : Host) (texts : List (Channel × String)) :
    Except Fault Host :=
  texts.foldlM (s.writeText p) h

theorem writeTexts_append (s : Streams) (p : Process) (h : Host)
    (texts texts' : List (Channel × String)) :
    s.writeTexts p h (texts ++ texts') =
      (s.writeTexts p h texts).bind fun g => s.writeTexts p g texts' :=
  List.foldlM_append

/-- Whether both channels take whatever is written to them. -/
def Take (s : Streams) (p : Process) (h : Host) : Prop :=
  ∀ channel, ∃ handle, s.handle p channel = some handle ∧ h.Takes handle

theorem Take.remains {g : Host} (ht : streams.Take p h) {handle : Handle} {bytes : Bytes}
    (hw : h.write handle bytes = .ok g) : streams.Take p g := by
  intro channel
  obtain ⟨handle, hhandle, htakes⟩ := ht channel
  exact ⟨handle, hhandle, htakes.write hw⟩

/-- A text is written to the handle of its channel. -/
theorem writeText_eq {text : Channel × String} {handle : Handle}
    (hhandle : streams.handle p text.1 = some handle) :
    streams.writeText p h text = h.write handle (Text.encode text.2) := by
  obtain ⟨channel, text⟩ := text
  obtain ⟨output, error, valid⟩ := streams
  cases channel with
  | output =>
    cases output with
    | none =>
      have hget : p.descriptors.get? 1 = some handle := hhandle
      simp only [writeText, writeOutput, Process.write, hget]
    | some file =>
      obtain rfl : file = handle := Option.some.inj hhandle
      rfl
  | error =>
    cases error with
    | none =>
      have hget : p.descriptors.get? 2 = some handle := hhandle
      simp only [writeText, writeError, Process.write, hget]
    | some file =>
      obtain rfl : file = handle := Option.some.inj hhandle
      rfl

/-- Channels that take whatever is written to them take any texts. -/
theorem Take.exists_writeTexts (ht : streams.Take p h) (texts : List (Channel × String)) :
    ∃ h', streams.writeTexts p h texts = .ok h' ∧ streams.Take p h' ∧
      h.files.SameShape h'.files := by
  induction texts generalizing h with
  | nil => exact ⟨h, rfl, ht, .refl _⟩
  | cons text texts ih =>
    obtain ⟨handle, hhandle, htakes⟩ := ht text.1
    obtain ⟨g, hw⟩ := Host.takes_iff.mp htakes (Text.encode text.2)
    obtain ⟨h', hrest, ht', hshape⟩ := ih (ht.remains hw)
    refine ⟨h', ?_, ht', (Host.sameShape_write hw).trans hshape⟩
    rw [writeTexts, List.foldlM_cons, writeText_eq hhandle, hw]
    exact hrest

/-- Where both channels are the session's, a text goes to the stream of its channel. -/
theorem received_writeText (houtput : streams.handle p .output = some .output)
    (herror : streams.handle p .error = some .error) (h : Host) (channel : Channel)
    (text : String) :
    ∃ g, streams.writeText p h (channel, text) = .ok g ∧
      g.output.bytes = h.output.bytes ++ Text.encode (if channel = .output then text else "") ∧
      g.error.bytes = h.error.bytes ++ Text.encode (if channel = .error then text else "") := by
  have hnothing : Text.encode "" = [] := rfl
  cases channel with
  | output =>
    rw [writeText_eq houtput, Host.write]
    split
    · next hempty => exact ⟨h, rfl, by simp [List.isEmpty_iff.mp hempty, hnothing]⟩
    · exact ⟨_, rfl, by simp [hnothing]⟩
  | error =>
    rw [writeText_eq herror, Host.write]
    split
    · next hempty => exact ⟨h, rfl, by simp [List.isEmpty_iff.mp hempty, hnothing]⟩
    · exact ⟨_, rfl, by simp [hnothing]⟩

/-- Where both channels are the session's, each of its streams receives the texts of its channel. -/
theorem received_writeTexts (houtput : streams.handle p .output = some .output)
    (herror : streams.handle p .error = some .error)
    (hw : streams.writeTexts p h texts = .ok h') :
    h'.output.bytes = h.output.bytes ++ Text.encode (Channel.output.text texts) ∧
      h'.error.bytes = h.error.bytes ++ Text.encode (Channel.error.text texts) := by
  induction texts generalizing h with
  | nil =>
    have hnothing : Text.encode "" = [] := rfl
    cases hw
    simp [Channel.text, hnothing]
  | cons text texts ih =>
    obtain ⟨channel, text⟩ := text
    obtain ⟨g, hg, hgoutput, hgerror⟩ := received_writeText houtput herror h channel text
    rw [writeTexts, List.foldlM_cons, hg] at hw
    obtain ⟨houtput', herror'⟩ := ih hw
    constructor
    · rw [houtput', hgoutput, List.append_assoc, ← Text.encode_append, Channel.text_cons]
    · rw [herror', hgerror, List.append_assoc, ← Text.encode_append, Channel.text_cons]

/-- What a builtin has to write is written as its texts are. -/
theorem Take.writeAll_map_emission {sh : Shell} (ht : streams.Take sh.process h)
    (hw : streams.writeTexts sh.process h texts = .ok h') (p : Process) (error : Option Handle)
    (keeper : Option String) (care : Care) :
    Emission.writeAll p error (texts.map (Builtin.emission sh streams keeper care)) h =
      (true, h') := by
  induction texts generalizing h with
  | nil =>
    cases hw
    rfl
  | cons text texts ih =>
    obtain ⟨handle, hhandle, htakes⟩ := ht text.1
    obtain ⟨g, hg⟩ := Host.takes_iff.mp htakes (Text.encode text.2)
    rw [writeTexts, List.foldlM_cons, writeText_eq hhandle, hg] at hw
    have hemission : (Builtin.emission sh streams keeper care text).write h = .ok g := by
      rw [Emission.write, Builtin.handle_emission, hhandle, Builtin.bytes_emission]
      exact hg
    rw [List.map_cons, Emission.writeAll, hemission]
    exact ih (ht.remains hg) hw

end Streams

end CommandShell
