import Mathlib
import CommandShell.Proofs.Session.Input

/-!
# Line after line

A conversation is a row of readings, each with what is done about it. `runEditor_framed` says how
the row goes on and where it ends, what each reading takes of the input, and what is there of the
input when a line is run.
-/

namespace CommandShell.Session

/-! ## Readings -/

/-- A reading of a line: the session and the console that it was made on, and what came of it. -/
structure Reading where
  before : Session
  console : Console
  outcome : Except Fault ReadOutcome
  after : Session
  left : Console

/-- The reading that is made on a session and a console. -/
def reading (s : Session) (e : Editor) (c : Console) : Reading :=
  let (outcome, t, d) := s.readLine e c
  ⟨s, c, outcome, t, d⟩

namespace Reading

/-- The line that is to be run. -/
def line? (r : Reading) : Option String :=
  match r.outcome with
  | .ok (.line text) => some text
  | _ => none

/-- Whether no other reading follows: there are no more lines, or the reading failed and was not
interrupted. -/
def isLast (r : Reading) : Bool :=
  match r.outcome with
  | .ok .quit => true
  | .error f => f.kind ≠ .interrupted
  | _ => false

/-- The session that runs a line, with the line in its history. -/
def recorded (r : Reading) (text : String) : Session :=
  { r.after with
    shell := { r.after.shell with history := r.after.shell.history.add text } }

/-- The session that the conversation goes on with. -/
def next (r : Reading) : Session :=
  match r.line? with
  | some text => ((r.recorded text).evaluate text).2
  | none => r.after

/-- The keys that were there to be read. -/
def keys (r : Reading) : List Key := r.before.keysOf r.console.source

/-- The keys that are left. -/
def rest (r : Reading) : List Key := r.after.keysOf r.left.source

/-- The keys that were read. -/
def read (r : Reading) : List Key := r.keys.take (r.keys.length - r.rest.length)

/-- What can be said of a reading through an editor in a conversation. -/
structure IsFramed (r : Reading) (e : Editor) : Prop where
  goesOn : r.before.leaving = false
  /-- Nothing but the host is changed: neither the history nor whether the session is leaving. -/
  kept : r.after = r.before.withHost r.after.shell.host
  /-- No key is lost and none is there again. -/
  splits : r.keys = r.read ++ r.rest
  /-- What was read of standard input is gone for programs, and nothing else. -/
  input : r.console.source = .standardInput →
    r.before.shell.host.input.map .byte = r.read ++ r.after.shell.host.input.map .byte
  takes : e.Takes r.before.editorContext r.console.screen r.read r.rest r.outcome
  /-- A line is run with what it was typed to as the last entry of the history, once the key that
  ends it was read and no other behind it. -/
  line : ∀ text, r.line? = some text →
    (r.recorded text).shell.history.entries = r.before.shell.history.entries ++ [text] ∧
      text ≠ "" ∧ ∃ front line shown,
        e.typed? r.before.editorContext r.console.screen front = some (line, shown) ∧
          line.buffer = text.toList ∧
          ((∃ key, Editor.endsLine key = true ∧ r.read = front ++ [key]) ∨
            (r.read = front ∧ r.rest = []))

end Reading

variable {s t : Session} {e : Editor} {c d : Console} {readings : List Reading}

/-- The keys that a reading takes are those in front of the ones that it leaves. -/
theorem Reading.read_eq {r : Reading} {read : List Key} (h : r.keys = read ++ r.rest) :
    r.read = read := by
  rw [Reading.read, h, List.length_append, Nat.add_sub_cancel, List.take_left]

/-- A reading on standard input stays there, and a reading of keys leaves keys. -/
theorem source_left (s : Session) (e : Editor) (c : Console) :
    (c.source = .standardInput → (s.reading e c).left.source = .standardInput) ∧
      ∀ ks, c.source = .keys ks → (s.reading e c).left.source = .keys (s.reading e c).rest := by
  rw [Reading.rest, reading, readLine]
  cases c.source with
  | keys ks => exact ⟨by simp, fun _ _ => rfl⟩
  | standardInput => exact ⟨fun _ => rfl, by simp⟩

/-- A reading leaves the session to read from where it has read. -/
theorem IsFed.left (hfed : s.IsFed c.source) (hkept : (s.reading e c).after =
      s.withHost (s.reading e c).after.shell.host) :
    (s.reading e c).after.IsFed (s.reading e c).left.source := by
  rw [hkept]
  obtain ⟨hinput, hks⟩ := source_left s e c
  cases hsource : c.source with
  | keys ks =>
    rw [hks ks hsource]
    trivial
  | standardInput =>
    rw [hsource] at hfed
    rw [hinput hsource]
    exact hfed

/-- Every reading of a conversation is framed. -/
theorem isFramed_reading (hfed : s.IsFed c.source) (hgoes : s.leaving = false) (e : Editor) :
    (s.reading e c).IsFramed e := by
  obtain ⟨read, hkeys, hkept, htakes⟩ : ∃ read,
      (s.reading e c).keys = read ++ (s.reading e c).rest ∧
        (s.reading e c).after = s.withHost (s.reading e c).after.shell.host ∧
        e.Takes s.editorContext c.screen read (s.reading e c).rest (s.reading e c).outcome :=
    hfed.readLine_takes rfl
  obtain rfl := Reading.read_eq hkeys
  refine ⟨hgoes, hkept, hkeys, ?_, htakes, ?_⟩
  · intro hsource
    change c.source = .standardInput at hsource
    have hleft : (s.reading e c).left.source = .standardInput := (source_left s e c).1 hsource
    have hfed' := hfed.left hkept
    rw [hleft] at hfed'
    rw [hsource] at hfed
    have hbefore : (s.reading e c).keys = s.shell.host.input.map .byte := by
      rw [← hfed.keysOf_standardInput, ← hsource]
      rfl
    rw [Reading.rest, hleft, hfed'.keysOf_standardInput, hbefore] at hkeys
    exact hkeys
  · intro text htext
    have houtcome : (s.reading e c).outcome = .ok (.line text) := by
      rw [Reading.line?] at htext
      split at htext
      · next heq =>
        cases htext
        exact heq
      · cases htext
    rw [houtcome] at htakes
    refine ⟨?_, htakes.gives_line⟩
    rw [Reading.recorded, hkept]
    rfl

/-- After a reading, the session reads from where it has read. -/
theorem IsFed.next (hfed : s.IsFed c.source) (hframed : (s.reading e c).IsFramed e) :
    (s.reading e c).next.IsFed (s.reading e c).left.source := by
  have hafter := hfed.left hframed.kept
  rw [Reading.next]
  split
  · next text _ => exact hafter.submit text
  · exact hafter

/-! ## What is done about a reading -/

/-- What a conversation comes to that a reading ends. -/
def Reading.result (r : Reading) : Except Fault Unit × Session × Console :=
  (r.outcome.map fun _ => (), r.after, r.left)

/-- A conversation makes a reading, which ends it or leads on. -/
theorem runEditor_of_reading (hgoes : s.leaving = false) :
    s.runEditor e c = if (s.reading e c).isLast then (s.reading e c).result
      else (s.reading e c).next.runEditor e (s.reading e c).left := by
  unfold runEditor
  rw [converse, if_neg (by simp [hgoes])]
  rcases hread : s.readLine e c with ⟨outcome, t, d⟩
  have hreading : s.reading e c = ⟨s, c, outcome, t, d⟩ := by rw [reading, hread]
  rw [hreading]
  rcases outcome with f | outcome
  · by_cases hf : f.kind = .interrupted
    · simp [Reading.isLast, Reading.next, Reading.line?, hf]
    · simp [Reading.isLast, Reading.result, hf]
      rfl
  · cases outcome with
    | quit => rfl
    | empty => rfl
    | line text => rfl

/-! ## Rows of readings -/

/-- The readings that a conversation makes one after the other, up to a session and a console. No
reading is made by a session that is leaving, and none behind the last. -/
inductive Reads (e : Editor) (s : Session) (c : Console) :
    List Reading → Session → Console → Prop
  | start : Reads e s c [] s c
  | next {readings : List Reading} {t : Session} {d : Console} :
      Reads e s c readings t d → t.leaving = false → (t.reading e d).isLast = false →
        Reads e s c (readings ++ [t.reading e d]) (t.reading e d).next (t.reading e d).left

/-- What can be said of a conversation that has made some readings. -/
structure Frames (e : Editor) (s : Session) (c : Console) (readings : List Reading) (t : Session)
    (d : Console) : Prop where
  goesOn : s.runEditor e c = t.runEditor e d
  framed : ∀ r ∈ readings, r.IsFramed e
  /-- The readings took their keys one after the other, and nothing else did. -/
  keys : ∀ ks, c.source = .keys ks →
    ∃ left, d.source = .keys left ∧ ks = readings.flatMap Reading.read ++ left
  /-- A session that is leaving reads no more. -/
  leaving : t.leaving = true → s.runEditor e c = (.ok (), t, d)
  /-- The next reading is framed as well, and ends the conversation or leads on. -/
  reading : t.leaving = false → (t.reading e d).IsFramed e ∧
    s.runEditor e c = if (t.reading e d).isLast then (t.reading e d).result
      else (t.reading e d).next.runEditor e (t.reading e d).left
  /-- A fault other than an interruption is told as a failed read. -/
  failure : t.leaving = false → ∀ f, (t.reading e d).outcome = .error f → f.kind ≠ .interrupted →
    (s.runEditor e c).1.mapError readFaultMessage = .error ("can't read input: " ++ f.message)

/-- A conversation that has made some readings still reads from where it has read. -/
theorem Reads.isFed (h : Reads e s c readings t d) (hfed : s.IsFed c.source) :
    t.IsFed d.source := by
  induction h with
  | start => exact hfed
  | next _ hgoes _ ih => exact ih.next (isFramed_reading ih hgoes e)

/-- A conversation goes on from its readings. -/
theorem Reads.runEditor_eq (h : Reads e s c readings t d) :
    s.runEditor e c = t.runEditor e d := by
  induction h with
  | start => rfl
  | next _ hgoes hlast ih => rw [ih, runEditor_of_reading hgoes, if_neg (by simp [hlast])]

/-- All readings of a conversation are framed. -/
theorem Reads.isFramed (h : Reads e s c readings t d) (hfed : s.IsFed c.source) :
    ∀ r ∈ readings, r.IsFramed e := by
  induction h with
  | start => simp
  | next h hgoes _ ih =>
    intro r hr
    rcases List.mem_append.mp hr with hr | hr
    · exact ih r hr
    · rw [List.mem_singleton.mp hr]
      exact isFramed_reading (h.isFed hfed) hgoes e

/-- The readings of a conversation take the keys of a list in order, each once. -/
theorem Reads.keys_eq (h : Reads e s c readings t d) {ks : List Key} (hks : c.source = .keys ks) :
    ∃ left, d.source = .keys left ∧ ks = readings.flatMap Reading.read ++ left := by
  induction h with
  | start => exact ⟨ks, hks, rfl⟩
  | @next readings t d h hgoes _ ih =>
    obtain ⟨left, hleft, rfl⟩ := ih
    have hfed : t.IsFed d.source := by
      rw [hleft]
      trivial
    have hsplits := (isFramed_reading hfed hgoes e).splits
    refine ⟨_, (source_left t e d).2 left hleft, ?_⟩
    have hkeys : (t.reading e d).keys = left := by
      rw [Reading.keys]
      change t.keysOf d.source = left
      rw [hleft]
      rfl
    rw [List.flatMap_append, List.flatMap_singleton, List.append_assoc, ← hsplits, hkeys]

/-- A reading of keys uses up a key or a flush, unless it is the last. -/
theorem reading_progress {ks : List Key} (hks : c.source = .keys ks)
    (hlast : (s.reading e c).isLast = false) :
    (s.reading e c).rest.length < ks.length ∨ ((s.reading e c).rest = ks ∧
      (s.reading e c).left.screen.flushes.length < c.screen.flushes.length) := by
  obtain ⟨_, screen⟩ := c
  cases hks
  have hquit : (e.readLine s.editorContext screen ks).outcome ≠ .ok .quit := by
    intro hquit
    have houtcome : (s.reading e ⟨.keys ks, screen⟩).outcome = .ok .quit := hquit
    rw [Reading.isLast, houtcome] at hlast
    cases hlast
  exact Editor.readLine_progress hquit

/-- Conversations on a list of keys come to an end. -/
theorem Reads.exists_end {ks : List Key} (h : Reads e s c readings t d)
    (hks : d.source = .keys ks) :
    ∃ readings' t' d', Reads e s c readings' t' d' ∧
      (t'.leaving = true ∨ (t'.reading e d').isLast = true) := by
  -- Readings use up keys, and those that do not use up flushes.
  induction hn : ks.length using Nat.strongRecOn generalizing ks readings t d with
  | ind n ihkeys =>
  induction hm : d.screen.flushes.length using Nat.strongRecOn generalizing readings t d with
  | ind m ihflushes =>
  by_cases hgoes : t.leaving = true
  · exact ⟨readings, t, d, h, .inl hgoes⟩
  by_cases hlast : (t.reading e d).isLast = true
  · exact ⟨readings, t, d, h, .inr hlast⟩
  rw [Bool.not_eq_true] at hgoes hlast
  have hnext := Reads.next h hgoes hlast
  have hleft := (source_left t e d).2 ks hks
  rcases reading_progress hks hlast with hlt | ⟨hrest, hlt⟩
  · exact ihkeys _ (hn ▸ hlt) hnext hleft rfl
  · exact ihflushes _ (hm ▸ hlt) hnext (hleft.trans (congrArg _ hrest)) rfl

/-! ## The conversation as a whole -/

/-- A conversation makes its readings in order and runs the lines that they give out: however many
readings it has made, each took its keys and no other, nothing is read once the session is leaving,
and another reading ends the conversation or leads on. On a list of keys it comes to an end. -/
theorem runEditor_framed (hfed : s.IsFed c.source) (e : Editor) :
    (∀ readings t d, Reads e s c readings t d → Frames e s c readings t d) ∧
      ∀ ks, c.source = .keys ks → ∃ readings t d, Reads e s c readings t d ∧
        (t.leaving = true ∨ (t.reading e d).isLast = true) := by
  refine ⟨?_, fun ks hks => Reads.start.exists_end hks⟩
  intro readings t d h
  have hreading (hgoes : t.leaving = false) : s.runEditor e c =
      if (t.reading e d).isLast then (t.reading e d).result
      else (t.reading e d).next.runEditor e (t.reading e d).left :=
    h.runEditor_eq.trans (runEditor_of_reading hgoes)
  refine ⟨h.runEditor_eq, h.isFramed hfed, fun ks hks => h.keys_eq hks, ?_, ?_, ?_⟩
  · intro hleaving
    rw [h.runEditor_eq, runEditor, converse, if_pos hleaving]
  · intro hgoes
    exact ⟨isFramed_reading (h.isFed hfed) hgoes e, hreading hgoes⟩
  · intro hgoes f houtcome hf
    have hlast : (t.reading e d).isLast = true := by simpa [Reading.isLast, houtcome] using hf
    rw [hreading hgoes, if_pos hlast, Reading.result, houtcome]
    rfl

/-- A blank line does nothing, and behind `exit` nothing is read. -/
theorem runEditor_framed_exit :
    let shell := Shell.start ⟨[], "/tmp", false⟩ ["tmp"]
      (.start .empty (Text.encode "\nexit\necho no\n") [])
    let s := start shell ⟨"", none, false⟩
    let c : Console := ⟨.standardInput, ⟨[], []⟩⟩
    ∃ readings t, Reads .quiet s c readings t c ∧ Frames .quiet s c readings t c ∧
      readings.filterMap Reading.line? = ["exit"] ∧ s.runEditor .quiet c = (.ok (), t, c) ∧
      t.shell.history.entries = ["exit"] ∧ t.shell.host.input = Text.encode "echo no\n" := by
  intro shell s c
  let after (input : String) : Session :=
    s.withHost { s.shell.host with input := Text.encode input }
  have hblank : s.reading .quiet c =
      ⟨s, c, .ok .empty, after "exit\necho no\n", c⟩ := by cbv
  have hexit : (after "exit\necho no\n").reading .quiet c =
      ⟨after "exit\necho no\n", c, .ok (.line "exit"), after "echo no\n", c⟩ := by cbv
  let t : Session := ((after "echo no\n").submit "exit")
  have hfirst : Reads .quiet s c [s.reading .quiet c] (after "exit\necho no\n") c := by
    have h := Reads.next (.start (e := .quiet) (s := s) (c := c)) rfl (by rw [hblank]; rfl)
    rw [hblank] at h ⊢
    exact h
  have hreads : Reads .quiet s c
      [s.reading .quiet c, (after "exit\necho no\n").reading .quiet c] t c := by
    have h := Reads.next hfirst rfl (by rw [hexit]; rfl)
    rw [hexit] at h ⊢
    exact h
  have hleaving : t.leaving = true := by cbv
  have hframes := (runEditor_framed (s := s) (c := c) rfl .quiet).1 _ _ _ hreads
  refine ⟨_, t, hreads, hframes, ?_, hframes.leaving hleaving, by cbv, by cbv⟩
  rw [hblank, hexit]
  rfl

end CommandShell.Session
