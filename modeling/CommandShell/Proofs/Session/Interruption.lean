import Mathlib
import CommandShell.Proofs.Interruption
import CommandShell.Proofs.Session.Framing

/-!
# Conversations that are interrupted

A reading that is interrupted is made again from its start, with the keys behind those that it has
taken. So a conversation with interruptions is one without, on the keys of the readings that were
not interrupted: `runEditor_interrupted`. Where those that were interrupted have taken keys, these
are lost.
-/

namespace CommandShell.Session

open Editor

variable {s t : Session} {e : Editor} {c d : Console} {screen : Screen} {readings : List Reading}
  {ks left : List Key}

/-- Whether the reading was interrupted. -/
def Reading.isCut (r : Reading) : Bool := Editor.isCut r.outcome

/-- The keys that were read by readings that were not interrupted, and those that are left. -/
def heardKeys (readings : List Reading) (left : List Key) : List Key :=
  ((readings.filter fun r => !r.isCut).flatMap Reading.read ++ left).filter heard

theorem heardKeys_concat_of_isCut {r : Reading} (h : r.isCut = true) (more : List Key) :
    heardKeys (readings ++ [r]) more = heardKeys readings more := by
  simp [heardKeys, List.filter_append, h]

theorem heardKeys_concat {r : Reading} (h : r.isCut = false) (more : List Key) :
    heardKeys (readings ++ [r]) more = heardKeys readings (r.read ++ more) := by
  simp [heardKeys, List.filter_append, h]

/-! ## One reading -/

/-- What is told of the keys of a line does not depend on reads that were interrupted. -/
theorem tellKeys_heard {read left : List Key} {outcome : Except Fault ReadOutcome}
    (h : e.Takes s.editorContext screen read left outcome) :
    s.tellKeys e (read.filter heard) outcome = s.tellKeys e read outcome := by
  have hignored : (read.filter heard).filterMap ignored? = read.filterMap ignored? := by
    rw [List.filterMap_filter]
    refine List.filterMap_congr fun key _ => ?_
    cases key with
    | failure f => exact ite_self none
    | _ => rfl
  rw [tellKeys, tellKeys, hignored]
  rcases hecho : e.echo with _ | _
  · rw [sawEnd_heard hecho h]
  · rfl

/-- Whether a reading of keys repeats another without its interruptions: it takes its keys to the
same outcome, leaves the given ones, and was made on a console on which nothing is interrupted. -/
structure Reading.Repeats (r : Reading) (more : List Key) (r' : Reading) : Prop where
  outcome : r'.outcome = r.outcome
  after : r'.after = r.after
  source : r'.left.source = .keys (more.filter heard)
  isClear : r'.left.screen.IsClear

theorem Reading.Repeats.line?_eq {r r' : Reading} {more : List Key} (h : r.Repeats more r') :
    r'.line? = r.line? := by
  rw [Reading.line?, Reading.line?, h.outcome]

theorem Reading.Repeats.isLast_eq {r r' : Reading} {more : List Key} (h : r.Repeats more r') :
    r'.isLast = r.isLast := by
  rw [Reading.isLast, Reading.isLast, h.outcome]

/-- A reading that is repeated leads to the same session. -/
theorem Reading.Repeats.next_eq {r r' : Reading} {more : List Key} (h : r.Repeats more r') :
    r'.next = r.next := by
  simp only [Reading.next, Reading.recorded, h.line?_eq, h.after]

/-- A reading that was interrupted gives out no line. -/
theorem Reading.line?_of_isCut {r : Reading} (h : r.isCut = true) : r.line? = none := by
  rw [Reading.isCut] at h
  rw [Reading.line?]
  split
  · next heq =>
    rw [heq] at h
    cases h
  · rfl

/-- A reading that was interrupted is not the last. -/
theorem Reading.isLast_of_isCut {r : Reading} (h : r.isCut = true) : r.isLast = false := by
  rw [Reading.isCut] at h
  rw [Reading.isLast]
  rcases houtcome : r.outcome with f | outcome
  · have hf : f.kind = .interrupted := by simpa [houtcome, Editor.isCut] using h
    simp [hf]
  · rw [houtcome] at h
    cases h

/-- The reading that a session makes of keys. -/
theorem reading_keys (t : Session) (e : Editor) (ks : List Key) (screen : Screen) :
    t.reading e ⟨.keys ks, screen⟩ =
      let result := e.readLine t.editorContext screen ks
      ⟨t, ⟨.keys ks, screen⟩, result.outcome,
        t.tellKeys e (ks.take (ks.length - result.rest.length)) result.outcome,
        ⟨.keys result.rest, result.screen⟩⟩ :=
  rfl

/-- A reading of keys that is interrupted changes nothing of the session, and is made by an editor
that shows what it does. Any other is repeated where nothing is interrupted, whatever is behind its
keys. -/
theorem reading_repeats (t : Session) (e : Editor) (hs : screen.IsUnbroken) (ks : List Key) :
    (t.reading e ⟨.keys ks, screen⟩).left.screen.IsUnbroken ∧
      ((t.reading e ⟨.keys ks, screen⟩).isCut = true ∧ e.echo = true ∧
          (t.reading e ⟨.keys ks, screen⟩).after = t ∨
        (t.reading e ⟨.keys ks, screen⟩).isCut = false ∧ ∀ clear more, clear.IsClear →
          ((t.reading e ⟨.keys ks, screen⟩).rest = [] → more = []) →
          (t.reading e ⟨.keys ks, screen⟩).Repeats more (t.reading e
            ⟨.keys (((t.reading e ⟨.keys ks, screen⟩).read ++ more).filter heard), clear⟩)) := by
  rcases readLine_repeats e t.editorContext hs ks with ⟨hscreen, hcut, hecho⟩ |
    ⟨read, hscreen, hcut, hkeys, hmore⟩
  · refine ⟨hscreen, .inl ⟨hcut, hecho, ?_⟩⟩
    simp only [reading_keys, tellKeys, hecho, ↓reduceIte]
  · refine ⟨hscreen, .inr ⟨hcut, ?_⟩⟩
    intro clear more hclear hend
    obtain ⟨shown, hshown, hclearly⟩ := hmore clear more hclear hend
    have hread : (t.reading e ⟨.keys ks, screen⟩).read = read := Reading.read_eq hkeys
    obtain ⟨read', hkeys', htakes⟩ := readLine_takes e t.editorContext screen ks
    obtain rfl : read = read' := List.append_cancel_right (hkeys.symm.trans hkeys')
    have hheard := e.readLine_heard t.editorContext clear (read ++ more)
    rw [hclearly] at hheard
    -- The session is told of the keys that both readings take.
    have htook : ((read ++ more).filter heard).take
        (((read ++ more).filter heard).length - (more.filter heard).length) =
          read.filter heard := by
      rw [List.filter_append, List.length_append, Nat.add_sub_cancel, List.take_left]
    have htold : t.tellKeys e (ks.take (ks.length -
        (e.readLine t.editorContext screen ks).rest.length))
          (e.readLine t.editorContext screen ks).outcome =
        t.tellKeys e read (e.readLine t.editorContext screen ks).outcome :=
      congrArg (t.tellKeys e · _) hread
    rw [hread, reading_keys t e ((read ++ more).filter heard)]
    simp only [hheard, htook]
    refine ⟨rfl, ?_, rfl, hshown⟩
    exact (tellKeys_heard htakes).trans htold.symm

/-! ## Rows of readings -/

/-- Interruptions take nothing from a row of readings but the keys that were taken by readings that
were interrupted: the others are repeated where nothing is interrupted. -/
theorem Reads.repeats (h : Reads e s c readings t d) (hks : c.source = .keys ks)
    (hs : c.screen.IsUnbroken) :
    ∃ left, d.source = .keys left ∧ d.screen.IsUnbroken ∧
      ∀ more clear, clear.IsClear → (left = [] → more = []) →
        ∃ readings' d', Reads e s ⟨.keys (heardKeys readings more), clear⟩ readings' t d' ∧
          readings'.filterMap Reading.line? = readings.filterMap Reading.line? ∧
          d'.source = .keys (more.filter heard) ∧ d'.screen.IsClear := by
  induction h with
  | start =>
    refine ⟨ks, hks, hs, ?_⟩
    intro more clear hclear _
    exact ⟨[], _, .start, rfl, rfl, hclear⟩
  | @next readings t d h hgoes hlast ih =>
    obtain ⟨left, hleft, hunbroken, hrow⟩ := ih
    obtain ⟨source, shown⟩ := d
    obtain rfl : source = .keys left := hleft
    obtain ⟨hnext, hreading⟩ := reading_repeats t e hunbroken left
    have hsplits := (isFramed_reading (s := t) (c := ⟨.keys left, shown⟩) trivial hgoes e).splits
    refine ⟨_, (source_left t e _).2 left rfl, hnext, ?_⟩
    intro more clear hclear hend
    have hkeys : left = (t.reading e ⟨.keys left, shown⟩).read ++
        (t.reading e ⟨.keys left, shown⟩).rest := hsplits
    have hbehind (hempty : left = []) : (t.reading e ⟨.keys left, shown⟩).read ++ more = [] := by
      obtain ⟨hread, hrest⟩ := List.append_eq_nil_iff.mp (hkeys.symm.trans hempty)
      rw [hread, hend hrest, List.append_nil]
    rcases hreading with ⟨hcut, -, hafter⟩ | ⟨hcut, hmore⟩
    · -- The row goes on with the session that it was at.
      have hsame : (t.reading e ⟨.keys left, shown⟩).next = t := by
        rw [Reading.next, Reading.line?_of_isCut hcut]
        exact hafter
      obtain ⟨readings', d', hreads, hlines, hd'⟩ :=
        hrow more clear hclear fun hempty => (List.append_eq_nil_iff.mp (hbehind hempty)).2
      rw [heardKeys_concat_of_isCut hcut, hsame]
      refine ⟨readings', d', hreads, ?_, hd'⟩
      rw [hlines, List.filterMap_append]
      simp [Reading.line?_of_isCut hcut]
    · obtain ⟨readings', ⟨source', clear'⟩, hreads, hlines, hsource, hclear'⟩ :=
        hrow _ clear hclear hbehind
      obtain rfl : source' = _ := hsource
      have hrepeats := hmore clear' more hclear' hend
      rw [heardKeys_concat hcut, ← hrepeats.next_eq]
      refine ⟨_, _, .next hreads hgoes (hrepeats.isLast_eq.trans hlast), ?_, hrepeats.source,
        hrepeats.isClear⟩
      rw [List.filterMap_append, List.filterMap_append, hlines]
      simp only [List.filterMap_cons, List.filterMap_nil, hrepeats.line?_eq]

/-- Only an editor that shows what it does is interrupted. -/
theorem Reads.echo_of_isCut (h : Reads e s c readings t d) (hks : c.source = .keys ks)
    (hs : c.screen.IsUnbroken) {r : Reading} (hr : r ∈ readings) (hcut : r.isCut = true) :
    e.echo = true := by
  induction h with
  | start => cases hr
  | @next readings t d h _ _ ih =>
    rcases List.mem_append.mp hr with hr | hr
    · exact ih hr
    · obtain ⟨left, hleft, hunbroken, -⟩ := h.repeats hks hs
      obtain ⟨source, shown⟩ := d
      obtain rfl : source = .keys left := hleft
      obtain rfl := List.mem_singleton.mp hr
      rcases (reading_repeats t e hunbroken left).2 with ⟨-, hecho, -⟩ | ⟨hread, -⟩
      · exact hecho
      · cases hcut.symm.trans hread

/-- Nothing is lost of the keys where no reading that was interrupted has heard any. -/
theorem heardKeys_eq (h : ∀ r ∈ readings, r.isCut = true → ∀ key ∈ r.read, heard key = false)
    (left : List Key) :
    heardKeys readings left = (readings.flatMap Reading.read ++ left).filter heard := by
  rw [heardKeys, List.filter_append, List.filter_append]
  congr 1
  induction readings with
  | nil => rfl
  | cons r readings ih =>
    have hrest := ih fun r' hr' => h r' (List.mem_cons_of_mem r hr')
    rcases hcut : r.isCut with _ | _
    · rw [List.filter_cons_of_pos (by simp [hcut]), List.flatMap_cons, List.flatMap_cons,
        List.filter_append, List.filter_append, hrest]
    · have hread : r.read.filter heard = [] := by
        rw [List.filter_eq_nil_iff]
        intro key hkey
        simp [h r (by simp) hcut key hkey]
      rw [List.filter_cons_of_neg (by simp [hcut]), List.flatMap_cons, List.filter_append, hrest,
        hread, List.nil_append]

/-! ## Conversations -/

/-- A conversation ends as one that has come to the same session with the same keys, but for its
interruptions. -/
theorem runEditor_ends {shown clear : Screen} (hs : shown.IsUnbroken) (hclear : clear.IsClear)
    (hend : t.leaving = true ∨ (t.reading e ⟨.keys left, shown⟩).isLast = true) :
    (t.leaving = true ∨ (t.reading e ⟨.keys (left.filter heard), clear⟩).isLast = true) ∧
      (t.runEditor e ⟨.keys (left.filter heard), clear⟩).1 =
        (t.runEditor e ⟨.keys left, shown⟩).1 ∧
      (t.runEditor e ⟨.keys (left.filter heard), clear⟩).2.1 =
        (t.runEditor e ⟨.keys left, shown⟩).2.1 := by
  by_cases hleaving : t.leaving = true
  · have hended (c : Console) : t.runEditor e c = (.ok (), t, c) := by
      rw [runEditor, converse, if_pos hleaving]
    rw [hended, hended]
    exact ⟨.inl hleaving, rfl, rfl⟩
  have hgoes : t.leaving = false := by simpa using hleaving
  have hlast := hend.resolve_left hleaving
  have hsplits := (isFramed_reading (s := t) (c := ⟨.keys left, shown⟩) trivial hgoes e).splits
  rcases (reading_repeats t e hs left).2 with ⟨hcut, -⟩ | ⟨-, hmore⟩
  · rw [Reading.isLast_of_isCut hcut] at hlast
    cases hlast
  have hrepeats := hmore clear _ hclear id
  rw [← hsplits, show (t.reading e ⟨.keys left, shown⟩).keys = left from rfl] at hrepeats
  have hlast' := hrepeats.isLast_eq.trans hlast
  refine ⟨.inr hlast', ?_⟩
  rw [runEditor_of_reading hgoes, runEditor_of_reading hgoes, if_pos hlast, if_pos hlast']
  exact ⟨congrArg (Except.map fun _ => ()) hrepeats.outcome, hrepeats.after⟩

/-- Whether a conversation runs the given lines, up to the given end. -/
def RunsLines (e : Editor) (s : Session) (c : Console) (lines : List String)
    (result : Except Fault Unit) (t : Session) : Prop :=
  (∃ readings u d, Reads e s c readings u d ∧
    (u.leaving = true ∨ (u.reading e d).isLast = true) ∧
    readings.filterMap Reading.line? = lines) ∧
  (s.runEditor e c).1 = result ∧ (s.runEditor e c).2.1 = t

/-- A conversation on keys, among whose reads and flushes some are interrupted, runs the lines that
it runs without interruptions on the keys of the readings that were not interrupted. These are all
keys, but for interrupted reads, if the editor shows nothing, or if no reading was interrupted
behind its first key. -/
theorem runEditor_interrupted (s : Session) (e : Editor) (ks : List Key)
    (hs : screen.IsUnbroken) :
    ∃ readings t d left, Reads e s ⟨.keys ks, screen⟩ readings t d ∧ d.source = .keys left ∧
      (t.leaving = true ∨ (t.reading e d).isLast = true) ∧
      (∃ lines result u, RunsLines e s ⟨.keys ks, screen⟩ lines result u ∧
        ∀ clear, clear.IsClear →
          RunsLines e s ⟨.keys (heardKeys readings left), clear⟩ lines result u) ∧
      ((e.echo = false ∨
          ∀ r ∈ readings, r.isCut = true → ∀ key ∈ r.read, heard key = false) →
        heardKeys readings left = ks.filter heard) := by
  obtain ⟨readings, t, d, hreads, hend⟩ :=
    (Reads.start (e := e) (s := s) (c := ⟨.keys ks, screen⟩)).exists_end rfl
  obtain ⟨left, hleft, hunbroken, hrow⟩ := hreads.repeats rfl hs
  refine ⟨readings, t, d, left, hreads, hleft, hend, ?_, ?_⟩
  · refine ⟨_, _, _, ⟨⟨readings, t, d, hreads, hend, rfl⟩, rfl, rfl⟩, ?_⟩
    intro clear hclear
    obtain ⟨readings', ⟨source', clear'⟩, hreads', hlines, hsource, hclear'⟩ :=
      hrow left clear hclear id
    obtain ⟨source, shown⟩ := d
    obtain rfl : source = .keys left := hleft
    obtain rfl : source' = .keys (left.filter heard) := hsource
    obtain ⟨hend', hresult, hsession⟩ := runEditor_ends hunbroken hclear' hend
    refine ⟨⟨readings', t, _, hreads', hend', hlines⟩, ?_⟩
    rw [hreads'.runEditor_eq, hreads.runEditor_eq]
    exact ⟨hresult, hsession⟩
  · intro hunheard
    obtain ⟨left', hleft', rfl⟩ := hreads.keys_eq rfl
    obtain rfl : left = left' := KeySource.keys.inj (hleft.symm.trans hleft')
    refine heardKeys_eq ?_ left
    intro r hr hcut
    rcases hunheard with hecho | hunheard
    · rw [hreads.echo_of_isCut rfl hs hr hcut] at hecho
      cases hecho
    · exact hunheard r hr hcut

/-- A quiet editor whose reads are interrupted between all keys. -/
theorem runEditor_interrupted_quiet :
    let s : Session := .start (.start ⟨[], "/tmp", false⟩ ["tmp"] (.start .empty [] []))
      ⟨"$ ", none, false⟩
    let f : Fault := .reported .interrupted "signal"
    let typed : List Key := (Text.encode "pwd\n").map .byte
    let screen : Screen := ⟨[], [none, some f]⟩
    screen.IsUnbroken ∧ ∃ lines result u,
      RunsLines .quiet s ⟨.keys (typed.intersperse (.failure f)), screen⟩ lines result u ∧
        RunsLines .quiet s ⟨.keys typed, ⟨[], []⟩⟩ lines result u := by
  intro s f typed screen
  have hs : screen.IsUnbroken := by
    intro g hg
    obtain rfl : g = f := by simpa [screen] using hg
    rfl
  obtain ⟨readings, t, d, left, -, -, -, ⟨lines, result, u, hlines, hclear⟩, hheard⟩ :=
    runEditor_interrupted s .quiet (typed.intersperse (.failure f)) hs
  have hkeys : (typed.intersperse (.failure f)).filter heard = typed := by decide
  refine ⟨hs, lines, result, u, hlines, ?_⟩
  have hrun := hclear _ (Screen.isClear_nil [])
  rwa [hheard (.inl rfl), hkeys] at hrun

/-- A line is lost whose newline is shown with a flush that is interrupted. -/
theorem typed_line_is_lost :
    let s : Session := .start (.start ⟨[], "/tmp", false⟩ ["tmp"] (.start .empty [] []))
      ⟨"$ ", none, false⟩
    let e : Editor := ⟨"$ ", true⟩
    let f : Fault := .reported .interrupted "signal"
    let typed : List Key := (Text.encode "echo hi\n").map .byte
    let screen : Screen := ⟨[], List.replicate 8 none ++ [some f]⟩
    screen.IsUnbroken ∧
      (s.runEditor e ⟨.keys typed, screen⟩).2.1.shell.history.entries = [] ∧
      (s.runEditor e ⟨.keys typed, ⟨[], []⟩⟩).2.1.shell.history.entries = ["echo hi"] := by
  intro s e f typed screen
  have hs : screen.IsUnbroken := by
    intro g hg
    obtain rfl : g = f := by simpa [screen] using hg
    rfl
  have hlost : s.reading e ⟨.keys typed, screen⟩ = ⟨s, ⟨.keys typed, screen⟩, .error f, s,
      ⟨.keys [], ⟨Text.encode "$ echo hi\n", []⟩⟩⟩ := by cbv
  have hline : s.reading e ⟨.keys typed, ⟨[], []⟩⟩ = ⟨s, ⟨.keys typed, ⟨[], []⟩⟩,
      .ok (.line "echo hi"), s, ⟨.keys [], ⟨Text.encode "$ echo hi\n", []⟩⟩⟩ := by cbv
  refine ⟨hs, ?_, ?_⟩
  · rw [runEditor_of_reading rfl, hlost]
    cbv
  · rw [runEditor_of_reading rfl, hline]
    cbv

end CommandShell.Session
