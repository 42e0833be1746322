import CommandShell.Editor

/-!
# What a byte does

Outside escape sequences, a byte does one of a few things to a line. Which it is depends on the byte
and on the text of the line, but on neither the editor nor its screen: `byte_effect`. What is said
about an editor byte by byte is said from there. Few keys give something out: `gives_of_press`.
-/

namespace CommandShell.Editor

variable {e : Editor} {c : Context} {line : LineState} {screen screen' : Screen} {b : UInt8}
  {outcome : ReadOutcome}

/-- Outside an escape sequence, a byte stands for itself. -/
theorem press_byte (hp : line.pending = .nothing) (b : UInt8) :
    e.press c line screen (.byte b) = e.pressByte c line screen b := by
  simp only [press, pressRead, hp]

/-- Outside an escape sequence, the end of the input ends the line. -/
theorem press_endOfInput (hp : line.pending = .nothing) :
    e.press c line screen .endOfInput =
      .stop (e.atEnd line screen).1 (e.atEnd line screen).2 := by
  simp only [press, pressRead, hp]

/-! ## Bytes with a meaning -/

/-- The ends of lines give out the text. -/
theorem pressByte_end (hb : b = lineFeed ∨ b = carriageReturn) :
    e.pressByte c line screen b =
      .stop (e.endWith screen (outcomeOf line.buffer)).1
        (e.endWith screen (outcomeOf line.buffer)).2 := by
  rcases hb with rfl | rfl <;> rfl

/-- The end of the transmission is the end of all lines, unless there is some text. -/
theorem pressByte_endOfTransmission :
    e.pressByte c line screen endOfTransmission =
      if line.buffer.isEmpty then .stop (e.endWith screen .quit).1 (e.endWith screen .quit).2
      else .goOn { line with bellRang := false } screen :=
  rfl

/-- A character is taken back, if there is one. -/
theorem pressByte_erase (hb : b = delete ∨ b = backspace) :
    e.pressByte c line screen b =
      if line.buffer.isEmpty then .goOn { line with bellRang := false } screen
      else
        e.showAndGoOn { line with buffer := line.buffer.dropLast, bellRang := false } screen
          [backspace, space, backspace] := by
  rcases hb with rfl | rfl <;> rfl

/-- A tab completes the line, or is taken as it is. -/
theorem pressByte_tab :
    e.pressByte c line screen tab =
      if e.echo then e.pressTab c line screen
      else .goOn { line with buffer := line.buffer ++ ['\t'] } screen :=
  rfl

/-- An escape begins a sequence, if the editor knows any. -/
theorem pressByte_escape :
    e.pressByte c line screen escape =
      .goOn { line with bellRang := false, pending := if e.echo then .first else line.pending }
        screen := by
  obtain ⟨prompt, _ | _⟩ := e <;> rfl

/-- A printable byte is not one of those with another meaning. -/
theorem ne_of_isPrintable (hb : isPrintable b = true) {k : UInt8} (hk : isPrintable k = false) :
    b ≠ k := by
  rintro rfl
  exact Bool.false_ne_true (hk.symm.trans hb)

/-- A printable byte is typed into the line. -/
theorem pressByte_printable (hb : isPrintable b = true) :
    e.pressByte c line screen b =
      e.showAndGoOn
        { line with buffer := line.buffer ++ [Char.ofNat b.toNat], bellRang := false } screen
        [b] := by
  have hmeaning : b ≠ tab ∧ b ≠ lineFeed ∧ b ≠ carriageReturn ∧ b ≠ endOfTransmission ∧
      b ≠ delete ∧ b ≠ backspace ∧ b ≠ escape := by
    refine ⟨?_, ?_, ?_, ?_, ?_, ?_, ?_⟩ <;> exact ne_of_isPrintable hb (by decide)
  simp only [pressByte, hmeaning, hb, or_self, false_and, ↓reduceIte]

/-! ## Any byte -/

/-- What a byte does to a line that is in no escape sequence, with any editor and on any screen. -/
inductive ByteEffect (c : Context) (line : LineState) (b : UInt8) : Prop
  /-- The line is given out. -/
  | ends (hb : b = lineFeed ∨ b = carriageReturn)
      (h : ∀ (e : Editor) (screen : Screen), e.pressByte c line screen b =
        .stop (e.endWith screen (outcomeOf line.buffer)).1
          (e.endWith screen (outcomeOf line.buffer)).2)
  /-- There are no more lines. -/
  | quits (hb : b = endOfTransmission) (hempty : line.buffer = [])
      (h : ∀ (e : Editor) (screen : Screen), e.pressByte c line screen b =
        .stop (e.endWith screen .quit).1 (e.endWith screen .quit).2)
  /-- The last character is taken back. -/
  | erases (hb : b = delete ∨ b = backspace) (hne : line.buffer ≠ [])
      (h : ∀ (e : Editor) (screen : Screen), e.pressByte c line screen b =
        e.showAndGoOn { line with buffer := line.buffer.dropLast, bellRang := false } screen
          [backspace, space, backspace])
  /-- The line is completed, or a tab is taken as it is. -/
  | completes (hb : b = tab)
      (h : ∀ (e : Editor) (screen : Screen), e.pressByte c line screen b =
        if e.echo then e.pressTab c line screen
        else .goOn { line with buffer := line.buffer ++ ['\t'] } screen)
  /-- An escape sequence begins, if the editor knows any. -/
  | begins (hb : b = escape)
      (h : ∀ (e : Editor) (screen : Screen), e.pressByte c line screen b =
        .goOn { line with bellRang := false, pending := if e.echo then .first else line.pending }
          screen)
  /-- A character is typed. -/
  | types (hb : isPrintable b = true)
      (h : ∀ (e : Editor) (screen : Screen), e.pressByte c line screen b =
        e.showAndGoOn
          { line with buffer := line.buffer ++ [Char.ofNat b.toNat], bellRang := false } screen
          [b])
  /-- The text stays as it is. -/
  | keeps (hends : ¬(b = lineFeed ∨ b = carriageReturn))
      (hquits : b = endOfTransmission → line.buffer ≠ [])
      (herases : b = delete ∨ b = backspace → line.buffer = [])
      (htypes : ¬(isPrintable b = true ∨ b = tab))
      (h : ∀ (e : Editor) (screen : Screen), e.pressByte c line screen b =
        .goOn { line with bellRang := false } screen)

/-- Every byte does something. -/
theorem byte_effect (c : Context) (line : LineState) (b : UInt8) : ByteEffect c line b := by
  by_cases hend : b = lineFeed ∨ b = carriageReturn
  · exact .ends hend fun e screen => pressByte_end hend
  by_cases hquit : b = endOfTransmission
  · subst hquit
    by_cases hempty : line.buffer = []
    · exact .quits rfl hempty fun e screen => by simp [pressByte_endOfTransmission, hempty]
    · exact .keeps hend (fun _ => hempty) (fun hb => absurd hb (by decide)) (by decide)
        fun e screen => by simp [pressByte_endOfTransmission, hempty]
  by_cases herase : b = delete ∨ b = backspace
  · by_cases hempty : line.buffer = []
    · exact .keeps hend (fun hb => absurd hb hquit) (fun _ => hempty)
        (by rcases herase with rfl | rfl <;> decide)
        fun e screen => by simp [pressByte_erase herase, hempty]
    · exact .erases herase hempty fun e screen => by simp [pressByte_erase herase, hempty]
  by_cases htab : b = tab
  · subst htab
    exact .completes rfl fun e screen => pressByte_tab
  by_cases hescape : b = escape
  · subst hescape
    exact .begins rfl fun e screen => pressByte_escape
  by_cases hprint : isPrintable b = true
  · exact .types hprint fun e screen => pressByte_printable hprint
  · refine .keeps hend (fun hb => absurd hb hquit) (fun hb => absurd hb herase)
      (not_or.mpr ⟨hprint, htab⟩) fun e screen => ?_
    simp only [pressByte, htab, hend, hquit, herase, hescape, hprint, false_and,
      Bool.false_eq_true, ↓reduceIte]

/-! ## Keys that give something out -/

/-- Only a fault of the screen keeps a line from going on that was shown. -/
theorem showAndGoOn_ne_stop {bytes : Bytes} :
    e.showAndGoOn line screen bytes ≠ .stop (.ok outcome) screen' := by
  rw [showAndGoOn]
  split <;> simp

/-- A tab does not end a line. -/
theorem pressTab_ne_stop :
    e.pressTab c line screen ≠ .stop (.ok outcome) screen' := by
  rw [pressTab]
  split
  · exact showAndGoOn_ne_stop
  · exact showAndGoOn_ne_stop
  · split <;> exact showAndGoOn_ne_stop

/-- An escape sequence does not end a line. -/
theorem pressSequence_ne_stop {first second : Option UInt8} :
    e.pressSequence c line screen first second ≠ .stop (.ok outcome) screen' := by
  have hentry {next : LineState} {entry : Nat} :
      e.showEntry c next screen entry ≠ .stop (.ok outcome) screen' := by
    rw [showEntry]
    split
    · simp
    · exact showAndGoOn_ne_stop
  simp only [pressSequence]
  split
  · exact hentry
  split
  · exact hentry
  · simp

/-- What gives something out stands in no escape sequence. -/
theorem pending_of_pressRead {read : Option UInt8}
    (h : e.pressRead c line screen read = .stop (.ok outcome) screen') :
    line.pending = .nothing := by
  simp only [pressRead] at h
  split at h
  · assumption
  · assumption
  · cases h
  · exact absurd h pressSequence_ne_stop

/-- How a key gives something out on a screen, and what the screen is then. -/
inductive Gives (e : Editor) (line : LineState) (screen : Screen) (outcome : ReadOutcome)
    (screen' : Screen) : Key → Prop
  /-- The end of a line gives out its text. -/
  | line {b : UInt8} : b = lineFeed ∨ b = carriageReturn →
      e.endWith screen (outcomeOf line.buffer) = (.ok outcome, screen') →
        Gives e line screen outcome screen' (.byte b)
  /-- There are no more lines. -/
  | quit : e.endWith screen .quit = (.ok outcome, screen') →
      Gives e line screen outcome screen' (.byte endOfTransmission)
  /-- The input is at its end. -/
  | atEnd : e.atEnd line screen = (.ok outcome, screen') →
      Gives e line screen outcome screen' .endOfInput

/-- A byte that gives something out ends the line, or all lines. -/
theorem gives_of_pressByte (h : e.pressByte c line screen b = .stop (.ok outcome) screen') :
    e.Gives line screen outcome screen' (.byte b) := by
  cases byte_effect c line b with
  | ends hb hpress =>
    rw [hpress] at h
    obtain ⟨hresult, hshown⟩ := Pressed.stop.inj h
    exact .line hb (Prod.ext hresult hshown)
  | quits hb _ hpress =>
    subst hb
    rw [hpress] at h
    obtain ⟨hresult, hshown⟩ := Pressed.stop.inj h
    exact .quit (Prod.ext hresult hshown)
  | erases _ _ hpress | types _ hpress =>
    rw [hpress] at h
    exact absurd h showAndGoOn_ne_stop
  | completes _ hpress =>
    rw [hpress] at h
    split at h
    · exact absurd h pressTab_ne_stop
    · cases h
  | begins _ hpress | keeps _ _ _ _ hpress =>
    rw [hpress] at h
    cases h

/-- Whatever gives something out is the end of a line, of all lines or of the input. -/
theorem gives_of_press {key : Key}
    (h : e.press c line screen key = .stop (.ok outcome) screen') :
    e.Gives line screen outcome screen' key := by
  cases key with
  | byte b =>
    rw [press_byte (pending_of_pressRead h)] at h
    exact gives_of_pressByte h
  | endOfInput =>
    rw [press_endOfInput (pending_of_pressRead h)] at h
    obtain ⟨hresult, hshown⟩ := Pressed.stop.inj h
    exact .atEnd (Prod.ext hresult hshown)
  | failure f =>
    rw [press] at h
    split at h <;> cases h

end CommandShell.Editor
