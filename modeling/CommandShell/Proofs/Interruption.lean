import CommandShell.Proofs.Reading

/-!
# Interruptions

A read that was interrupted is made again, so the keys of a line are the same with and without it:
`readLine_heard`. A flush that was interrupted ends the reading of the line, with all that was typed
into it. `readLine_calm` says that there is no other difference between a screen whose flushes are
interrupted and one whose flushes succeed.
-/

namespace CommandShell

/-- Whether no flush of a screen fails. -/
def Screen.IsClear (screen : Screen) : Prop := ∀ f, some f ∉ screen.flushes

theorem Screen.isClear_nil (shown : Bytes) : IsClear ⟨shown, []⟩ := by simp [IsClear]

/-- Whether no flush of a screen fails but by an interruption. -/
def Screen.IsUnbroken (screen : Screen) : Prop :=
  ∀ f, some f ∈ screen.flushes → f.kind = .interrupted

namespace Editor

variable {e : Editor} {c : Context} {line : LineState} {screen clear : Screen}

/-- Whether something was read or came to its end, rather than that the read was interrupted. -/
def heard : Key → Bool
  | .failure f => f.kind ≠ .interrupted
  | _ => true

/-- Whether the reading of a line was interrupted. -/
def isCut : Except Fault ReadOutcome → Bool
  | .error f => f.kind = .interrupted
  | .ok _ => false

/-! ## Interrupted reads -/

/-- A read that was interrupted leaves the line and the screen as they are. -/
theorem press_of_not_heard {key : Key} (h : heard key = false) :
    e.press c line screen key = .goOn line screen := by
  cases key with
  | failure f =>
    have hf : f.kind = .interrupted := by simpa [heard] using h
    rw [press, if_pos hf]
  | _ => cases h

/-- Interrupted reads make no difference to what keys are typed to. -/
theorem pressAll_heard (e : Editor) (c : Context) (line : LineState) (screen : Screen)
    (keys : List Key) :
    e.pressAll c line screen (keys.filter heard) = e.pressAll c line screen keys := by
  induction keys generalizing line screen with
  | nil => rfl
  | cons key keys ih =>
    rw [pressAll]
    rcases hkey : heard key with _ | _
    · rw [List.filter_cons_of_neg (by simp [hkey]), press_of_not_heard hkey]
      exact ih line screen
    · rw [List.filter_cons_of_pos hkey, pressAll]
      split
      · exact ih _ _
      · rfl

/-- Interrupted reads make no difference to a line that is read on. -/
theorem readFrom_heard (e : Editor) (c : Context) (line : LineState) (screen : Screen)
    (keys : List Key) :
    e.readFrom c line screen (keys.filter heard) =
      { e.readFrom c line screen keys with
        rest := (e.readFrom c line screen keys).rest.filter heard } := by
  induction keys generalizing line screen with
  | nil => rfl
  | cons key keys ih =>
    rw [readFrom]
    rcases hkey : heard key with _ | _
    · rw [List.filter_cons_of_neg (by simp [hkey]), press_of_not_heard hkey]
      exact ih line screen
    · rw [List.filter_cons_of_pos hkey, readFrom]
      split
      · exact ih _ _
      · rfl

/-- Interrupted reads make no difference to the reading of a line. -/
theorem readLine_heard (e : Editor) (c : Context) (screen : Screen) (keys : List Key) :
    e.readLine c screen (keys.filter heard) =
      { e.readLine c screen keys with rest := (e.readLine c screen keys).rest.filter heard } := by
  rw [readLine, readLine]
  split
  · exact e.readFrom_heard c _ _ keys
  · rfl

/-! ## Interrupted flushes -/

/-- Whether a key leads to the same as on a screen whose flushes succeed, unless a flush was
interrupted. -/
inductive Pressed.Matches (e : Editor) : Pressed → Pressed → Prop
  | goOn {line : LineState} {screen clear : Screen} :
      screen.IsUnbroken → clear.IsClear → Matches e (.goOn line screen) (.goOn line clear)
  | stop {result : Except Fault ReadOutcome} {screen clear : Screen} :
      screen.IsUnbroken → clear.IsClear → isCut result = false →
        Matches e (.stop result screen) (.stop result clear)
  | cut {result : Except Fault ReadOutcome} {screen : Screen} {pressed : Pressed} :
      screen.IsUnbroken → isCut result = true → e.echo = true →
        Matches e (.stop result screen) pressed

/-- A key that goes on does so on all screens whose flushes succeed. -/
theorem Pressed.Matches.of_goOn {pressed : Screen → Pressed}
    (h : ∀ clear, clear.IsClear → (Pressed.goOn line screen).Matches e (pressed clear)) :
    screen.IsUnbroken ∧
      ∀ clear, clear.IsClear → ∃ shown, shown.IsClear ∧ pressed clear = .goOn line shown := by
  have hgoes {other : Pressed} (h : (Pressed.goOn line screen).Matches e other) :
      screen.IsUnbroken ∧ ∃ shown, shown.IsClear ∧ other = .goOn line shown := by
    cases h with
    | goOn hscreen hclear => exact ⟨hscreen, _, hclear, rfl⟩
  exact ⟨(hgoes (h _ (Screen.isClear_nil []))).1, fun clear hclear => (hgoes (h clear hclear)).2⟩

/-- A key that stops was interrupted, or it stops alike on all screens whose flushes succeed. -/
theorem Pressed.Matches.of_stop {result : Except Fault ReadOutcome} {pressed : Screen → Pressed}
    (h : ∀ clear, clear.IsClear → (Pressed.stop result screen).Matches e (pressed clear)) :
    screen.IsUnbroken ∧ (isCut result = true ∧ e.echo = true ∨ isCut result = false ∧
      ∀ clear, clear.IsClear → ∃ shown, shown.IsClear ∧ pressed clear = .stop result shown) := by
  have hstops {other : Pressed} (h : (Pressed.stop result screen).Matches e other) :
      screen.IsUnbroken ∧ (isCut result = true ∧ e.echo = true ∨
        isCut result = false ∧ ∃ shown, shown.IsClear ∧ other = .stop result shown) := by
    cases h with
    | stop hscreen hclear hcut => exact ⟨hscreen, .inr ⟨hcut, _, hclear, rfl⟩⟩
    | cut hscreen hcut hecho => exact ⟨hscreen, .inl ⟨hcut, hecho⟩⟩
  obtain ⟨hscreen, hcut | ⟨hcut, -⟩⟩ := hstops (h _ (Screen.isClear_nil []))
  · exact ⟨hscreen, .inl hcut⟩
  · refine ⟨hscreen, .inr ⟨hcut, fun clear hclear => ?_⟩⟩
    obtain ⟨-, ⟨hcut', -⟩ | ⟨-, hstop⟩⟩ := hstops (h clear hclear)
    · exact absurd (hcut.symm.trans hcut') Bool.false_ne_true
    · exact hstop

/-- Showing something succeeds, or is interrupted if anything is shown at all. -/
theorem emit_cases (e : Editor) (hs : screen.IsUnbroken) (bytes : Bytes) :
    (e.emit screen bytes).2.IsUnbroken ∧ ((e.emit screen bytes).1 = .ok () ∨
      ∃ f, (e.emit screen bytes).1 = .error f ∧ f.kind = .interrupted ∧ e.echo = true) := by
  obtain ⟨shown, flushes⟩ := screen
  rw [emit]
  split
  swap
  · exact ⟨hs, .inl rfl⟩
  next hecho =>
  have hnext : (⟨shown ++ bytes, flushes.drop 1⟩ : Screen).IsUnbroken :=
    fun f hf => hs f (List.mem_of_mem_drop hf)
  rcases flushes with _ | ⟨_ | f, flushes⟩
  · exact ⟨hnext, .inl rfl⟩
  · exact ⟨hnext, .inl rfl⟩
  · exact ⟨hnext, .inr ⟨f, rfl, hs f (by simp), hecho⟩⟩

/-- Showing something succeeds where flushes succeed. -/
theorem emit_clear (e : Editor) (hclear : clear.IsClear) (bytes : Bytes) :
    ∃ shown, e.emit clear bytes = (.ok (), shown) ∧ shown.IsClear := by
  obtain ⟨shown, flushes⟩ := clear
  rw [emit]
  split
  swap
  · exact ⟨_, rfl, hclear⟩
  have hnext : (⟨shown ++ bytes, flushes.drop 1⟩ : Screen).IsClear :=
    fun f hf => hclear f (List.mem_of_mem_drop hf)
  rcases flushes with _ | ⟨_ | f, flushes⟩
  · exact ⟨_, rfl, hnext⟩
  · exact ⟨_, rfl, hnext⟩
  · exact absurd List.mem_cons_self (hclear f)

section Pressing

variable (hs : screen.IsUnbroken) (hclear : clear.IsClear)

include hs hclear

theorem showAndGoOn_matches (bytes : Bytes) :
    (e.showAndGoOn line screen bytes).Matches e (e.showAndGoOn line clear bytes) := by
  obtain ⟨shown, hemit, hshown⟩ := e.emit_clear hclear bytes
  obtain ⟨hnext, hresult⟩ := e.emit_cases hs bytes
  rw [showAndGoOn, showAndGoOn, hemit]
  rcases hscreen : e.emit screen bytes with ⟨result, next⟩
  rw [hscreen] at hnext hresult
  obtain rfl | ⟨f, rfl, hf, hecho⟩ := hresult
  · exact .goOn hnext hshown
  · exact .cut hnext (by simpa [isCut] using hf) hecho

theorem endWith_matches (outcome : ReadOutcome) :
    (Pressed.stop (e.endWith screen outcome).1 (e.endWith screen outcome).2).Matches e
      (.stop (e.endWith clear outcome).1 (e.endWith clear outcome).2) := by
  obtain ⟨shown, hemit, hshown⟩ := e.emit_clear hclear [lineFeed]
  obtain ⟨hnext, hresult⟩ := e.emit_cases hs [lineFeed]
  rw [endWith, endWith, hemit]
  rcases hscreen : e.emit screen [lineFeed] with ⟨result, next⟩
  rw [hscreen] at hnext hresult
  obtain rfl | ⟨f, rfl, hf, hecho⟩ := hresult
  · exact .stop hnext hshown rfl
  · exact .cut hnext (by simpa [isCut, Except.map] using hf) hecho

theorem atEnd_matches : (Pressed.stop (e.atEnd line screen).1 (e.atEnd line screen).2).Matches e
    (.stop (e.atEnd line clear).1 (e.atEnd line clear).2) := by
  rw [atEnd, atEnd]
  split
  · exact .stop hs hclear rfl
  · exact endWith_matches hs hclear _

theorem pressTab_matches :
    (e.pressTab c line screen).Matches e (e.pressTab c line clear) := by
  rw [pressTab, pressTab]
  split
  · exact showAndGoOn_matches hs hclear _
  · exact showAndGoOn_matches hs hclear _
  · split
    · exact showAndGoOn_matches hs hclear _
    · exact showAndGoOn_matches hs hclear _

theorem pressSequence_matches (first second : Option UInt8) :
    (e.pressSequence c line screen first second).Matches e
      (e.pressSequence c line clear first second) := by
  have hentry (line : LineState) (entry : Nat) :
      (e.showEntry c line screen entry).Matches e (e.showEntry c line clear entry) := by
    rw [showEntry, showEntry]
    split
    · exact .goOn hs hclear
    · exact showAndGoOn_matches hs hclear _
  simp only [pressSequence]
  split
  · exact hentry _ _
  split
  · exact hentry _ _
  · exact .goOn hs hclear

theorem pressByte_matches (b : UInt8) :
    (e.pressByte c line screen b).Matches e (e.pressByte c line clear b) := by
  cases byte_effect c line b with
  | ends _ hpress | quits _ _ hpress =>
    rw [hpress, hpress]
    exact endWith_matches hs hclear _
  | erases _ _ hpress | types _ hpress =>
    rw [hpress, hpress]
    exact showAndGoOn_matches hs hclear _
  | completes _ hpress =>
    rw [hpress, hpress]
    split
    · exact pressTab_matches hs hclear
    · exact .goOn hs hclear
  | begins _ hpress | keeps _ _ _ _ hpress =>
    rw [hpress, hpress]
    exact .goOn hs hclear

/-- Interrupted flushes are all that makes a key lead elsewhere. -/
theorem press_matches (key : Key) :
    (e.press c line screen key).Matches e (e.press c line clear key) := by
  have hread (read : Option UInt8) :
      (e.pressRead c line screen read).Matches e (e.pressRead c line clear read) := by
    simp only [pressRead]
    split
    · exact pressByte_matches hs hclear _
    · exact atEnd_matches hs hclear
    · exact .goOn hs hclear
    · exact pressSequence_matches hs hclear _ _
  cases key with
  | byte b => exact hread (some b)
  | endOfInput => exact hread none
  | failure f =>
    rw [press, press]
    split
    · exact .goOn hs hclear
    · next hf => exact .stop hs hclear (by simpa [isCut] using hf)

end Pressing

/-! ## Interrupted readings -/

/-- Whether a way of reading keys was interrupted, or takes the same keys to the same outcome where
flushes succeed, whatever is behind them. A reading that has come to the end of the keys has nothing
behind them. -/
inductive ReadResult.Repeats (e : Editor) (run : Screen → List Key → ReadResult) (keys : List Key)
    (result : ReadResult) : Prop
  | cut : result.screen.IsUnbroken → isCut result.outcome = true → e.echo = true →
      Repeats e run keys result
  | read (read : List Key) : result.screen.IsUnbroken → isCut result.outcome = false →
      keys = read ++ result.rest →
      (∀ clear more, clear.IsClear → (result.rest = [] → more = []) →
        ∃ shown, shown.IsClear ∧ run clear (read ++ more) = ⟨result.outcome, shown, more⟩) →
      Repeats e run keys result

/-- Only interrupted flushes make a difference to a line that is read on. -/
theorem readFrom_repeats (hs : screen.IsUnbroken) (keys : List Key) :
    (e.readFrom c line screen keys).Repeats e (e.readFrom c line) keys := by
  induction keys generalizing line screen with
  | nil =>
    have hmatches (clear : Screen) (hclear : clear.IsClear) :
        (Pressed.stop (e.atEnd line screen).1 (e.atEnd line screen).2).Matches e
          (.stop (e.atEnd line clear).1 (e.atEnd line clear).2) := atEnd_matches hs hclear
    obtain ⟨hnext, ⟨hcut, hecho⟩ | ⟨hcut, hends⟩⟩ := Pressed.Matches.of_stop hmatches
    · exact .cut hnext hcut hecho
    · refine .read [] hnext hcut rfl ?_
      intro clear more hclear hmore
      obtain rfl : more = [] := hmore rfl
      obtain ⟨shown, hshown, heq⟩ := hends clear hclear
      obtain ⟨houtcome, rfl⟩ := Pressed.stop.inj heq
      exact ⟨_, hshown, congrArg (ReadResult.mk · _ []) houtcome⟩
  | cons key keys ih =>
    have hmatches (clear : Screen) (hclear : clear.IsClear) :
        (e.press c line screen key).Matches e (e.press c line clear key) :=
      press_matches hs hclear key
    rw [readFrom]
    generalize e.press c line screen key = pressed at hmatches
    rcases pressed with ⟨line', next⟩ | ⟨outcome, next⟩
    · obtain ⟨hnext, hgoes⟩ := Pressed.Matches.of_goOn hmatches
      have hrest : (e.readFrom c line' next keys).Repeats e (e.readFrom c line') keys := ih hnext
      cases hrest with
      | cut hscreen hcut hecho => exact .cut hscreen hcut hecho
      | read read hscreen hcut hkeys hmore =>
        refine .read (key :: read) hscreen hcut (congrArg (key :: ·) hkeys) ?_
        intro clear more hclear hend
        obtain ⟨clear', hclear', hpress⟩ := hgoes clear hclear
        rw [List.cons_append, readFrom, hpress]
        exact hmore clear' more hclear' hend
    · obtain ⟨hnext, ⟨hcut, hecho⟩ | ⟨hcut, hstops⟩⟩ := Pressed.Matches.of_stop hmatches
      · exact .cut hnext hcut hecho
      · refine .read [key] hnext hcut rfl ?_
        intro clear more hclear _
        obtain ⟨shown, hshown, hpress⟩ := hstops clear hclear
        exact ⟨shown, hshown, by rw [List.singleton_append, readFrom, hpress]⟩

/-- Only interrupted flushes make a difference to the reading of a line. -/
theorem readLine_repeats (e : Editor) (c : Context) (hs : screen.IsUnbroken) (keys : List Key) :
    (e.readLine c screen keys).Repeats e (e.readLine c) keys := by
  obtain ⟨hnext, hprompt⟩ := e.emit_cases hs (Text.encode e.prompt)
  rw [readLine]
  rcases hemit : e.emit screen (Text.encode e.prompt) with ⟨result, next⟩
  rw [hemit] at hnext hprompt
  obtain rfl | ⟨f, rfl, hf, hecho⟩ := hprompt
  · have hread : (e.readFrom c (.fresh c.history) next keys).Repeats e
        (e.readFrom c (.fresh c.history)) keys := readFrom_repeats hnext keys
    cases hread with
    | cut hscreen hcut hecho => exact .cut hscreen hcut hecho
    | read read hscreen hcut hkeys hmore =>
      refine .read read hscreen hcut hkeys ?_
      intro clear more hclear hend
      obtain ⟨clear', hclear', hshown⟩ := e.emit_clear hclear (Text.encode e.prompt)
      rw [readLine, hclear']
      exact hmore clear' more hshown hend
  · exact .cut hnext (by simpa [isCut] using hf) hecho

/-! ## The end of the keys of a quiet editor -/

/-- A key that a quiet editor goes on behind. -/
theorem press_goOn_of_quiet {line' : LineState} {screen' : Screen} {key : Key}
    (he : e.echo = false) (hp : line.pending = .nothing)
    (h : e.press c line screen key = .goOn line' screen') :
    line'.pending = .nothing ∧ key ≠ .byte lineFeed ∧ key ≠ .byte carriageReturn ∧
      (key = .byte endOfTransmission → line'.buffer ≠ []) := by
  cases key with
  | endOfInput =>
    rw [press_endOfInput hp] at h
    cases h
  | failure f =>
    rw [press] at h
    split at h
    · cases h
      exact ⟨hp, by simp⟩
    · cases h
  | byte b =>
    rw [press_byte hp] at h
    refine ⟨?_, fun hkey => ?_, fun hkey => ?_, fun hkey => ?_⟩
    · have hshow (next : LineState) (bytes : Bytes) :
          e.showAndGoOn next screen bytes = .goOn next screen := by
        simp [showAndGoOn, emit, he]
      cases byte_effect c line b with
      | ends _ hpress | quits _ _ hpress =>
        rw [hpress] at h
        cases h
      | erases _ _ hpress | types _ hpress =>
        rw [hpress, hshow] at h
        cases h
        exact hp
      | completes _ hpress | begins _ hpress =>
        simp only [hpress, he, Bool.false_eq_true, ↓reduceIte] at h
        cases h
        exact hp
      | keeps _ _ _ _ hpress =>
        rw [hpress] at h
        cases h
        exact hp
    · rw [pressByte_end (.inl (Key.byte.inj hkey))] at h
      cases h
    · rw [pressByte_end (.inr (Key.byte.inj hkey))] at h
      cases h
    · rw [Key.byte.inj hkey, pressByte_endOfTransmission] at h
      split at h
      · cases h
      · next hne =>
        obtain ⟨rfl, -⟩ := Pressed.goOn.inj h
        simpa using hne

/-- The last of some keys that a quiet editor goes on behind. -/
theorem getLast?_of_quiet {start : LineState} {keys : List Key} (he : e.echo = false)
    (hp : start.pending = .nothing) (h : e.pressAll c start screen keys = some (line, clear)) :
    keys.getLast? ≠ some (.byte lineFeed) ∧ keys.getLast? ≠ some (.byte carriageReturn) ∧
      (keys.getLast? = some (.byte endOfTransmission) → line.buffer ≠ []) := by
  induction keys generalizing start screen with
  | nil => simp
  | cons key keys ih =>
    rw [pressAll] at h
    split at h
    · next line' screen' hpress =>
      obtain ⟨hp', hlf, hcr, heot⟩ := press_goOn_of_quiet he hp hpress
      rcases keys with _ | ⟨next, keys⟩
      · cases h
        simpa using ⟨hlf, hcr, heot⟩
      · simpa using ih hp' h
    · cases h

/-- Where the keys of a quiet editor are over, it has seen their end. -/
theorem sawEnd_atEnd {keys : List Key} (he : e.echo = false)
    (h : e.typed? c screen keys = some (line, clear)) :
    sawEnd keys (e.atEnd line clear).1 = true := by
  have hemit (screen : Screen) (bytes : Bytes) : e.emit screen bytes = (.ok (), screen) := by
    simp [emit, he]
  rw [typed?, hemit] at h
  obtain ⟨hlf, hcr, heot⟩ := getLast?_of_quiet he rfl h
  rw [atEnd]
  split
  · next hempty =>
    have hne : keys.getLast? ≠ some (.byte endOfTransmission) :=
      fun hlast => heot hlast (by simpa using hempty)
    simpa [sawEnd] using hne
  · next hne =>
    simp [endWith, hemit, outcomeOf, hne, Except.map, sawEnd, hlf, hcr]

/-- Interrupted reads are not what a quiet editor takes the end of its keys by. -/
theorem sawEnd_heard {read left : List Key} {outcome : Except Fault ReadOutcome}
    (he : e.echo = false) (h : e.Takes c screen read left outcome) :
    sawEnd (read.filter heard) outcome = sawEnd read outcome := by
  cases h with
  | unprompted _ => rfl
  | @key front _ key line shown shown' _ htyped hpress =>
    have hkey : heard key = true := by
      by_contra hne
      rw [press_of_not_heard (by simpa using hne)] at hpress
      cases hpress
    rw [List.filter_append, List.filter_cons_of_pos hkey, List.filter_nil]
    simp [sawEnd]
  | all htyped =>
    have hfiltered : e.typed? c screen (read.filter heard) = e.typed? c screen read := by
      rw [typed?, typed?]
      split
      · exact e.pressAll_heard c _ _ read
      · rfl
    rw [sawEnd_atEnd he htyped, sawEnd_atEnd he (hfiltered.trans htyped)]

end Editor

end CommandShell
