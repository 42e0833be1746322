import CommandShell.Proofs.Display

/-!
# What reading a line takes

Reading a line takes keys up to the one that ends the line, and leaves all behind it.
`readLine_takes` says so for every editor, every screen and every fault, and `Takes.gives_line` says
which keys end a line that is given out.
-/

namespace CommandShell.Editor

variable {e : Editor} {c : Context} {line : LineState} {screen screen' : Screen}

/-- What reading a line takes off some keys, what it leaves of them and what it comes to: it fails
before the first key, or a key ends the line, or the line goes on to the end of the keys. -/
inductive Takes (e : Editor) (c : Context) (screen : Screen) :
    List Key → List Key → Except Fault ReadOutcome → Prop
  | unprompted {left : List Key} {f : Fault} {shown : Screen} :
      e.emit screen (Text.encode e.prompt) = (.error f, shown) →
        Takes e c screen [] left (.error f)
  | key {front left : List Key} {key : Key} {line : LineState} {shown shown' : Screen}
      {outcome : Except Fault ReadOutcome} :
      e.typed? c screen front = some (line, shown) →
        e.press c line shown key = .stop outcome shown' →
          Takes e c screen (front ++ [key]) left outcome
  | all {front : List Key} {line : LineState} {shown : Screen} :
      e.typed? c screen front = some (line, shown) →
        Takes e c screen front [] (e.atEnd line shown).1

/-! ## Where reading stops -/

/-- Reading on from a line takes keys that keep it going and the one that ends it, if one does. -/
theorem readFrom_splits (e : Editor) (c : Context) (line : LineState) (screen : Screen)
    (keys : List Key) :
    ∃ front line' shown, e.pressAll c line screen front = some (line', shown) ∧
      ((∃ key shown', keys = front ++ key :: (e.readFrom c line screen keys).rest ∧
          e.press c line' shown key =
            .stop (e.readFrom c line screen keys).outcome shown') ∨
        (keys = front ∧ (e.readFrom c line screen keys).rest = [] ∧
          (e.readFrom c line screen keys).outcome = (e.atEnd line' shown).1)) := by
  induction keys generalizing line screen with
  | nil => exact ⟨[], line, screen, rfl, .inr ⟨rfl, rfl, rfl⟩⟩
  | cons key keys ih =>
    rw [readFrom]
    cases hpress : e.press c line screen key with
    | goOn next shown =>
      obtain ⟨front, line', shown', hfront, hends⟩ := ih next shown
      have hall : e.pressAll c line screen (key :: front) = some (line', shown') := by
        rw [pressAll, hpress]
        exact hfront
      refine ⟨key :: front, line', shown', hall, ?_⟩
      obtain ⟨last, shown'', hkeys, hlast⟩ | ⟨hkeys, hrest, hend⟩ := hends
      · exact .inl ⟨last, shown'', congrArg (key :: ·) hkeys, hlast⟩
      · exact .inr ⟨congrArg (key :: ·) hkeys, hrest, hend⟩
    | stop outcome shown => exact ⟨[], line, screen, rfl, .inl ⟨key, shown, rfl, hpress⟩⟩

/-- Reading a line takes the keys in front of those that it leaves. -/
theorem readLine_takes (e : Editor) (c : Context) (screen : Screen) (keys : List Key) :
    ∃ read, keys = read ++ (e.readLine c screen keys).rest ∧
      e.Takes c screen read (e.readLine c screen keys).rest
        (e.readLine c screen keys).outcome := by
  rw [readLine]
  rcases hprompt : e.emit screen (Text.encode e.prompt) with ⟨f | ⟨⟩, shown⟩
  · exact ⟨[], rfl, .unprompted hprompt⟩
  · obtain ⟨front, line, shown', hfront, hends⟩ := readFrom_splits e c (.fresh c.history) shown keys
    have htyped : e.typed? c screen front = some (line, shown') := by
      rw [typed?, hprompt]
      exact hfront
    obtain ⟨key, _, hkeys, hkey⟩ | ⟨rfl, hrest, hend⟩ := hends
    · refine ⟨front ++ [key], ?_, .key htyped hkey⟩
      rw [List.append_assoc]
      exact hkeys
    · dsimp only
      rw [hrest, hend]
      exact ⟨keys, (List.append_nil keys).symm, .all htyped⟩

/-! ## Keys that end a line -/

/-- Whether a key ends a line that has some text. -/
def endsLine : Key → Bool
  | .byte b => b = lineFeed || b = carriageReturn
  | .endOfInput => true
  | .failure _ => false

/-- A line that is ended on the screen is given out as it is. -/
theorem endWith_ok {outcome given : ReadOutcome} (h : (e.endWith screen given).1 = .ok outcome) :
    outcome = given := by
  rw [endWith] at h
  rcases hemit : e.emit screen [lineFeed] with ⟨f | ⟨⟩, shown⟩
  · rw [hemit] at h
    cases h
  · rw [hemit] at h
    exact (Except.ok.inj h).symm

/-- A line that is given out is all of the text, of which there is some. -/
theorem outcomeOf_eq_line {buffer : List Char} {text : String}
    (h : outcomeOf buffer = .line text) : buffer = text.toList ∧ text ≠ "" := by
  rw [outcomeOf] at h
  split at h
  · cases h
  · next hne =>
    cases h
    exact ⟨String.toList_ofList.symm, by simpa [String.ext_iff] using hne⟩

/-- The end of the input gives out the text. -/
theorem atEnd_line {text : String} (h : (e.atEnd line screen).1 = .ok (.line text)) :
    line.buffer = text.toList ∧ text ≠ "" := by
  rw [atEnd] at h
  split at h
  · cases h
  · exact outcomeOf_eq_line (endWith_ok h).symm

/-- A key that gives out a line ends lines, and the line is the text. -/
theorem press_line {key : Key} {text : String}
    (h : e.press c line screen key = .stop (.ok (.line text)) screen') :
    endsLine key = true ∧ line.buffer = text.toList ∧ text ≠ "" := by
  cases gives_of_press h with
  | line hb hend =>
    refine ⟨?_, outcomeOf_eq_line (endWith_ok (congrArg Prod.fst hend)).symm⟩
    simpa [endsLine] using hb
  | quit hend => cases endWith_ok (congrArg Prod.fst hend)
  | atEnd hend => exact ⟨rfl, atEnd_line (congrArg Prod.fst hend)⟩

/-- A line is given out with the key that ends it taken and nothing else behind the text, or with no
key left. -/
theorem Takes.gives_line {read left : List Key} {text : String}
    (h : e.Takes c screen read left (.ok (.line text))) :
    text ≠ "" ∧ ∃ front line shown, e.typed? c screen front = some (line, shown) ∧
      line.buffer = text.toList ∧
      ((∃ key, endsLine key = true ∧ read = front ++ [key]) ∨ (read = front ∧ left = [])) := by
  generalize houtcome : (Except.ok (.line text) : Except Fault ReadOutcome) = outcome at h
  cases h with
  | unprompted => cases houtcome
  | key htyped hpress =>
    subst houtcome
    obtain ⟨hkey, hbuffer, hne⟩ := press_line hpress
    exact ⟨hne, _, _, _, htyped, hbuffer, .inl ⟨_, hkey, rfl⟩⟩
  | all htyped =>
    obtain ⟨hbuffer, hne⟩ := atEnd_line houtcome.symm
    exact ⟨hne, _, _, _, htyped, hbuffer, .inr ⟨rfl, rfl⟩⟩

/-! ## Reading makes progress -/

/-- A line that nothing was typed into. -/
theorem typed?_nil {shown : Screen} (h : e.typed? c screen [] = some (line, shown)) :
    line.buffer = [] := by
  rw [typed?] at h
  split at h
  · cases h
    rfl
  · cases h

/-- A fault of the screen uses up a flush. -/
theorem length_flushes_lt {bytes : Bytes} {f : Fault}
    (h : e.emit screen bytes = (.error f, screen')) :
    screen'.flushes.length < screen.flushes.length := by
  rw [emit] at h
  split at h
  · rw [Screen.emit] at h
    cases hflushes : screen.flushes with
    | nil => simp [hflushes] at h
    | cons flush flushes =>
      have hshown : screen' = ⟨screen.shown ++ bytes, flushes⟩ := by
        cases flush <;> simp_all
      rw [hshown]
      exact Nat.lt_succ_self _
  · cases h

/-- Reading a line uses up a key or a flush, unless there are no more lines. -/
theorem readLine_progress {keys : List Key} (h : (e.readLine c screen keys).outcome ≠ .ok .quit) :
    (e.readLine c screen keys).rest.length < keys.length ∨
      ((e.readLine c screen keys).rest = keys ∧
        (e.readLine c screen keys).screen.flushes.length < screen.flushes.length) := by
  rcases hprompt : e.emit screen (Text.encode e.prompt) with ⟨f | ⟨⟩, shown⟩
  · rw [readLine, hprompt]
    exact .inr ⟨rfl, length_flushes_lt hprompt⟩
  · obtain ⟨read, hkeys, htakes⟩ := readLine_takes e c screen keys
    have hne : read ≠ [] := by
      rintro rfl
      generalize (e.readLine c screen keys).rest = left at htakes
      generalize (e.readLine c screen keys).outcome = outcome at htakes h
      generalize hread : ([] : List Key) = read at htakes
      cases htakes with
      | unprompted hfault => cases hprompt.symm.trans hfault
      | key => simp at hread
      | all htyped =>
        subst hread
        exact h (by rw [atEnd, typed?_nil htyped]; rfl)
    refine .inl ?_
    have hlength := congrArg List.length hkeys
    rw [List.length_append] at hlength
    have hpos : 0 < read.length := List.length_pos_iff.mpr hne
    omega

end CommandShell.Editor
