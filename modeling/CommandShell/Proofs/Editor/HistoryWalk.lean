import CommandShell.Proofs.Editor.Strokes
import CommandShell.Proofs.Session.Evolution

/-!
# Walks through the history

The arrows walk through the history, between its oldest entry and the fresh line behind the last
one. An arrow that leads to another entry shows that entry, whatever the line was; an arrow that
stays leaves the line alone. `history_walk` says so of every line, and of what Enter gives out behind
any number of arrows.
-/

namespace CommandShell.Editor

variable {e : Editor} {c : Context} {line line' : LineState} {screen screen' : Screen}

/-- The text of an entry of a history. The fresh line, behind the last entry, has none. -/
def entryText (history : List String) (entry : Nat) : List Char :=
  ((history[entry]?).getD "").toList

namespace Stroke

/-- Whether a stroke is an arrow that walks through the history. -/
def IsArrow (stroke : Stroke) : Prop := stroke = up ∨ stroke = down

/-- Whether some strokes lead to another entry on their way. -/
def Moves (entries entry : Nat) (strokes : List Stroke) : Prop :=
  ∃ count, (strokes.take count).foldl (walk entries) entry ≠ entry

theorem moves_cons_of_ne {entries entry : Nat} {stroke : Stroke}
    (h : stroke.walk entries entry ≠ entry) (strokes : List Stroke) :
    Moves entries entry (stroke :: strokes) :=
  ⟨1, h⟩

theorem moves_cons_of_eq {entries entry : Nat} {stroke : Stroke}
    (h : stroke.walk entries entry = entry) {strokes : List Stroke} :
    Moves entries entry (stroke :: strokes) ↔ Moves entries entry strokes := by
  constructor
  · rintro ⟨_ | count, hcount⟩
    · exact absurd rfl hcount
    · rw [List.take_succ_cons, List.foldl_cons, h] at hcount
      exact ⟨count, hcount⟩
  · rintro ⟨count, hcount⟩
    refine ⟨count + 1, ?_⟩
    rw [List.take_succ_cons, List.foldl_cons, h]
    exact hcount

/-- The keys of an arrow show the entry that it leads to. -/
theorem IsArrow.pressAll_eq {stroke : Stroke} (h : stroke.IsArrow) (he : e.echo = true)
    (hp : line.pending = .nothing) (keys : List Key) :
    e.pressAll c line screen (stroke.keys ++ keys) =
      match e.showEntry c { line with bellRang := false } screen
        (stroke.walk c.history.length line.entry) with
      | .goOn next shown => e.pressAll c next shown keys
      | .stop .. => none := by
  have hread {b : UInt8} (f : Fault) : Key.byte b ≠ .failure f := nofun
  rcases h with rfl | rfl
  · exact pressAll_sequence he hp hread hread keys
  · exact pressAll_sequence he hp hread hread keys

end Stroke

/-! ## Arrows -/

section

variable (he : e.echo = true) (hp : line.pending = .nothing) {stroke : Stroke}
  (harrow : stroke.IsArrow)

include he hp harrow

/-- An arrow that stays leaves the line and the screen alone. -/
theorem pressAll_arrow_stays (hstays : stroke.walk c.history.length line.entry = line.entry)
    (keys : List Key) :
    e.pressAll c line screen (stroke.keys ++ keys) =
      e.pressAll c { line with bellRang := false } screen keys := by
  rw [harrow.pressAll_eq he hp, showEntry, if_pos hstays]

/-- An arrow that leads to another entry shows it in place of the line. -/
theorem pressAll_arrow_moves (hmoves : stroke.walk c.history.length line.entry ≠ line.entry)
    (hs : screen.Accepts 1) (keys : List Key) :
    let next := stroke.walk c.history.length line.entry
    e.pressAll c line screen (stroke.keys ++ keys) =
      e.pressAll c
        { line with bellRang := false, entry := next, buffer := entryText c.history next }
        ⟨screen.shown ++ replacing line.buffer (entryText c.history next), screen.flushes.drop 1⟩
        keys := by
  intro next
  rw [harrow.pressAll_eq he hp, showEntry, if_neg hmoves]
  dsimp only
  rw [showAndGoOn_accepts he hs]
  rfl

end

/-- Arrows walk to an entry. If one of them has led to another entry on the way, or the line was
that of its entry before, it is that of its entry again; otherwise it is left alone. -/
theorem pressAll_arrows (he : e.echo = true) (hp : line.pending = .nothing) {arrows : List Stroke}
    (harrows : ∀ stroke ∈ arrows, stroke.IsArrow) {count : Nat}
    (hs : screen.Accepts (arrows.length + count)) :
    ∃ line' shown, e.pressAll c line screen (arrows.flatMap Stroke.keys) = some (line', shown) ∧
      line'.pending = .nothing ∧ shown.Accepts count ∧
      line'.entry = arrows.foldl (Stroke.walk c.history.length) line.entry ∧
      (line.buffer = entryText c.history line.entry ∨
        Stroke.Moves c.history.length line.entry arrows →
          line'.buffer = entryText c.history line'.entry) ∧
      (¬Stroke.Moves c.history.length line.entry arrows → line'.buffer = line.buffer) := by
  induction arrows generalizing line screen with
  | nil =>
    refine ⟨line, screen, rfl, hp, by simpa using hs, rfl, ?_, fun _ => rfl⟩
    rintro (hbuffer | ⟨count, hmoves⟩)
    · exact hbuffer
    · simp at hmoves
  | cons stroke arrows ih =>
    have harrow := harrows stroke (by simp)
    have hrest : ∀ stroke ∈ arrows, stroke.IsArrow := fun stroke h => harrows stroke (by simp [h])
    rw [List.length_cons, Nat.add_right_comm] at hs
    rw [List.flatMap_cons]
    by_cases hstays : stroke.walk c.history.length line.entry = line.entry
    · obtain ⟨line', shown, hpress, hp', hs', hentry, hmoved, hleft⟩ :=
        @ih { line with bellRang := false } _ hp hrest (hs.mono (by omega))
      rw [pressAll_arrow_stays he hp harrow hstays, List.foldl_cons, hstays,
        Stroke.moves_cons_of_eq hstays]
      exact ⟨line', shown, hpress, hp', hs', hentry, hmoved, hleft⟩
    · obtain ⟨hfirst, hothers⟩ := hs.succ (screen.shown ++ replacing line.buffer
        (entryText c.history (stroke.walk c.history.length line.entry)))
      let next : LineState := { line with
        bellRang := false
        entry := stroke.walk c.history.length line.entry
        buffer := entryText c.history (stroke.walk c.history.length line.entry) }
      have hnext : next.pending = .nothing := hp
      obtain ⟨line', shown, hpress, hp', hs', hentry, hmoved, -⟩ := ih hnext hrest hothers
      rw [pressAll_arrow_moves he hp harrow hstays hfirst]
      refine ⟨line', shown, hpress, hp', hs', hentry, fun _ => hmoved (.inl rfl), fun hleft => ?_⟩
      exact absurd (Stroke.moves_cons_of_ne hstays arrows) hleft

/-! ## The walk -/

/-- What Enter gives out behind some arrows: the entry that they walk to, unless the line is another
text and they lead nowhere. -/
theorem readLine_arrows {keys : List Key} (he : e.echo = true)
    (hk : e.typed? c screen keys = some (line, screen')) (hp : line.pending = .nothing)
    {arrows : List Stroke} (harrows : ∀ arrow ∈ arrows, arrow.IsArrow)
    (hs : screen'.Accepts (arrows.length + 1)) {enter : UInt8}
    (henter : enter = lineFeed ∨ enter = carriageReturn) (more : List Key) :
    let result := e.readLine c screen (keys ++ arrows.flatMap Stroke.keys ++ .byte enter :: more)
    result.rest = more ∧
      (line.buffer = entryText c.history line.entry ∨
        Stroke.Moves c.history.length line.entry arrows →
          result.outcome = .ok (outcomeOf (entryText c.history
            (arrows.foldl (Stroke.walk c.history.length) line.entry)))) ∧
      (¬Stroke.Moves c.history.length line.entry arrows →
        result.outcome = .ok (outcomeOf line.buffer)) := by
  obtain ⟨line', shown, hpress, hp', hs', hentry, hmoved, hleft⟩ := pressAll_arrows he hp harrows hs
  have htyped : e.typed? c screen (keys ++ arrows.flatMap Stroke.keys) = some (line', shown) := by
    rw [typed?_append hk, hpress]
  rw [readLine_append htyped, readFrom, press_enter_eq he hp' henter hs']
  refine ⟨rfl, fun h => ?_, fun h => ?_⟩
  · dsimp only
    rw [hmoved h, hentry]
  · dsimp only
    rw [hleft h]

/-- The walk through the history. A line is at the entry that its strokes walk to from the fresh
line. An arrow that leads to another entry shows it, whatever the line was; one that stays leaves
the line and the screen alone. Enter behind any arrows gives out the entry that they walk to, unless
none of them led anywhere and the line was another. What is done to a line never changes the
history. -/
theorem history_walk {e : Editor} {c : Context} {screen shown : Screen} {keys : List Key}
    {line : LineState} (he : e.echo = true)
    (hk : e.typed? c screen keys = some (line, shown)) :
    line.entry = (strokes keys).foldl (Stroke.walk c.history.length) c.history.length ∧
    line.entry ≤ c.history.length ∧
    (line.pending = .nothing →
      (∀ arrow : Stroke, arrow.IsArrow →
        let next := arrow.walk c.history.length line.entry
        (next = line.entry →
          ∃ line', e.typed? c screen (keys ++ arrow.keys) = some (line', shown) ∧
            line'.buffer = line.buffer) ∧
        (next ≠ line.entry → shown.Accepts 1 →
          ∃ line', e.typed? c screen (keys ++ arrow.keys) =
              some (line', ⟨shown.shown ++ replacing line.buffer (entryText c.history next),
                shown.flushes.drop 1⟩) ∧
            line'.buffer = entryText c.history next)) ∧
      ∀ arrows : List Stroke, (∀ arrow ∈ arrows, arrow.IsArrow) →
        shown.Accepts (arrows.length + 1) →
        ∀ enter : UInt8, enter = lineFeed ∨ enter = carriageReturn → ∀ more : List Key,
          let result :=
            e.readLine c screen (keys ++ arrows.flatMap Stroke.keys ++ .byte enter :: more)
          result.rest = more ∧
            (line.buffer = entryText c.history line.entry ∨
              Stroke.Moves c.history.length line.entry arrows →
                result.outcome = .ok (outcomeOf (entryText c.history
                  (arrows.foldl (Stroke.walk c.history.length) line.entry)))) ∧
            (¬Stroke.Moves c.history.length line.entry arrows →
              result.outcome = .ok (outcomeOf line.buffer))) ∧
    ∀ (s : Session) (console : Console),
      (s.readLine e console).2.1.shell.history = s.shell.history := by
  have hentry := entry_of_typed? he hk
  refine ⟨hentry, ?_, fun hp => ⟨?_, ?_⟩, ?_⟩
  · rw [hentry]
    exact Stroke.foldl_walk_le (le_refl _) _
  · intro arrow harrow next
    rw [typed?_append hk, ← List.append_nil arrow.keys]
    constructor
    · intro hstays
      exact ⟨_, pressAll_arrow_stays he hp harrow hstays [], rfl⟩
    · intro hmoves hs
      exact ⟨_, pressAll_arrow_moves he hp harrow hmoves hs [], rfl⟩
  · intro arrows harrows hs enter henter more
    exact readLine_arrows he hk hp harrows hs henter more
  · intro s console
    obtain ⟨h, heq⟩ := s.exists_readLine_eq e console
    rw [heq]
    rfl

/-- A recalled entry that was edited: arrows that come back to it show it as it was recorded, and
the fresh line behind it has nothing of what was typed at first. -/
theorem history_walk_edited :
    let e : Editor := ⟨"$ ", true⟩
    let c : Context := ⟨["ls", "pwd"], fun _ => .none⟩
    let keys : List Key := [0x78, 0x1b, 0x5b, 0x41, 0x7f].map .byte
    ∃ line shown, e.typed? c ⟨[], []⟩ keys = some (line, shown) ∧ line.buffer = "pw".toList ∧
      (e.readLine c ⟨[], []⟩ (keys ++
        [Stroke.up, .up, .up, .down].flatMap Stroke.keys ++ [.byte lineFeed])).outcome =
          .ok (.line "pwd") ∧
      (e.readLine c ⟨[], []⟩ (keys ++
        [Stroke.down, .down].flatMap Stroke.keys ++ [.byte carriageReturn])).outcome =
          .ok .empty := by
  intro e c keys
  have hk : e.typed? c ⟨[], []⟩ keys = some (⟨"pw".toList, false, 1, .nothing⟩,
      ⟨Text.encode "$ x" ++ replacing ['x'] "pwd".toList ++ [backspace, space, backspace],
        []⟩) := by
    decide +kernel
  obtain ⟨-, -, hpressed, -⟩ := history_walk rfl hk
  have henter := (hpressed rfl).2
  have hback := henter [.up, .up, .up, .down] (by simp [Stroke.IsArrow]) (by simp [Screen.Accepts])
    lineFeed (.inl rfl) []
  have hfresh := henter [.down, .down] (by simp [Stroke.IsArrow]) (by simp [Screen.Accepts])
    carriageReturn (.inr rfl) []
  refine ⟨_, _, hk, rfl, ?_, ?_⟩
  · rw [hback.2.1 (.inr ⟨1, by decide⟩)]
    decide +kernel
  · rw [hfresh.2.1 (.inr ⟨1, by decide⟩)]
    decide +kernel

end CommandShell.Editor
