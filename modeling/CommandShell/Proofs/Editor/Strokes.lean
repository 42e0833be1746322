import CommandShell.Proofs.Interruption

/-!
# Strokes

A user of an editor that echoes strikes keys one at a time, but an arrow sends three of them: an
escape and two more. `strokes` takes the keys apart, whatever the two are. What an editor knows
besides the text of a line is told by the strokes alone: `entry_of_typed?` and
`last_stroke_of_bellRang`.
-/

namespace CommandShell

/-! ## Screens -/

/-- Whether the next flushes of a screen succeed, so many of them. -/
def Screen.Accepts (screen : Screen) (count : Nat) : Prop :=
  ∀ flush ∈ screen.flushes.take count, flush = none

/-- A screen whose next flushes succeed takes one of them, and the others are left. -/
theorem Screen.Accepts.succ {screen : Screen} {count : Nat} (h : screen.Accepts (count + 1))
    (shown : Bytes) :
    screen.Accepts 1 ∧ (⟨shown, screen.flushes.drop 1⟩ : Screen).Accepts count := by
  obtain ⟨_, _ | ⟨flush, flushes⟩⟩ := screen
  · simp [Accepts]
  · simpa [Accepts] using h

/-- Screens that take some flushes take fewer. -/
theorem Screen.Accepts.mono {screen : Screen} {count fewer : Nat} (h : screen.Accepts count)
    (hle : fewer ≤ count) : screen.Accepts fewer :=
  fun flush hflush => h flush (List.take_subset_take_left _ hle hflush)

/-- Screens whose flushes all succeed take any number of them. -/
theorem Screen.IsClear.accepts {screen : Screen} (h : screen.IsClear) (count : Nat) :
    screen.Accepts count := by
  intro flush hflush
  cases flush with
  | none => rfl
  | some f => exact absurd (List.mem_of_mem_take hflush) (h f)

/-- Flushes that all succeed do so behind some of them. -/
theorem Screen.IsClear.drop {screen : Screen} (h : screen.IsClear) (shown : Bytes) (count : Nat) :
    (⟨shown, screen.flushes.drop count⟩ : Screen).IsClear :=
  fun f hf => h f (List.mem_of_mem_drop hf)

namespace Editor

/-! ## Keys and strokes -/

/-- What is struck at once. -/
inductive Stroke
  /-- An escape and the two keys behind it. -/
  | sequence (first second : Key)
  /-- Any other key. -/
  | single (key : Key)
  deriving DecidableEq

namespace Stroke

/-- The arrow to the entry before. -/
def up : Stroke := .sequence (.byte 0x5b) (.byte 0x41)

/-- The arrow to the entry behind. -/
def down : Stroke := .sequence (.byte 0x5b) (.byte 0x42)

/-- The keys of a stroke. -/
def keys : Stroke → List Key
  | sequence first second => [.byte escape, first, second]
  | single key => [key]

/-- The entry of a history that a stroke leads to from another: the arrows go to the entries beside
it, but not past the oldest and not past the fresh line, and all other strokes stay. -/
def walk (entries entry : Nat) (stroke : Stroke) : Nat :=
  if stroke = up then entry - 1
  else if stroke = down then min (entry + 1) entries
  else entry

/-- No stroke leaves the history. -/
theorem walk_le {entries entry : Nat} (h : entry ≤ entries) (stroke : Stroke) :
    stroke.walk entries entry ≤ entries := by
  rw [walk]
  split
  · omega
  split <;> omega

/-- No strokes leave the history. -/
theorem foldl_walk_le {entries entry : Nat} (h : entry ≤ entries) (strokes : List Stroke) :
    strokes.foldl (walk entries) entry ≤ entries := by
  induction strokes generalizing entry with
  | nil => exact h
  | cons stroke strokes ih => exact ih (walk_le h stroke)

end Stroke

/-- Takes keys apart into strokes. A sequence that has only begun is none yet. -/
def strokesOf : List Key → List Stroke
  | [] => []
  | key :: keys =>
    if key = .byte escape then
      match keys with
      | first :: second :: rest => .sequence first second :: strokesOf rest
      | _ => []
    else .single key :: strokesOf keys

/-- The strokes among some keys, with the reads left out that were interrupted. -/
def strokes (keys : List Key) : List Stroke := strokesOf (keys.filter heard)

variable {e : Editor} {c : Context} {line line' : LineState} {screen screen' : Screen}

/-! ## One stroke -/

/-- Bytes are shown where the next flush succeeds. -/
theorem emit_accepts (he : e.echo = true) (h : screen.Accepts 1) (bytes : Bytes) :
    e.emit screen bytes = (.ok (), ⟨screen.shown ++ bytes, screen.flushes.drop 1⟩) := by
  obtain ⟨shown, _ | ⟨flush, flushes⟩⟩ := screen
  · simp [emit, he, Screen.emit]
  · obtain rfl : flush = none := by simpa [Screen.Accepts] using h
    simp [emit, he, Screen.emit]

/-- A line goes on where the next flush succeeds. -/
theorem showAndGoOn_accepts (he : e.echo = true) (h : screen.Accepts 1) (line : LineState)
    (bytes : Bytes) :
    e.showAndGoOn line screen bytes =
      .goOn line ⟨screen.shown ++ bytes, screen.flushes.drop 1⟩ := by
  rw [showAndGoOn, emit_accepts he h]

/-- Enter gives out the line. -/
theorem press_enter_eq (he : e.echo = true) (hp : line.pending = .nothing) {enter : UInt8}
    (henter : enter = lineFeed ∨ enter = carriageReturn) (hs : screen.Accepts 1) :
    e.press c line screen (.byte enter) = .stop (.ok (outcomeOf line.buffer))
      ⟨screen.shown ++ [lineFeed], screen.flushes.drop 1⟩ := by
  rw [press_byte hp, pressByte_end henter, endWith, emit_accepts he hs]
  rfl

/-- The byte that a key gives, if it gives one. -/
def read? : Key → Option UInt8
  | .byte b => some b
  | _ => none

/-- An escape begins a sequence. -/
theorem press_escape (he : e.echo = true) (hp : line.pending = .nothing) :
    e.press c line screen (.byte escape) =
      .goOn { line with bellRang := false, pending := .first } screen := by
  rw [press_byte hp, pressByte_escape, if_pos he]

/-- A key that leads on is no failure, unless it is passed over. -/
theorem ne_failure_of_press {key : Key} (hheard : heard key = true)
    (h : e.press c line screen key = .goOn line' screen') (f : Fault) : key ≠ .failure f := by
  rintro rfl
  have hf : f.kind ≠ .interrupted := by simpa [heard] using hheard
  rw [press, if_neg hf] at h
  cases h

/-- A sequence takes any key that is read. -/
theorem press_first {key : Key} (hkey : ∀ f, key ≠ .failure f) (hp : line.pending = .first) :
    e.press c line screen key = .goOn { line with pending := .second (read? key) } screen := by
  cases key with
  | failure f => exact absurd rfl (hkey f)
  | _ => simp only [press, pressRead, hp, read?]

/-- The second key of a sequence settles what it does. -/
theorem press_second {key : Key} (hkey : ∀ f, key ≠ .failure f) {first : Option UInt8}
    (hp : line.pending = .second first) :
    e.press c line screen key = e.pressSequence c line screen first (read? key) := by
  cases key with
  | failure f => exact absurd rfl (hkey f)
  | _ => simp only [press, pressRead, hp, read?]

theorem read?_eq_some {key : Key} {b : UInt8} : read? key = some b ↔ key = .byte b := by
  cases key <;> simp [read?]

/-- A sequence shows the entry that it leads to. -/
theorem pressSequence_eq (first second : Key) :
    e.pressSequence c line screen (read? first) (read? second) =
      e.showEntry c { line with pending := .nothing } screen
        ((Stroke.sequence first second).walk c.history.length line.entry) := by
  simp only [pressSequence, Stroke.walk, Stroke.up, Stroke.down, read?_eq_some,
    Stroke.sequence.injEq]
  split
  · rfl
  split
  · rfl
  · rw [showEntry, if_pos rfl]

/-- An entry that is shown is the one that the line is at. -/
theorem entry_of_showEntry (he : e.echo = true) {entry : Nat}
    (h : e.showEntry c line screen entry = .goOn line' screen') :
    line'.entry = entry ∧ line'.pending = line.pending ∧ line'.bellRang = line.bellRang := by
  rw [showEntry] at h
  split at h
  · next heq =>
    cases h
    exact ⟨heq.symm, rfl, rfl⟩
  · obtain ⟨rfl, -⟩ := showAndGoOn_eq he h
    exact ⟨rfl, rfl, rfl⟩

/-- What a tab changes of a line is its text and the bell. -/
theorem line_of_pressTab (he : e.echo = true)
    (h : e.pressTab c line screen = .goOn line' screen') :
    line'.entry = line.entry ∧ line'.pending = line.pending := by
  rw [pressTab] at h
  split at h
  · obtain ⟨rfl, -⟩ := showAndGoOn_eq he h
    exact ⟨rfl, rfl⟩
  · obtain ⟨rfl, -⟩ := showAndGoOn_eq he h
    exact ⟨rfl, rfl⟩
  · split at h <;>
    · obtain ⟨rfl, -⟩ := showAndGoOn_eq he h
      exact ⟨rfl, rfl⟩

/-- A byte that begins no sequence leads to no other entry, and only a tab can ring the bell for
several candidates. -/
theorem line_of_pressByte (he : e.echo = true) {b : UInt8} (hb : b ≠ escape)
    (h : e.pressByte c line screen b = .goOn line' screen') :
    line'.entry = line.entry ∧ line'.pending = line.pending ∧
      (line'.bellRang = true → b = tab) := by
  have hquiet : false = true → b = tab := fun hrang => absurd hrang Bool.false_ne_true
  cases byte_effect c line b with
  | ends _ hpress | quits _ _ hpress =>
    rw [hpress] at h
    cases h
  | erases _ _ hpress | types _ hpress =>
    rw [hpress] at h
    obtain ⟨rfl, -⟩ := showAndGoOn_eq he h
    exact ⟨rfl, rfl, hquiet⟩
  | completes htab hpress =>
    rw [hpress, if_pos he] at h
    obtain ⟨hentry, hpending⟩ := line_of_pressTab he h
    exact ⟨hentry, hpending, fun _ => htab⟩
  | begins hescape => exact absurd hescape hb
  | keeps _ _ _ _ hpress =>
    rw [hpress] at h
    cases h
    exact ⟨rfl, rfl, hquiet⟩

/-- A key that begins no sequence leads to no other entry, and only a tab can ring the bell for
several candidates. -/
theorem line_of_press (he : e.echo = true) (hp : line.pending = .nothing) {key : Key}
    (hkey : key ≠ .byte escape) (hheard : heard key = true)
    (h : e.press c line screen key = .goOn line' screen') :
    line'.entry = line.entry ∧ line'.pending = .nothing ∧
      (line'.bellRang = true → key = .byte tab) := by
  cases key with
  | byte b =>
    rw [press_byte hp] at h
    obtain ⟨hentry, hpending, hbell⟩ := line_of_pressByte he (by simpa using hkey) h
    exact ⟨hentry, hpending.trans hp, fun hrang => congrArg _ (hbell hrang)⟩
  | endOfInput =>
    rw [press_endOfInput hp] at h
    cases h
  | failure f =>
    have hf : f.kind ≠ .interrupted := by simpa [heard] using hheard
    rw [press, if_neg hf] at h
    cases h

/-! ## Many strokes -/

/-- Keys that are typed one after the other are typed to what the last of them lead to. -/
theorem pressAll_append {keys : List Key}
    (h : e.pressAll c line screen keys = some (line', screen')) (more : List Key) :
    e.pressAll c line screen (keys ++ more) = e.pressAll c line' screen' more := by
  induction keys generalizing line screen with
  | nil => cases h; rfl
  | cons key keys ih =>
    rw [pressAll] at h
    rw [List.cons_append, pressAll]
    rcases hpress : e.press c line screen key with ⟨next, shown⟩ | ⟨result, shown⟩
    · rw [hpress] at h
      exact ih h
    · rw [hpress] at h
      cases h

theorem typed?_append {keys : List Key} (h : e.typed? c screen keys = some (line, screen'))
    (more : List Key) : e.typed? c screen (keys ++ more) = e.pressAll c line screen' more := by
  rw [typed?] at h ⊢
  split at h
  · exact pressAll_append h more
  · cases h

/-- The keys that lead on lead on one by one. -/
theorem pressAll_cons {key : Key} {keys : List Key}
    (h : e.pressAll c line screen (key :: keys) = some (line', screen')) :
    ∃ next shown, e.press c line screen key = .goOn next shown ∧
      e.pressAll c next shown keys = some (line', screen') := by
  rw [pressAll] at h
  split at h
  · next next shown hpress => exact ⟨next, shown, hpress, h⟩
  · cases h

/-- The keys of a sequence show the entry that it leads to. -/
theorem pressAll_sequence (he : e.echo = true) (hp : line.pending = .nothing) {first second : Key}
    (hfirst : ∀ f, first ≠ .failure f) (hsecond : ∀ f, second ≠ .failure f) (keys : List Key) :
    e.pressAll c line screen (.byte escape :: first :: second :: keys) =
      match e.showEntry c { line with bellRang := false } screen
        ((Stroke.sequence first second).walk c.history.length line.entry) with
      | .goOn next shown => e.pressAll c next shown keys
      | .stop .. => none := by
  have hline : ({ line with bellRang := false, pending := .nothing } : LineState) =
      { line with bellRang := false } := by rw [← hp]
  rw [pressAll, press_escape he hp]
  dsimp only
  rw [pressAll, press_first hfirst rfl]
  dsimp only
  rw [pressAll, press_second hsecond rfl, pressSequence_eq]
  dsimp only
  rewrite [hline]
  rfl

/-- A sequence is struck with keys that are read. -/
theorem ne_failure_of_pressAll {first second : Key} {keys : List Key}
    (hfirst : heard first = true) (hsecond : heard second = true)
    (h : e.pressAll c line screen (.byte escape :: first :: second :: keys) =
      some (line', screen')) :
    (∀ f, first ≠ .failure f) ∧ ∀ f, second ≠ .failure f := by
  obtain ⟨begun, shown, hescape, h⟩ := pressAll_cons h
  obtain ⟨begun', shown', hopen, h⟩ := pressAll_cons h
  obtain ⟨next, shown'', hnext, -⟩ := pressAll_cons h
  exact ⟨ne_failure_of_press hfirst hopen, ne_failure_of_press hsecond hnext⟩

/-- Strokes lead to the entry that they walk to. The bell has rung for several candidates only if
the last of them was a tab. -/
theorem pressAll_strokesOf (he : e.echo = true) {keys : List Key}
    (hheard : ∀ key ∈ keys, heard key = true) (hp : line.pending = .nothing)
    (h : e.pressAll c line screen keys = some (line', screen')) :
    line'.entry = (strokesOf keys).foldl (Stroke.walk c.history.length) line.entry ∧
      (line'.bellRang = true → (strokesOf keys = [] ∧ line.bellRang = true) ∨
        (strokesOf keys).getLast? = some (.single (.byte tab))) := by
  fun_induction strokesOf keys generalizing line screen with
  | case1 =>
    cases h
    exact ⟨rfl, fun hrang => .inl ⟨rfl, hrang⟩⟩
  | case2 first second rest ih =>
    have hfirst := hheard first (by simp)
    have hsecond := hheard second (by simp)
    obtain ⟨hfirst, hsecond⟩ := ne_failure_of_pressAll hfirst hsecond h
    rw [pressAll_sequence he hp hfirst hsecond] at h
    split at h
    · next next shown hshow =>
      obtain ⟨hentry, hpending, hbell⟩ := entry_of_showEntry he hshow
      obtain ⟨hwalk, hrang⟩ := ih (fun key hkey => hheard key (by simp [hkey]))
        (hpending.trans hp) h
      refine ⟨by rw [hwalk, hentry, List.foldl_cons], fun h => .inr ?_⟩
      rcases hrang h with ⟨-, hrang⟩ | hlast
      · exact absurd (hbell.symm.trans hrang) Bool.false_ne_true
      · rw [List.getLast?_cons, hlast]
        rfl
    · cases h
  | case3 keys hshort =>
    rw [pressAll, press_escape he hp] at h
    dsimp only at h
    -- At most one key is struck behind the escape, so no sequence is complete.
    rcases keys with _ | ⟨first, _ | ⟨second, rest⟩⟩
    · cases h
      exact ⟨rfl, fun hrang => absurd hrang Bool.false_ne_true⟩
    · obtain ⟨next, shown, hpress, h⟩ := pressAll_cons h
      rw [press_first (ne_failure_of_press (hheard first (by simp)) hpress) rfl] at hpress
      cases hpress
      cases h
      exact ⟨rfl, fun hrang => absurd hrang Bool.false_ne_true⟩
    · exact absurd rfl (hshort first second rest)
  | case4 key keys hkey ih =>
    obtain ⟨next, shown, hpress, h⟩ := pressAll_cons h
    obtain ⟨hentry, hpending, hbell⟩ := line_of_press he hp hkey (hheard key (by simp)) hpress
    obtain ⟨hwalk, hrang⟩ := ih (fun key hkey => hheard key (by simp [hkey])) hpending h
    have hstays : (Stroke.single key).walk c.history.length line.entry = line.entry := by
      simp [Stroke.walk, Stroke.up, Stroke.down]
    refine ⟨by rw [hwalk, hentry, List.foldl_cons, hstays], fun h => .inr ?_⟩
    rcases hrang h with ⟨hnil, hrang⟩ | hlast
    · rw [hnil, hbell hrang]
      rfl
    · rw [List.getLast?_cons, hlast]
      rfl

/-- Reads that were interrupted make no difference to what keys are typed to. -/
theorem typed?_heard (e : Editor) (c : Context) (screen : Screen) (keys : List Key) :
    e.typed? c screen (keys.filter heard) = e.typed? c screen keys := by
  rw [typed?, typed?]
  split
  · exact e.pressAll_heard c _ _ keys
  · rfl

variable {keys : List Key}

/-- A line that is being read is at the entry that its strokes walk to from the fresh line. -/
theorem entry_of_typed? (he : e.echo = true)
    (h : e.typed? c screen keys = some (line, screen')) :
    line.entry = (strokes keys).foldl (Stroke.walk c.history.length) c.history.length := by
  rw [← typed?_heard, typed?] at h
  split at h
  · exact (pressAll_strokesOf he (fun key hkey => (List.mem_filter.mp hkey).2) rfl h).1
  · cases h

/-- The bell has rung for several candidates only if the last stroke was a tab. -/
theorem last_stroke_of_bellRang (he : e.echo = true)
    (h : e.typed? c screen keys = some (line, screen')) (hrang : line.bellRang = true) :
    (strokes keys).getLast? = some (.single (.byte tab)) := by
  rw [← typed?_heard, typed?] at h
  split at h
  · rcases (pressAll_strokesOf he (fun key hkey => (List.mem_filter.mp hkey).2) rfl h).2 hrang
      with ⟨-, hfresh⟩ | hlast
    · cases hfresh
    · exact hlast
  · cases h

end Editor

end CommandShell
