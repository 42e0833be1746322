import CommandShell.Proofs.Editor.Lines
import CommandShell.Proofs.Interruption

/-!
# Echo

What an editor shows makes no difference to what it reads. `quiet_reads_what_echo_reads` says so of
successive lines, for keys that mean the same with and without echo: all but tabs and escapes.

Two editors are followed key by key. A key that both know takes them to the same line or ends it
with the same result, as long as each can show what it has to show: `press_agrees`. So they ask for
the same reads, whatever these give.
-/

namespace CommandShell.Editor

/-! ## Reads -/

/-- How many reads a line asks for at the end of the input: those that a sequence is short of, and
the one that ends the line. -/
def Pending.reads : Pending → Nat
  | nothing => 1
  | second _ => 2
  | first => 3

/-- How many reads are made from a line on. Behind the last key, each gives the end of the input. -/
def readsFrom (e : Editor) (c : Context) : LineState → Screen → List Key → Nat
  | line, _, [] => line.pending.reads
  | line, screen, key :: keys =>
    match e.press c line screen key with
    | .goOn line screen => readsFrom e c line screen keys + 1
    | .stop _ _ => 1

/-- How many reads are made for a line: none if the prompt cannot be shown. -/
def reads (e : Editor) (c : Context) (screen : Screen) (keys : List Key) : Nat :=
  match e.emit screen (Text.encode e.prompt) with
  | (.ok (), screen) => e.readsFrom c (.fresh c.history) screen keys
  | (.error _, _) => 0

/-- How many reads are made for each of successive lines. -/
def readCounts (e : Editor) : List Context → Screen → List Key → List Nat
  | [], _, _ => []
  | c :: contexts, screen, keys =>
    let result := e.readLine c screen keys
    e.reads c screen keys :: e.readCounts contexts result.screen result.rest

variable {e e' : Editor} {c : Context} {line : LineState} {screen screen' : Screen}

/-! ## One key -/

/-- Whether an editor can show all that it has to show. -/
def CanShow (e : Editor) (screen : Screen) : Prop := e.echo = true → screen.IsClear

/-- What an editor can show, it shows, and it can go on showing. -/
theorem CanShow.emit (h : e.CanShow screen) (bytes : Bytes) :
    ∃ shown, e.emit screen bytes = (.ok (), shown) ∧ e.CanShow shown := by
  by_cases he : e.echo = true
  · obtain ⟨shown, hemit, hclear⟩ := e.emit_clear (h he) bytes
    exact ⟨shown, hemit, fun _ => hclear⟩
  · exact ⟨screen, by rw [Editor.emit, if_neg he], h⟩

/-- Whether a key leads two editors to the same: they go on with a line in no sequence, or stop with
a result, and can show what is to come. -/
inductive Pressed.Agrees (e e' : Editor) : Pressed → Pressed → Prop
  | goOn {line : LineState} {screen screen' : Screen} :
      line.pending = .nothing → e.CanShow screen → e'.CanShow screen' →
        Agrees e e' (.goOn line screen) (.goOn line screen')
  | stop {result : Except Fault ReadOutcome} {screen screen' : Screen} :
      e.CanShow screen → e'.CanShow screen' →
        Agrees e e' (.stop result screen) (.stop result screen')

section Pressing

variable (hs : e.CanShow screen) (hs' : e'.CanShow screen')

include hs hs'

theorem showAndGoOn_agrees (hp : line.pending = .nothing) (bytes : Bytes) :
    (e.showAndGoOn line screen bytes).Agrees e e' (e'.showAndGoOn line screen' bytes) := by
  obtain ⟨shown, hemit, hshown⟩ := hs.emit bytes
  obtain ⟨shown', hemit', hshown'⟩ := hs'.emit bytes
  rw [showAndGoOn, showAndGoOn, hemit, hemit']
  exact .goOn hp hshown hshown'

theorem endWith_agrees (outcome : ReadOutcome) :
    (Pressed.stop (e.endWith screen outcome).1 (e.endWith screen outcome).2).Agrees e e'
      (.stop (e'.endWith screen' outcome).1 (e'.endWith screen' outcome).2) := by
  obtain ⟨shown, hemit, hshown⟩ := hs.emit [lineFeed]
  obtain ⟨shown', hemit', hshown'⟩ := hs'.emit [lineFeed]
  rw [endWith, endWith, hemit, hemit']
  exact .stop hshown hshown'

theorem atEnd_agrees :
    (Pressed.stop (e.atEnd line screen).1 (e.atEnd line screen).2).Agrees e e'
      (.stop (e'.atEnd line screen').1 (e'.atEnd line screen').2) := by
  rw [atEnd, atEnd]
  split
  · exact .stop hs hs'
  · exact endWith_agrees hs hs' _

/-- A byte that means the same with and without echo leads two editors to the same. -/
theorem pressByte_agrees (hp : line.pending = .nothing) {b : UInt8} (htab : b ≠ tab)
    (hescape : b ≠ escape) :
    (e.pressByte c line screen b).Agrees e e' (e'.pressByte c line screen' b) := by
  cases byte_effect c line b with
  | ends _ hpress | quits _ _ hpress =>
    rw [hpress, hpress]
    exact endWith_agrees hs hs' _
  | erases _ _ hpress | types _ hpress =>
    rw [hpress, hpress]
    apply showAndGoOn_agrees hs hs'
    exact hp
  | completes hb => exact absurd hb htab
  | begins hb => exact absurd hb hescape
  | keeps _ _ _ _ hpress =>
    rw [hpress, hpress]
    exact .goOn hp hs hs'

/-- A key that means the same with and without echo leads two editors to the same. -/
theorem press_agrees (hp : line.pending = .nothing) {key : Key} (htab : key ≠ .byte tab)
    (hescape : key ≠ .byte escape) :
    (e.press c line screen key).Agrees e e' (e'.press c line screen' key) := by
  cases key with
  | byte b =>
    rw [press_byte hp, press_byte hp]
    exact pressByte_agrees hs hs' hp (by simpa using htab) (by simpa using hescape)
  | endOfInput =>
    rw [press_endOfInput hp, press_endOfInput hp]
    exact atEnd_agrees hs hs'
  | failure f =>
    rw [press, press]
    split
    · exact .goOn hp hs hs'
    · exact .stop hs hs'

end Pressing

/-! ## One line -/

/-- Whether two editors give out the same and leave the same keys, and can show what is to come. -/
structure ReadResult.Agrees (e e' : Editor) (result result' : ReadResult) : Prop where
  outcome_eq : result.outcome = result'.outcome
  rest_eq : result.rest = result'.rest
  canShow : e.CanShow result.screen
  canShow' : e'.CanShow result'.screen

/-- A key that ends a line ends it with the same result and the same keys left. -/
theorem Pressed.Agrees.result {outcome outcome' : Except Fault ReadOutcome}
    (h : (Pressed.stop outcome screen).Agrees e e' (.stop outcome' screen')) (rest : List Key) :
    ReadResult.Agrees e e' ⟨outcome, screen, rest⟩ ⟨outcome', screen', rest⟩ := by
  cases h with
  | stop hs hs' => exact ⟨rfl, rfl, hs, hs'⟩

/-- Two editors read on from a line alike. -/
theorem readFrom_agrees (hp : line.pending = .nothing) (hs : e.CanShow screen)
    (hs' : e'.CanShow screen') {keys : List Key} (htab : .byte tab ∉ keys)
    (hescape : .byte escape ∉ keys) :
    (e.readFrom c line screen keys).Agrees e e' (e'.readFrom c line screen' keys) ∧
      e.readsFrom c line screen keys = e'.readsFrom c line screen' keys := by
  induction keys generalizing line screen screen' with
  | nil => exact ⟨(atEnd_agrees hs hs').result [], rfl⟩
  | cons key keys ih =>
    have hpress : (e.press c line screen key).Agrees e e' (e'.press c line screen' key) :=
      press_agrees hs hs' hp (List.ne_of_not_mem_cons htab).symm
        (List.ne_of_not_mem_cons hescape).symm
    rw [readFrom, readFrom, readsFrom, readsFrom]
    generalize e.press c line screen key = pressed, e'.press c line screen' key = pressed' at hpress
    cases hpress with
    | goOn hnext hshown hshown' =>
      obtain ⟨hrest, hreads⟩ := ih hnext hshown hshown' (List.not_mem_of_not_mem_cons htab)
        (List.not_mem_of_not_mem_cons hescape)
      exact ⟨hrest, congrArg (· + 1) hreads⟩
    | stop hshown hshown' => exact ⟨⟨rfl, rfl, hshown, hshown'⟩, rfl⟩

/-- Two editors read a line alike, whatever their prompts are. -/
theorem readLine_agrees (c : Context) (hs : e.CanShow screen) (hs' : e'.CanShow screen')
    {keys : List Key} (htab : .byte tab ∉ keys) (hescape : .byte escape ∉ keys) :
    (e.readLine c screen keys).Agrees e e' (e'.readLine c screen' keys) ∧
      e.reads c screen keys = e'.reads c screen' keys := by
  obtain ⟨shown, hemit, hshown⟩ := hs.emit (Text.encode e.prompt)
  obtain ⟨shown', hemit', hshown'⟩ := hs'.emit (Text.encode e'.prompt)
  rw [readLine, readLine, reads, reads, hemit, hemit']
  exact readFrom_agrees rfl hshown hshown' htab hescape

/-! ## Successive lines -/

/-- Two editors read successive lines alike. -/
theorem readLines_agree (contexts : List Context) (hs : e.CanShow screen)
    (hs' : e'.CanShow screen') {keys : List Key} (htab : .byte tab ∉ keys)
    (hescape : .byte escape ∉ keys) :
    (e.readLines contexts screen keys).map (fun result => (result.outcome, result.rest)) =
        (e'.readLines contexts screen' keys).map (fun result => (result.outcome, result.rest)) ∧
      e.readCounts contexts screen keys = e'.readCounts contexts screen' keys := by
  induction contexts generalizing screen screen' keys with
  | nil => exact ⟨rfl, rfl⟩
  | cons c contexts ih =>
    obtain ⟨hline, hreads⟩ := readLine_agrees c hs hs' htab hescape
    obtain ⟨read, hkeys, -⟩ := readLine_takes e c screen keys
    have hleft {key : Key} (h : key ∉ keys) : key ∉ (e.readLine c screen keys).rest :=
      fun hmem => h (hkeys ▸ List.mem_append_right read hmem)
    obtain ⟨hlines, hcounts⟩ := ih hline.canShow hline.canShow' (hleft htab) (hleft hescape)
    rw [readLines, readLines, readCounts, readCounts, List.map_cons, List.map_cons, hreads,
      hline.outcome_eq, hlines, hcounts, hline.rest_eq]
    exact ⟨rfl, rfl⟩

/-- A quiet editor shows nothing of successive lines. -/
theorem quiet_readLines_screen (contexts : List Context) (screen : Screen) (keys : List Key) :
    ∀ result ∈ quiet.readLines contexts screen keys, result.screen = screen := by
  induction contexts generalizing keys with
  | nil => simp [readLines]
  | cons c contexts ih =>
    have hscreen : (quiet.readLine c screen keys).screen = screen :=
      quiet_readLine_screen c screen keys
    rw [readLines, List.forall_mem_cons, hscreen]
    exact ⟨rfl, ih _⟩

/-- A quiet editor reads what an editor with echo reads. On a screen that never fails, whatever the
prompt is and whatever the reads give but tabs and escapes, successive lines come to the same
outcomes, leave the same keys and take as many reads; the quiet editor shows nothing. -/
theorem quiet_reads_what_echo_reads (prompt : String) (contexts : List Context)
    {screen : Screen} (hs : screen.IsClear) (silent : Screen) {keys : List Key}
    (htab : .byte tab ∉ keys) (hescape : .byte escape ∉ keys) :
    let echoing : Editor := ⟨prompt, true⟩
    (echoing.readLines contexts screen keys).map (fun result => (result.outcome, result.rest)) =
        (quiet.readLines contexts silent keys).map (fun result => (result.outcome, result.rest)) ∧
      echoing.readCounts contexts screen keys = quiet.readCounts contexts silent keys ∧
      ∀ result ∈ quiet.readLines contexts silent keys, result.screen = silent := by
  intro echoing
  have hecho : echoing.CanShow screen := fun _ => hs
  have hquiet : quiet.CanShow silent := nofun
  obtain ⟨hlines, hcounts⟩ := readLines_agree contexts hecho hquiet htab hescape
  exact ⟨hlines, hcounts, quiet_readLines_screen contexts silent keys⟩

/-- A read that is interrupted, half a character, a read that fails within a line, the end of all
lines, and an end of the input within a line. -/
theorem quiet_reads_what_echo_reads_broken :
    let echoing : Editor := ⟨"$ ", true⟩
    let contexts : List Context := List.replicate 5 ⟨["pwd"], fun _ => .more ["cat", "cd"]⟩
    let signal : Fault := .reported .interrupted "signal"
    let broken : Fault := .reported .other "broken"
    let keys : List Key := [.byte 0x6c, .failure signal, .byte 0x73, .byte delete, .byte 0xc3,
      .byte lineFeed, .byte 0x78, .failure broken, .byte endOfTransmission, .byte 0x71, .endOfInput]
    let screen : Screen := ⟨[], [none]⟩
    let silent : Screen := ⟨[], [some broken]⟩
    screen.IsClear ∧ .byte tab ∉ keys ∧ .byte escape ∉ keys ∧
      (echoing.readLines contexts screen keys).map (fun result => (result.outcome, result.rest)) =
        [(.ok (.line "l"), keys.drop 6), (.error broken, keys.drop 8), (.ok .quit, keys.drop 9),
          (.ok (.line "q"), []), (.ok .quit, [])] ∧
      echoing.readCounts contexts screen keys = [6, 2, 1, 2, 1] ∧
      ∀ result ∈ quiet.readLines contexts silent keys, result.screen = silent := by
  intro echoing contexts signal broken keys screen silent
  have hs : screen.IsClear := by simp [screen, Screen.IsClear]
  have htab : .byte tab ∉ keys := by decide
  have hescape : .byte escape ∉ keys := by decide
  obtain ⟨hlines, hcounts, hsilent⟩ :=
    quiet_reads_what_echo_reads "$ " contexts hs silent htab hescape
  exact ⟨hs, htab, hescape, hlines.trans (by decide +kernel), hcounts.trans (by decide +kernel),
    hsilent⟩

end CommandShell.Editor
