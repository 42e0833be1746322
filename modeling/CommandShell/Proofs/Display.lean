import CommandShell.Proofs.Completion
import CommandShell.Proofs.Editor.Effect
import CommandShell.Proofs.Terminal

/-!
# What an editor shows

An editor tells the screen only what changes. `screen_shows_line` says that the changes add up: as
long as a line goes on, a terminal shows the prompt and the text of the line, with the cursor at the
end.
-/

namespace CommandShell

/-- Whether all that a completion adds or lists is visible. -/
def Completion.IsVisible : Completion → Prop
  | .none => True
  | .found text => Visible text.toList
  | .more names => ∀ name ∈ names, Visible name.toList

/-- Visible names make visible completions. -/
theorem Completer.isVisible_complete {c : Completer} {fs : FileSystem} {directory : Location}
    (h : ∀ name ∈ c.names fs directory, Visible name.toList) (text : String) :
    (c.complete fs directory text).IsVisible := by
  have hrest {rest : String} (hr : text ++ rest ∈ c.names fs directory) : Visible rest.toList := by
    have := h _ hr
    rw [String.toList_append, visible_append] at this
    exact this.2
  cases heq : c.complete fs directory text with
  | none => trivial
  | found added =>
    obtain ⟨rest, rfl, hr⟩ | ⟨rest, hpre, hr⟩ := complete_found heq
    · rw [Completion.IsVisible, String.toList_append, visible_append]
      exact ⟨hrest hr, by decide⟩
    · exact visible_of_start (hrest hr) hpre
  | more names => exact fun name hname => h name (complete_more heq name hname)

namespace Editor

/-- Whether all that an editor can recall or complete is visible. -/
structure Context.IsVisible (c : Context) : Prop where
  history : ∀ entry ∈ c.history, Visible entry.toList
  complete : ∀ text, (c.complete text).IsVisible

/-! ## Showing the line -/

/-- Whether a line is what a terminal shows behind the prompt of the editor. -/
structure Displays (e : Editor) (line : LineState) (screen : Screen) : Prop where
  visible : Visible line.buffer
  shows : ∃ t, Terminal.after? screen.shown = some t ∧ t.Shows (e.prompt.toList ++ line.buffer)

variable {e : Editor} {c : Context} {line line' : LineState} {screen screen' : Screen}

/-- An editor that echoes adds bytes to its screen. -/
theorem shown_emit (he : e.echo = true) (bytes : Bytes) :
    (e.emit screen bytes).2.shown = screen.shown ++ bytes := by
  rw [emit, if_pos he, Screen.emit]
  split <;> rfl

/-- Going on after some bytes were shown means that they were added to the screen. -/
theorem showAndGoOn_eq (he : e.echo = true) {bytes : Bytes}
    (h : e.showAndGoOn line screen bytes = .goOn line' screen') :
    line' = line ∧ screen'.shown = screen.shown ++ bytes := by
  have hshown : (e.emit screen bytes).2.shown = screen.shown ++ bytes := shown_emit he bytes
  rw [showAndGoOn] at h
  split at h
  · next heq =>
    cases h
    exact ⟨rfl, by rw [← hshown, heq]⟩
  · cases h

/-- A change is displayed if the bytes shown for it turn the old text into the new one. -/
theorem Displays.showAndGoOn {next : LineState} (hd : e.Displays line screen) (he : e.echo = true)
    {text : List Char}
    (h : e.showAndGoOn next screen (Text.encode (String.ofList text)) = .goOn line' screen')
    (hv : Visible next.buffer)
    (hrun : ∀ t : Terminal, t.Shows (e.prompt.toList ++ line.buffer) →
      (t.run text).Shows (e.prompt.toList ++ next.buffer)) :
    e.Displays line' screen' := by
  obtain ⟨rfl, hs⟩ := showAndGoOn_eq he h
  obtain ⟨t, ht, hshows⟩ := hd.shows
  exact ⟨hv, t.run text, by rw [hs, Terminal.after?_append ht], hrun t hshows⟩

/-- The rest of the state of a line is not shown. -/
theorem Displays.of_buffer_eq (hd : e.Displays line screen) (hb : line'.buffer = line.buffer) :
    e.Displays line' screen :=
  ⟨hb ▸ hd.visible, hb ▸ hd.shows⟩

/-! ## One key -/

/-- The bell changes nothing on the line. -/
theorem Displays.ring (hd : e.Displays line screen) (he : e.echo = true) {next : LineState}
    (h : e.showAndGoOn next screen [bell] = .goOn line' screen')
    (hb : next.buffer = line.buffer) : e.Displays line' screen' := by
  have hbell : [bell] = Text.encode (String.ofList ['\x07']) := by decide
  rw [hbell] at h
  exact hd.showAndGoOn he h (hb ▸ hd.visible) fun t ht => by simpa [hb] using ht

/-- Visible text that is added to the line is shown behind it. -/
theorem Displays.type (hd : e.Displays line screen) (he : e.echo = true) {next : LineState}
    {text : List Char} (hv : Visible text)
    (h : e.showAndGoOn next screen (Text.encode (String.ofList text)) = .goOn line' screen')
    (hb : next.buffer = line.buffer ++ text) : e.Displays line' screen' := by
  refine hd.showAndGoOn he h (hb ▸ visible_append.mpr ⟨hd.visible, hv⟩) ?_
  intro t ht
  rw [hb, ← List.append_assoc]
  exact ht.run_visible hv

/-- One text is displayed in place of another once the other is blanked out. -/
theorem Displays.replace (hd : e.Displays line screen) (he : e.echo = true) {next : LineState}
    {before old new : List Char} (hv : Visible new)
    (h : e.showAndGoOn next screen (replacing old new) = .goOn line' screen')
    (hl : line.buffer = before ++ old) (hb : next.buffer = before ++ new) :
    e.Displays line' screen' := by
  have hbytes (n : Nat) (ch : Char) (hc : ch.toNat ≤ 0x7f) :
      List.replicate n ch.toNat.toUInt8 = Text.encode (String.ofList (List.replicate n ch)) := by
    simp [Text.encode_eq_flatMap, Text.utf8EncodeChar_of_le hc, List.flatMap_replicate]
  have hrepl : replacing old new = Text.encode (String.ofList
      (List.replicate old.length '\x08' ++ List.replicate old.length ' ' ++
        List.replicate old.length '\x08' ++ new)) := by
    simp only [replacing, String.ofList_append, Text.encode_append,
      ← hbytes _ '\x08' (by decide), ← hbytes _ ' ' (by decide)]
    rfl
  rw [hrepl] at h
  have hbefore : Visible before := (visible_append.mp (hl ▸ hd.visible)).1
  refine hd.showAndGoOn he h (hb ▸ visible_append.mpr ⟨hbefore, hv⟩) ?_
  intro t ht
  rw [hl, ← List.append_assoc] at ht
  rw [hb, ← List.append_assoc, Terminal.run_append]
  exact ht.run_blank.run_visible hv

/-- Completing keeps a line displayed, also when it lists the candidates in between. -/
theorem Displays.pressTab (hd : e.Displays line screen) (he : e.echo = true)
    (hp : Visible e.prompt.toList) (hc : c.IsVisible)
    (h : e.pressTab c line screen = .goOn line' screen') : e.Displays line' screen' := by
  have hcomplete := hc.complete (String.ofList line.buffer)
  rw [Editor.pressTab] at h
  split at h
  · exact hd.ring he h rfl
  · next text heq =>
    rw [heq] at hcomplete
    rw [← String.ofList_toList (s := text)] at h
    exact hd.type he hcomplete h (by rw [String.ofList_toList])
  · next names heq =>
    split at h
    · rw [← String.ofList_toList (s := _ ++ String.ofList line.buffer)] at h
      refine hd.showAndGoOn he h hd.visible ?_
      intro t _
      have hline : Visible (e.prompt.toList ++ line.buffer) := visible_append.mpr ⟨hp, hd.visible⟩
      -- The newline behind the names makes room for the line, whatever the names are.
      simpa using Terminal.shows_fresh.run_visible hline
    · exact hd.ring he h rfl

/-- Walking to an entry of the history shows it in place of the line. -/
theorem Displays.showEntry (hd : e.Displays line screen) (he : e.echo = true) (hc : c.IsVisible)
    {entry : Nat} (h : e.showEntry c line screen entry = .goOn line' screen') :
    e.Displays line' screen' := by
  rw [Editor.showEntry] at h
  split at h
  · cases h
    exact hd
  · refine hd.replace he ?_ h (List.nil_append _).symm (List.nil_append _).symm
    rcases hentry : c.history[entry]? with _ | text
    · simp [Visible]
    · exact hc.history text (List.mem_of_getElem? hentry)

/-- Escape sequences keep a line displayed. -/
theorem Displays.pressSequence (hd : e.Displays line screen) (he : e.echo = true)
    (hc : c.IsVisible) {first second : Option UInt8}
    (h : e.pressSequence c line screen first second = .goOn line' screen') :
    e.Displays line' screen' := by
  have hd' : e.Displays { line with pending := .nothing } screen := hd.of_buffer_eq rfl
  simp only [Editor.pressSequence] at h
  split at h
  · exact hd'.showEntry he hc h
  split at h
  · exact hd'.showEntry he hc h
  · cases h
    exact hd'

/-- A printable byte is the character of its code, which takes up a cell. -/
theorem isPrintable_spec {b : UInt8} (h : isPrintable b = true) :
    Visible [Char.ofNat b.toNat] ∧ [b] = Text.encode (String.ofList [Char.ofNat b.toNat]) := by
  obtain ⟨hn, hb⟩ := toNat_of_isPrintable h
  have hbyte := Text.utf8EncodeChar_of_le (c := Char.ofNat b.toNat) (by omega)
  refine ⟨?_, by simp [Text.encode_eq_flatMap, hbyte, hn]⟩
  simp only [Visible, List.mem_singleton, forall_eq, hn]
  omega

/-- Bytes that belong to no escape sequence keep a line displayed. -/
theorem Displays.pressByte (hd : e.Displays line screen) (he : e.echo = true)
    (hp : Visible e.prompt.toList) (hc : c.IsVisible) {b : UInt8}
    (h : e.pressByte c line screen b = .goOn line' screen') : e.Displays line' screen' := by
  cases byte_effect c line b with
  | ends _ hpress | quits _ _ hpress =>
    rw [hpress] at h
    cases h
  | erases _ hne hpress =>
    -- What is shown for a backspace is what takes the last character off the screen.
    have hone : replacing [line.buffer.getLast hne] [] = [backspace, space, backspace] := by
      simp [replacing, Text.encode_eq_flatMap]
    rw [hpress, ← hone] at h
    exact hd.replace he (by simp [Visible]) h (List.dropLast_append_getLast hne).symm
      (List.append_nil _).symm
  | completes _ hpress =>
    rw [hpress, if_pos he] at h
    exact hd.pressTab he hp hc h
  | types hprint hpress =>
    obtain ⟨hv, hb⟩ := isPrintable_spec hprint
    rw [hpress, hb] at h
    exact hd.type he hv h rfl
  | begins _ hpress | keeps _ _ _ _ hpress =>
    -- The bell shows nothing, so a line that may ring again is displayed as the other is.
    rw [hpress] at h
    cases h
    exact hd.of_buffer_eq rfl

/-- No key takes a line off the screen that goes on. -/
theorem Displays.press (hd : e.Displays line screen) (he : e.echo = true)
    (hp : Visible e.prompt.toList) (hc : c.IsVisible) {key : Key}
    (h : e.press c line screen key = .goOn line' screen') : e.Displays line' screen' := by
  have hread {read : Option UInt8} (h : e.pressRead c line screen read = .goOn line' screen') :
      e.Displays line' screen' := by
    simp only [pressRead] at h
    split at h
    · exact hd.pressByte he hp hc h
    · cases h
    · next read =>
      cases h
      exact hd.of_buffer_eq rfl
    · exact hd.pressSequence he hc h
  cases key with
  | byte b => exact hread h
  | endOfInput => exact hread h
  | failure f =>
    rw [Editor.press] at h
    split at h
    · cases h
      exact hd
    · cases h

/-! ## Many keys -/

/-- The line and the screen after some keys, unless one of them ended the line. -/
def pressAll (e : Editor) (c : Context) :
    LineState → Screen → List Key → Option (LineState × Screen)
  | line, screen, [] => some (line, screen)
  | line, screen, key :: keys =>
    match e.press c line screen key with
    | .goOn line screen => pressAll e c line screen keys
    | .stop _ _ => none

/-- What reading a line has come to after some keys, unless one of them ended it. -/
def typed? (e : Editor) (c : Context) (screen : Screen) (keys : List Key) :
    Option (LineState × Screen) :=
  match e.emit screen (Text.encode e.prompt) with
  | (.ok (), screen) => e.pressAll c (.fresh c.history) screen keys
  | (.error _, _) => none

/-- Reading goes on from where the first keys led. -/
theorem readFrom_append {keys : List Key}
    (h : e.pressAll c line screen keys = some (line', screen')) (more : List Key) :
    e.readFrom c line screen (keys ++ more) = e.readFrom c line' screen' more := by
  induction keys generalizing line screen with
  | nil => cases h; rfl
  | cons key keys ih =>
    rw [pressAll] at h
    rw [List.cons_append, readFrom]
    rcases hpress : e.press c line screen key with ⟨line₁, screen₁⟩ | ⟨result, screen₁⟩
    · rw [hpress] at h
      exact ih h
    · rw [hpress] at h
      cases h

/-- What some keys were typed to is the line that is being read when they are over. -/
theorem readLine_append {keys : List Key} (h : e.typed? c screen keys = some (line, screen'))
    (more : List Key) : e.readLine c screen (keys ++ more) = e.readFrom c line screen' more := by
  rw [typed?] at h
  rw [readLine]
  rcases hemit : e.emit screen (Text.encode e.prompt) with ⟨f | ⟨⟩, screen₁⟩
  · rw [hemit] at h
    cases h
  · rw [hemit] at h
    exact readFrom_append h more

/-- No keys take a line off the screen that goes on. -/
theorem Displays.pressAll {keys : List Key} (hd : e.Displays line screen) (he : e.echo = true)
    (hp : Visible e.prompt.toList) (hc : c.IsVisible)
    (h : e.pressAll c line screen keys = some (line', screen')) : e.Displays line' screen' := by
  induction keys generalizing line screen with
  | nil => cases h; exact hd
  | cons key keys ih =>
    rw [Editor.pressAll] at h
    split at h
    · next heq => exact ih (hd.press he hp hc heq) h
    · cases h

/-- A line that is being read is on the screen. -/
theorem displays_of_typed? {keys : List Key} (he : e.echo = true) (hp : Visible e.prompt.toList)
    (hc : c.IsVisible) (hs : Terminal.after? screen.shown = some .fresh)
    (h : e.typed? c screen keys = some (line, screen')) : e.Displays line screen' := by
  have hshown : (e.emit screen (Text.encode e.prompt)).2.shown = _ := shown_emit he _
  rw [typed?] at h
  split at h
  · next started heq =>
    rw [heq, ← String.ofList_toList (s := e.prompt)] at hshown
    refine Displays.pressAll ⟨by simp [LineState.fresh, Visible], ?_⟩ he hp hc h
    refine ⟨_, (congrArg _ hshown).trans (Terminal.after?_append hs _), ?_⟩
    simpa [LineState.fresh] using Terminal.shows_fresh.run_visible hp
  · cases h

/-- What the user sees is what is edited: whatever keys were typed, the terminal shows the prompt
and the text of the line, up to spaces at the end, and the cursor stands behind them. -/
theorem screen_shows_line {e : Editor} {completer : Completer} {fs : FileSystem}
    {directory : Location} {history : List String} {screen screen' : Screen} {keys : List Key}
    {line : LineState} (he : e.echo = true) (hp : Visible e.prompt.toList)
    (hh : ∀ entry ∈ history, Visible entry.toList)
    (hn : ∀ name ∈ completer.names fs directory, Visible name.toList)
    (hs : Terminal.after? screen.shown = some .fresh)
    (hk : e.typed? ⟨history, completer.complete fs directory⟩ screen keys = some (line, screen')) :
    ∃ t, Terminal.after? screen'.shown = some t ∧
      t.line.rdropWhile (· = ' ') = (e.prompt.toList ++ line.buffer).rdropWhile (· = ' ') ∧
      t.column = (e.prompt.toList ++ line.buffer).length := by
  have hc : Context.IsVisible ⟨history, completer.complete fs directory⟩ :=
    ⟨hh, Completer.isVisible_complete hn⟩
  obtain ⟨t, ht, hshows⟩ := (displays_of_typed? he hp hc hs hk).shows
  exact ⟨t, ht, hshows.line_rdropWhile, hshows.column_eq⟩

/-- An `e` is listed after two tabs, extended, erased again and replaced by an entry. -/
theorem screen_shows_line_listed :
    let e : Editor := ⟨"$ ", true⟩
    let completer : Completer := ⟨Registry.default, ""⟩
    let keys : List Key := [0x65, 0x09, 0x09, 0x78, 0x7f, 0x1b, 0x5b, 0x41].map .byte
    let typed := e.typed? ⟨["pwd "], completer.complete .empty []⟩ ⟨[], []⟩ keys
    typed.map (·.1.buffer) = some "pwd ".toList ∧
      ∀ line screen, typed = some (line, screen) →
        ∃ t, Terminal.after? screen.shown = some t ∧
          t.line.rdropWhile (· = ' ') = (e.prompt.toList ++ line.buffer).rdropWhile (· = ' ') ∧
          t.column = (e.prompt.toList ++ line.buffer).length := by
  refine ⟨by decide +kernel, ?_⟩
  intro line screen h
  exact screen_shows_line (e := ⟨"$ ", true⟩) rfl (by decide) (by decide) (by decide +kernel)
    (by decide) h

end Editor

end CommandShell
