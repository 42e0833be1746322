import CommandShell.Proofs.Completion.Law
import CommandShell.Proofs.Editor.Strokes

/-!
# Tabs in a row

The first of some tabs in a row may complete the line; the others only ring the bell, or ring it and
list the names in turn. `tabs_settle` says so of every line and every number of tabs. It rests on
what completion does with a text that it has completed: there is nothing more to add.
-/

namespace CommandShell

namespace Editor

variable {e : Editor} {c : Context} {line line' : LineState} {screen screen' : Screen}

/-! ## One tab -/

/-- What shows the names that a text can be completed to, and the text again. -/
def listing (e : Editor) (names : List String) (text : String) : Bytes :=
  Text.encode ("\n" ++ String.intercalate "  " names ++ "\n" ++ e.prompt ++ text)

/-- A tab is for completion where keys are shown. -/
theorem press_tab_eq (he : e.echo = true) (hp : line.pending = .nothing) :
    e.press c line screen (.byte tab) = e.pressTab c line screen := by
  rw [press_byte hp, pressByte_tab, if_pos he]

/-- A tab rings the bell where there is nothing to complete. -/
theorem press_tab_none (he : e.echo = true) (hp : line.pending = .nothing)
    (hc : c.complete (String.ofList line.buffer) = .none) (hs : screen.Accepts 1) :
    e.press c line screen (.byte tab) = .goOn { line with bellRang := false }
      ⟨screen.shown ++ [bell], screen.flushes.drop 1⟩ := by
  rw [press_tab_eq he hp, pressTab, hc]
  exact showAndGoOn_accepts he hs _ _

/-- A tab adds what is found to the line. -/
theorem press_tab_found (he : e.echo = true) (hp : line.pending = .nothing) {added : String}
    (hc : c.complete (String.ofList line.buffer) = .found added) (hs : screen.Accepts 1) :
    e.press c line screen (.byte tab) =
      .goOn { line with buffer := line.buffer ++ added.toList, bellRang := false }
        ⟨screen.shown ++ Text.encode added, screen.flushes.drop 1⟩ := by
  rw [press_tab_eq he hp, pressTab, hc]
  exact showAndGoOn_accepts he hs _ _

/-- A tab rings the bell for several names, or lists them if the bell has rung. -/
theorem press_tab_more (he : e.echo = true) (hp : line.pending = .nothing) {names : List String}
    (hc : c.complete (String.ofList line.buffer) = .more names) (hs : screen.Accepts 1) :
    e.press c line screen (.byte tab) = .goOn { line with bellRang := !line.bellRang }
      ⟨screen.shown ++ (if line.bellRang then e.listing names (String.ofList line.buffer)
        else [bell]), screen.flushes.drop 1⟩ := by
  rw [press_tab_eq he hp, pressTab, hc]
  dsimp only
  rcases line.bellRang with _ | _
  · exact showAndGoOn_accepts he hs _ _
  · exact showAndGoOn_accepts he hs _ _

/-! ## What tabs give -/

/-- What two things shown in turn come to, the first of them first. -/
def inTurn (first second : Bytes) : Nat → Bytes
  | 0 => []
  | count + 1 => first ++ inTurn second first count

/-- Whether some tabs add a text to a line and show some bytes. -/
def TabsGive (e : Editor) (c : Context) (line : LineState) (screen : Screen) (count : Nat)
    (added : String) (bytes : Bytes) : Prop :=
  ∃ line', e.pressAll c line screen (List.replicate count (.byte tab)) =
      some (line', ⟨screen.shown ++ bytes, screen.flushes.drop count⟩) ∧
    line'.buffer = line.buffer ++ added.toList

/-- No tabs give nothing. -/
theorem tabsGive_zero : e.TabsGive c line screen 0 "" [] :=
  ⟨line, by simp [pressAll], by simp⟩

/-- Tabs give what the first of them gives, and then what the others give to the line behind it. -/
theorem TabsGive.succ {next : LineState} {count : Nat} {first added more : String}
    {shown bytes : Bytes}
    (hfirst : e.press c line screen (.byte tab) =
      .goOn next ⟨screen.shown ++ shown, screen.flushes.drop 1⟩)
    (hbuffer : next.buffer = line.buffer ++ first.toList)
    (hmore : e.TabsGive c next ⟨screen.shown ++ shown, screen.flushes.drop 1⟩ count more bytes)
    (hadded : first ++ more = added) :
    e.TabsGive c line screen (count + 1) added (shown ++ bytes) := by
  obtain ⟨line', hpress, hline'⟩ := hmore
  refine ⟨line', ?_, ?_⟩
  · rw [List.replicate_succ, pressAll, hfirst]
    dsimp only
    rw [hpress]
    simp
  · rw [hline', hbuffer, ← hadded, String.toList_append, List.append_assoc]

/-- Where there is nothing to complete, every tab rings the bell. -/
theorem tabsGive_none (he : e.echo = true) (hp : line.pending = .nothing)
    (hc : c.complete (String.ofList line.buffer) = .none) {count : Nat}
    (hs : screen.Accepts count) :
    e.TabsGive c line screen count "" (List.replicate count bell) := by
  induction count generalizing line screen with
  | zero => exact tabsGive_zero
  | succ count ih =>
    obtain ⟨hfirst, hrest⟩ := hs.succ (screen.shown ++ [bell])
    exact .succ (press_tab_none he hp hc hfirst) (by simp) (ih hp hc hrest) String.empty_append

/-- Where there are several names to list, tabs ring the bell and list them in turn. -/
theorem tabsGive_more (he : e.echo = true) (hp : line.pending = .nothing)
    {names : List String} (hc : c.complete (String.ofList line.buffer) = .more names) {count : Nat}
    (hs : screen.Accepts count) :
    e.TabsGive c line screen count ""
      (if line.bellRang then inTurn (e.listing names (String.ofList line.buffer)) [bell] count
        else inTurn [bell] (e.listing names (String.ofList line.buffer)) count) := by
  induction count generalizing line screen with
  | zero =>
    rw [inTurn, inTurn, ite_self]
    exact tabsGive_zero
  | succ count ih =>
    obtain ⟨hfirst, hrest⟩ := hs.succ (screen.shown ++
      if line.bellRang then e.listing names (String.ofList line.buffer) else [bell])
    have hmore := @ih { line with bellRang := !line.bellRang } _ hp hc hrest
    have hgive := hmore.succ (press_tab_more he hp hc hfirst) (by simp) String.empty_append
    -- The bell of one tab decides on the next.
    rcases hrang : line.bellRang with _ | _ <;> simpa [hrang, inTurn] using hgive

/-- Where a tab adds something to a line, the others give what they give the longer line. -/
theorem tabsGive_found (he : e.echo = true) (hp : line.pending = .nothing) {added : String}
    (hc : c.complete (String.ofList line.buffer) = .found added) {count : Nat} {bytes : Bytes}
    (hs : screen.Accepts (count + 1))
    (hmore : ∀ next : LineState, next.pending = .nothing → next.bellRang = false →
      String.ofList next.buffer = String.ofList line.buffer ++ added →
        ∀ shown : Screen, shown.Accepts count → e.TabsGive c next shown count "" bytes) :
    e.TabsGive c line screen (count + 1) added (Text.encode added ++ bytes) := by
  obtain ⟨hfirst, hrest⟩ := hs.succ (screen.shown ++ Text.encode added)
  have hbuffer : String.ofList (line.buffer ++ added.toList) =
      String.ofList line.buffer ++ added := by
    rw [String.ofList_append, String.ofList_toList]
  exact .succ (press_tab_found he hp hc hfirst) rfl
    (hmore { line with buffer := line.buffer ++ added.toList, bellRang := false } hp rfl hbuffer _
      hrest) String.append_empty

/-! ## Tabs in a row -/

/-- What some tabs in a row add to a text and show, by what the text is completed to: the bell only
if there is nothing to add; a single name, and the bell from then on; or what the names have in
common, and then the bell and the names in turn. -/
inductive Settles (e : Editor) (names : String → Set String) (text : String) (count : Nat) :
    Completion → String → Bytes → Prop
  | none : Settles e names text count .none "" (List.replicate count bell)
  | single {rest : String} : names text = {text ++ rest} →
      Settles e names text count (.found (rest ++ " ")) (rest ++ " ")
        (Text.encode (rest ++ " ") ++ List.replicate (count - 1) bell)
  | shared {rest : String} {listed : List String} : (names text).Nontrivial →
      IsListing listed (names (text ++ rest)) →
      Settles e names text count (.found rest) rest
        (Text.encode rest ++ inTurn [bell] (e.listing listed (text ++ rest)) (count - 1))
  | listed {listed : List String} : IsListing listed (names text) →
      Settles e names text count (.more listed) "" (inTurn [bell] (e.listing listed text) count)

/-- Tabs in a row settle where the bell has not rung for several names. -/
theorem settles_of_bellRang_eq_false (completer : Completer) (fs : FileSystem)
    (directory : Location) (history : List String) (he : e.echo = true)
    (hp : line.pending = .nothing) (hbell : line.bellRang = false) {count : Nat}
    (hs : screen.Accepts (count + 1)) :
    ∃ added bytes,
      e.TabsGive ⟨history, completer.complete fs directory⟩ line screen (count + 1) added bytes ∧
      e.Settles (completer.namesFrom fs directory) (String.ofList line.buffer) (count + 1)
        (completer.complete fs directory (String.ofList line.buffer)) added bytes := by
  let c : Context := ⟨history, completer.complete fs directory⟩
  have hc : c.complete (String.ofList line.buffer) =
    completer.complete fs directory (String.ofList line.buffer) := rfl
  rcases eq_or_ne (String.ofList line.buffer) "" with hempty | hne
  · have hnone : completer.complete fs directory (String.ofList line.buffer) = .none :=
      if_pos hempty
    rw [hnone] at hc ⊢
    exact ⟨_, _, tabsGive_none he hp hc hs, .none⟩
  have hcompletes : Completes (completer.namesFrom fs directory (String.ofList line.buffer))
      (String.ofList line.buffer) (completer.complete fs directory (String.ofList line.buffer)) :=
    Completer.completes hne
  generalize completer.complete fs directory (String.ofList line.buffer) = r at hcompletes hc
  cases hcompletes with
  | none => exact ⟨_, _, tabsGive_none he hp hc hs, .none⟩
  | @single rest hnames =>
    refine ⟨_, _, tabsGive_found he hp hc hs ?_, .single hnames⟩
    intro next hnext _ hbuffer shown hshown
    refine tabsGive_none he hnext ?_ hshown
    rw [hbuffer]
    exact Completer.complete_single_again hnames
  | @shared rest hmany hlongest hrest =>
    obtain ⟨listed, hmore, hlisting⟩ := Completer.complete_shared_again hmany hlongest hrest
    refine ⟨_, _, tabsGive_found he hp hc hs ?_, .shared hmany hlisting⟩
    intro next hnext hbell' hbuffer shown hshown
    have hagain : c.complete (String.ofList next.buffer) = .more listed := by
      rw [hbuffer]
      exact hmore
    have hgive := tabsGive_more he hnext hagain hshown
    rwa [hbell', hbuffer] at hgive
  | listed _ _ hlisting =>
    have hgive := tabsGive_more he hp hc hs
    rw [hbell] at hgive
    exact ⟨_, _, hgive, .listed hlisting⟩

/-- Tabs in a row settle: behind any other stroke, only the first of them can add something to the
line, and what they show is settled with it. As long as no name is added, they ring the bell and
list all names that start with the line in turn, starting with the bell. -/
theorem tabs_settle {e : Editor} {completer : Completer} {fs : FileSystem} {directory : Location}
    {history : List String} {screen shown : Screen} {keys : List Key} {line : LineState}
    (he : e.echo = true)
    (hk : e.typed? ⟨history, completer.complete fs directory⟩ screen keys = some (line, shown))
    (hp : line.pending = .nothing)
    (hlast : (strokes keys).getLast? ≠ some (.single (.byte tab))) {count : Nat}
    (hcount : 1 ≤ count) (hs : shown.Accepts count) :
    ∃ added bytes line',
      e.typed? ⟨history, completer.complete fs directory⟩ screen
          (keys ++ List.replicate count (.byte tab)) =
        some (line', ⟨shown.shown ++ bytes, shown.flushes.drop count⟩) ∧
      line'.buffer = line.buffer ++ added.toList ∧
      e.Settles (completer.namesFrom fs directory) (String.ofList line.buffer) count
        (completer.complete fs directory (String.ofList line.buffer)) added bytes := by
  have hbell : line.bellRang = false :=
    Bool.eq_false_iff.mpr fun hrang => hlast (last_stroke_of_bellRang he hk hrang)
  obtain ⟨count, rfl⟩ := Nat.exists_eq_add_of_le' hcount
  obtain ⟨added, bytes, ⟨line', hpress, hbuffer⟩, hsettles⟩ :=
    settles_of_bellRang_eq_false completer fs directory history he hp hbell hs
  exact ⟨added, bytes, line', (typed?_append hk _).trans hpress, hbuffer, hsettles⟩

/-- Three tabs behind a stroke that means nothing, which itself stands behind a tab that completed a
text and one that rang the bell. -/
theorem tabs_settle_again :
    let e : Editor := ⟨"$ ", true⟩
    let completer : Completer := ⟨.register .default "typeset" .echo, ""⟩
    let c : Context := ⟨[], completer.complete .empty []⟩
    let keys : List Key := [0x74, 0x09, 0x09, 0x1b, 0x5b, 0x43].map .byte
    (strokes keys).getLast? ≠ some (.single (.byte tab)) ∧
      ∃ line shown line', e.typed? c ⟨[], []⟩ keys = some (line, shown) ∧
        e.typed? c ⟨[], []⟩ (keys ++ List.replicate 3 (.byte tab)) =
          some (line', ⟨shown.shown ++
            ([bell] ++ (e.listing ["type", "typeset"] "type" ++ ([bell] ++ []))), []⟩) ∧
        line'.buffer = "type".toList := by
  intro e completer c keys
  have hlast : (strokes keys).getLast? ≠ some (.single (.byte tab)) := by decide
  have htyped : (e.typed? c ⟨[], []⟩ keys).map (·.1) =
      some ⟨"type".toList, false, 0, .nothing⟩ := by
    decide +kernel
  obtain ⟨⟨line, shown, flushes⟩, hk, rfl⟩ := Option.map_eq_some_iff.mp htyped
  have hflushes : flushes = [] := by
    have h : (e.typed? c ⟨[], []⟩ keys).map (·.2.flushes) = some [] := by decide +kernel
    rw [hk] at h
    exact Option.some.inj h
  subst hflushes
  have hc : completer.complete .empty [] "type" = .more ["type", "typeset"] := by decide +kernel
  obtain ⟨added, bytes, line', htabs, hbuffer, hsettles⟩ :=
    tabs_settle rfl hk rfl hlast (show 1 ≤ 3 by decide) (by simp [Screen.Accepts])
  simp only [String.ofList_toList, hc] at hsettles
  cases hsettles with
  | listed => exact ⟨hlast, _, _, line', hk, htabs, by simpa using hbuffer⟩

end Editor

end CommandShell
