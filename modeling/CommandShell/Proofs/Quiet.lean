import CommandShell.Proofs.Editor.Effect
import CommandShell.Proofs.History

/-!
# Quiet editors

A quiet editor leaves its screen alone, and the lines that it gives out consist of printable
characters and tabs: a history file can keep them.
-/

namespace CommandShell.Editor

/-- Whether a character can be typed into a line of a quiet editor. -/
def IsTyped (ch : Char) : Prop := ch = '\t' ∨ (0x20 ≤ ch.toNat ∧ ch.toNat ≤ 0x7e)

/-- A typed text that is not empty is an entry of a history. -/
theorem isEntry_of_typed {text : List Char} (h : ∀ ch ∈ text, IsTyped ch) (hne : text ≠ []) :
    History.IsEntry (String.ofList text) := by
  refine ⟨by simpa [String.ext_iff] using hne, ?_, ?_⟩
  · rw [String.toList_ofList]
    exact fun hn => absurd (h _ hn) (by simp only [IsTyped]; decide)
  · rw [String.toList_ofList]
    exact fun hr => absurd (h _ (List.mem_of_getLast? hr)) (by simp only [IsTyped]; decide)

/-- Whether a line can be under way in a quiet editor. -/
structure IsQuiet (line : LineState) : Prop where
  typed : ∀ ch ∈ line.buffer, IsTyped ch
  pending : line.pending = .nothing

/-- Whether a key leaves the screen alone, and leads to a line that can be under way or to an entry
of a history. -/
def Pressed.IsQuiet (screen : Screen) : Pressed → Prop
  | .goOn line shown => Editor.IsQuiet line ∧ shown = screen
  | .stop result shown => shown = screen ∧ ∀ text, result = .ok (.line text) → History.IsEntry text

variable {c : Context} {line : LineState} {screen : Screen}

theorem isQuiet_fresh (history : List String) : IsQuiet (.fresh history) :=
  ⟨by simp [LineState.fresh], rfl⟩

/-- The end of a line gives out what was typed. -/
theorem isQuiet_outcomeOf (h : IsQuiet line) {text : String}
    (ho : outcomeOf line.buffer = .line text) : History.IsEntry text := by
  rw [outcomeOf] at ho
  split at ho
  · cases ho
  · next hne =>
    cases ho
    exact isEntry_of_typed h.typed (by simpa using hne)

theorem isQuiet_atEnd (h : IsQuiet line) :
    (Pressed.stop (quiet.atEnd line screen).1 (quiet.atEnd line screen).2).IsQuiet screen := by
  rw [atEnd]
  split
  · exact ⟨rfl, by simp⟩
  · exact ⟨rfl, fun text ht => isQuiet_outcomeOf h (Except.ok.inj ht)⟩

theorem isQuiet_pressByte (h : IsQuiet line) (b : UInt8) :
    (quiet.pressByte c line screen b).IsQuiet screen := by
  have htype {ch : Char} (hch : IsTyped ch) : ∀ d ∈ line.buffer ++ [ch], IsTyped d := by
    intro d hd
    rcases List.mem_append.mp hd with hd | hd
    · exact h.typed d hd
    · rw [List.mem_singleton.mp hd]
      exact hch
  cases byte_effect c line b with
  | ends _ hpress =>
    rw [hpress]
    exact ⟨rfl, fun text ht => isQuiet_outcomeOf h (Except.ok.inj ht)⟩
  | quits _ _ hpress =>
    rw [hpress]
    exact ⟨rfl, fun text ht => by cases ht⟩
  | erases _ _ hpress =>
    rw [hpress]
    exact ⟨⟨fun ch hch => h.typed ch (List.dropLast_subset _ hch), h.pending⟩, rfl⟩
  | completes _ hpress =>
    rw [hpress]
    exact ⟨⟨htype (.inl rfl), h.pending⟩, rfl⟩
  | types hprint hpress =>
    obtain ⟨hn, hb⟩ := toNat_of_isPrintable hprint
    rw [hpress]
    exact ⟨⟨htype (.inr (by rwa [hn])), h.pending⟩, rfl⟩
  | begins _ hpress | keeps _ _ _ _ hpress =>
    -- Without echo no escape sequence begins.
    rw [hpress]
    exact ⟨⟨h.typed, h.pending⟩, rfl⟩

theorem isQuiet_press (h : IsQuiet line) (key : Key) :
    (quiet.press c line screen key).IsQuiet screen := by
  have hread (read : Option UInt8) : (quiet.pressRead c line screen read).IsQuiet screen := by
    simp only [pressRead, h.pending]
    cases read with
    | some b => exact isQuiet_pressByte h b
    | none => exact isQuiet_atEnd h
  cases key with
  | byte b => exact hread (some b)
  | endOfInput => exact hread none
  | failure f =>
    rw [press]
    split
    · exact ⟨h, rfl⟩
    · exact ⟨rfl, by simp⟩

theorem isQuiet_readFrom (h : IsQuiet line) (keys : List Key) :
    (Pressed.stop (quiet.readFrom c line screen keys).outcome
      (quiet.readFrom c line screen keys).screen).IsQuiet screen := by
  induction keys generalizing line with
  | nil => exact isQuiet_atEnd h
  | cons key keys ih =>
    have hpress : (quiet.press c line screen key).IsQuiet screen := isQuiet_press h key
    rw [readFrom]
    cases hkey : quiet.press c line screen key with
    | goOn next shown =>
      rw [hkey] at hpress
      obtain ⟨hnext, rfl⟩ := hpress
      exact ih hnext
    | stop result shown =>
      rw [hkey] at hpress
      exact hpress

/-- A quiet editor shows nothing. -/
theorem quiet_readLine_screen (c : Context) (screen : Screen) (keys : List Key) :
    (quiet.readLine c screen keys).screen = screen :=
  (isQuiet_readFrom (isQuiet_fresh c.history) keys).1

/-- The lines that a quiet editor gives out are entries of a history. -/
theorem isEntry_of_quiet_readLine {keys : List Key} {text : String}
    (h : (quiet.readLine c screen keys).outcome = .ok (.line text)) : History.IsEntry text :=
  (isQuiet_readFrom (isQuiet_fresh c.history) keys).2 text h

end CommandShell.Editor
