import CommandShell.Text
import Mathlib.Data.List.DropRight

/-!
# Terminals

What is on the current line of a terminal of unbounded width, and where its cursor stands, once some
text was shown on it. A character overwrites the cell under the cursor and moves right; a backspace
moves left, a newline starts an empty line, and a bell is only heard.
-/

namespace CommandShell

/-- The current line of a terminal, cut in two at the cursor. -/
structure Terminal where
  /-- The cells to the left of the cursor. -/
  left : List Char
  /-- The cell under the cursor and those to the right of it. -/
  right : List Char
  deriving DecidableEq

/-- Whether no character of a text is a control: each of them takes up a cell. -/
def Visible (text : List Char) : Prop :=
  ∀ c ∈ text, 0x20 ≤ c.toNat ∧ ¬(0x7f ≤ c.toNat ∧ c.toNat ≤ 0x9f)

instance (text : List Char) : Decidable (Visible text) :=
  List.decidableBAll (fun c : Char => 0x20 ≤ c.toNat ∧ ¬(0x7f ≤ c.toNat ∧ c.toNat ≤ 0x9f)) text

theorem visible_append {a b : List Char} : Visible (a ++ b) ↔ Visible a ∧ Visible b :=
  List.forall_mem_append

theorem visible_of_start {a b : List Char} (h : Visible b) (hab : a <+: b) : Visible a :=
  fun c hc => h c (hab.subset hc)

theorem visible_spaces (n : Nat) : Visible (List.replicate n ' ') := by
  intro c hc
  rw [List.eq_of_mem_replicate hc]
  decide

namespace Terminal

/-- An empty line. -/
def fresh : Terminal := ⟨[], []⟩

/-- The cells of the line. -/
def line (t : Terminal) : List Char := t.left ++ t.right

/-- The column of the cursor, from zero on. -/
def column (t : Terminal) : Nat := t.left.length

/-- Moves the cursor to the left, if it can be moved. -/
def stepBack (t : Terminal) : Terminal :=
  match t.left.getLast? with
  | some c => ⟨t.left.dropLast, c :: t.right⟩
  | none => t

/-- Shows a character. -/
def put (t : Terminal) (c : Char) : Terminal :=
  if c = '\x08' then t.stepBack
  else if c = '\n' then fresh
  else if c = '\x07' then t
  else ⟨t.left ++ [c], t.right.tail⟩

/-- Shows a text. -/
def run (t : Terminal) (text : List Char) : Terminal := text.foldl put t

/-- The terminal after some bytes were shown on an empty line, if they are text. -/
def after? (shown : Bytes) : Option Terminal :=
  (Text.decode? shown).map fun s => fresh.run s.toList

@[simp] theorem run_nil (t : Terminal) : t.run [] = t := rfl

@[simp] theorem run_cons (t : Terminal) (c : Char) (text : List Char) :
    t.run (c :: text) = (t.put c).run text := rfl

@[simp] theorem run_append (t : Terminal) (a b : List Char) : t.run (a ++ b) = (t.run a).run b :=
  List.foldl_append

@[simp] theorem put_newline (t : Terminal) : t.put '\n' = fresh := rfl

@[simp] theorem put_bell (t : Terminal) : t.put '\x07' = t := rfl

/-- A character that is no control takes the cell under the cursor. -/
theorem put_visible {c : Char} (h : Visible [c]) (t : Terminal) :
    t.put c = ⟨t.left ++ [c], t.right.tail⟩ := by
  have hc := (h c (List.mem_singleton_self c)).1
  have hne (d : Char) (hd : d.toNat < 0x20) : c ≠ d := by
    rintro rfl
    omega
  rw [put, if_neg (hne _ (by decide)), if_neg (hne _ (by decide)), if_neg (hne _ (by decide))]

/-- A text without controls takes the cells from the cursor on. -/
theorem run_visible {text : List Char} (h : Visible text) (t : Terminal) :
    t.run text = ⟨t.left ++ text, t.right.drop text.length⟩ := by
  induction text generalizing t with
  | nil => simp
  | cons c text ih =>
    rw [run_cons, put_visible (by simpa [Visible] using h c (by simp)),
      ih fun d hd => h d (List.mem_cons_of_mem c hd)]
    simp [List.drop_tail]

/-- As many backspaces as a text has characters step back over it. -/
theorem run_backspaces (before text right : List Char) :
    run ⟨before ++ text, right⟩ (List.replicate text.length '\x08') = ⟨before, text ++ right⟩ := by
  induction text using List.reverseRecOn generalizing right with
  | nil => simp
  | append_singleton text c ih =>
    have hput : put ⟨before ++ (text ++ [c]), right⟩ '\x08' = ⟨before ++ text, c :: right⟩ := by
      simp [put, stepBack, ← List.append_assoc]
    rw [List.length_append, List.length_singleton, List.replicate_succ, run_cons, hput, ih]
    simp

/-! ## What a terminal shows -/

/-- A text is on the line, with nothing but spaces behind it, and the cursor stands at its end. -/
structure Shows (t : Terminal) (text : List Char) : Prop where
  left_eq : t.left = text
  right_blank : ∀ c ∈ t.right, c = ' '

theorem shows_fresh : fresh.Shows [] := ⟨rfl, by simp [fresh]⟩

/-- Up to spaces at the end, the line is the text that is shown. -/
theorem Shows.line_rdropWhile {t : Terminal} {text : List Char} (h : t.Shows text) :
    t.line.rdropWhile (· = ' ') = text.rdropWhile (· = ' ') := by
  obtain ⟨left, right⟩ := t
  obtain ⟨rfl, hr⟩ := h
  induction right using List.reverseRecOn with
  | nil => simp [line]
  | append_singleton right c ih =>
    have hc : c = ' ' := hr c (by simp)
    have := ih fun d hd => hr d (by simp only at hd ⊢; simp [hd])
    simpa [line, ← List.append_assoc, List.rdropWhile_concat, hc] using this

/-- The cursor stands behind the text that is shown. -/
theorem Shows.column_eq {t : Terminal} {text : List Char} (h : t.Shows text) :
    t.column = text.length := by
  rw [column, h.left_eq]

/-- What is typed comes behind what is shown. -/
theorem Shows.run_visible {t : Terminal} {text new : List Char} (h : t.Shows text)
    (hn : Visible new) : (t.run new).Shows (text ++ new) := by
  rw [Terminal.run_visible hn]
  exact ⟨by rw [h.left_eq], fun c hc => h.right_blank c (List.mem_of_mem_drop hc)⟩

/-- The end of what is shown is blanked out by stepping back over it, once before and once after
spaces were shown over it. -/
theorem Shows.run_blank {t : Terminal} {text old : List Char} (h : t.Shows (text ++ old)) :
    (t.run (List.replicate old.length '\x08' ++ List.replicate old.length ' ' ++
      List.replicate old.length '\x08')).Shows text := by
  obtain ⟨left, right⟩ := t
  obtain ⟨rfl, hr⟩ := h
  have hover := run_backspaces text (List.replicate old.length ' ') right
  rw [List.length_replicate] at hover
  rw [run_append, run_append, run_backspaces, Terminal.run_visible (visible_spaces _)]
  simp only [List.length_replicate, List.drop_left]
  rw [hover]
  refine ⟨rfl, ?_⟩
  intro c hc
  rcases List.mem_append.mp hc with hs | hs
  · exact List.eq_of_mem_replicate hs
  · exact hr c hs

/-! ## Bytes on a terminal -/

/-- Text that is shown behind other bytes is run on the terminal as they left it. -/
theorem after?_append {shown : Bytes} {t : Terminal} (h : after? shown = some t)
    (text : List Char) :
    after? (shown ++ Text.encode (String.ofList text)) = some (t.run text) := by
  simp only [after?, Option.map_eq_some_iff] at h
  obtain ⟨s, hs, rfl⟩ := h
  rw [← Text.encode_of_decode? hs, ← Text.encode_append, after?, Text.decode?_encode]
  simp

end Terminal

end CommandShell
