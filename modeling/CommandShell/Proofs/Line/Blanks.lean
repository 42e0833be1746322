import Mathlib
import CommandShell.Proofs.Line.Joined

/-!
# Blanks

Blanks outside quotes separate, and it does not matter how many there are or which. Only whether
there are any can matter, where a word may go on, between two `>`, or between a digit and a `>`:
`blanks_separate`.
-/

namespace CommandShell

open Quoting

/-- Whether a text consists of blanks, if it is not empty. -/
def IsBlanks (text : String) : Prop := ∀ c ∈ text.toList, isBlank c

/-- A blank ends what stands in front of it. -/
theorem ends_of_blanks {blanks : List Char} (h : ∀ b ∈ blanks, isBlank b) (hne : blanks ≠ [])
    (rest : List Char) : Written.Ends (blanks ++ rest) := by
  obtain ⟨b, blanks, rfl⟩ := List.exists_cons_of_ne_nil hne
  intro c hc
  cases hc
  exact .inl (h b (by simp))

/-- The pieces of a line do not depend on the blanks behind a part that ends outside quotes, as long
as the last piece of the part ends there. -/
theorem pieces_blanks {cs : List Char} (h : Closed cs) {blanks blanks' rest : List Char}
    (hb : ∀ b ∈ blanks, isBlank b) (hb' : ∀ b ∈ blanks', isBlank b)
    (he : Written.Ends (blanks ++ rest)) (he' : Written.Ends (blanks' ++ rest)) :
    pieces (cs ++ (blanks ++ rest)) = pieces (cs ++ (blanks' ++ rest)) := by
  obtain ⟨ps, hps⟩ | ⟨ps, target, doubled, hps⟩ := pieces_of_ends h
  · rw [hps _ he, hps _ he', Written.pieces_append hb, Written.pieces_append hb']
  · rw [hps _ he, hps _ he', readPath_append hb, readPath_append hb']

/-- A line is read alike with other blanks behind a part that ends outside quotes. -/
theorem parse_blanks {p b b' s : String} (hp : Closed p.toList) (hb : IsBlanks b)
    (hb' : IsBlanks b') (he : Written.Ends (b.toList ++ s.toList))
    (he' : Written.Ends (b'.toList ++ s.toList)) : parse (p ++ b ++ s) = parse (p ++ b' ++ s) := by
  have hpieces := pieces_blanks hp hb hb' he he'
  simp only [parse, String.toList_append, List.append_assoc, hpieces]

/-- Blanks in front of a line say nothing. -/
theorem parse_blanks_append {b : String} (hb : IsBlanks b) (s : String) :
    parse (b ++ s) = parse s := by
  rw [parse, String.toList_append, Written.pieces_append hb, parse]

/-- Blanks at the end of a line that ends outside quotes say nothing. -/
theorem parse_append_blanks {p b : String} (hp : Closed p.toList) (hb : IsBlanks b) :
    parse (p ++ b) = parse p := by
  by_cases hne : b = ""
  · rw [hne, String.append_empty]
  · have he : Written.Ends (b.toList ++ "".toList) := ends_of_blanks hb (by simpa using hne) _
    have hblanks : parse (p ++ b ++ "") = parse (p ++ "" ++ "") :=
      parse_blanks hp hb (by simp [IsBlanks]) he (by simp [Written.Ends])
    simpa only [String.append_empty] using hblanks

/-- A part that ends outside quotes does so with blanks behind it. -/
theorem closed_append_blanks {p b : String} (hp : Closed p.toList) (hb : IsBlanks b) :
    Closed (p ++ b).toList := by
  have hempty : b.toList.dropWhile isBlank = [] := List.dropWhile_eq_nil_iff.mpr hb
  rw [Closed, String.toList_append, run_append, hp, ← run_dropWhile_isBlank, hempty, run_nil]

/-- Behind a part of a line that ends outside quotes, any blanks separate as any other blanks do,
whatever follows them. At the start and at the end of a line blanks say nothing, and neither do they
on either side of a bar. -/
theorem blanks_separate {p : String} (hp : Closed p.toList) (s : String) :
    (∀ b b' : String, IsBlanks b → b ≠ "" → IsBlanks b' → b' ≠ "" →
      parse (p ++ b ++ s) = parse (p ++ b' ++ s)) ∧
    (∀ b, IsBlanks b → parse (b ++ s) = parse s) ∧
    (∀ b, IsBlanks b → parse (p ++ b) = parse p) ∧
    ∀ b b' : String, IsBlanks b → IsBlanks b' →
      parse (p ++ b ++ "|" ++ b' ++ s) = parse (p ++ "|" ++ s) := by
  refine ⟨fun b b' hb hne hb' hne' => ?_, fun b hb => parse_blanks_append hb s,
    fun b hb => parse_append_blanks hp hb, fun b b' hb hb' => ?_⟩
  · exact parse_blanks hp hb hb' (ends_of_blanks hb (by simpa using hne) _)
      (ends_of_blanks hb' (by simpa using hne') _)
  · calc
      parse (p ++ b ++ "|" ++ b' ++ s) = parse (p ++ b ++ "|" ++ (b' ++ s)) := by
        rw [String.append_assoc]
      _ = parse (p ++ b) ++ parse (b' ++ s) := parse_append_bar (closed_append_blanks hp hb) _
      _ = parse p ++ parse s := by rw [parse_append_blanks hp hb, parse_blanks_append hb']
      _ = parse (p ++ "|" ++ s) := (parse_append_bar hp s).symm

/-- Blanks between two `>`, behind a redirection that lacks its path. -/
theorem blanks_separate_arrows :
    let p := "echo 2>"
    let s := ">x | wc"
    Closed p.toList ∧ IsBlanks " \t" ∧ IsBlanks "\r\n" ∧
      parse (p ++ " \t" ++ s) = parse (p ++ "\r\n" ++ s) ∧
      parse (p ++ "\r\n" ++ s) = [⟨["echo"], [⟨.output, "x", false⟩]⟩, ⟨["wc"], []⟩] ∧
      parse (p ++ s) = [⟨["echo"], [⟨.error, "x", true⟩]⟩, ⟨["wc"], []⟩] ∧
      parse (" \t" ++ s) = parse s ∧ parse (p ++ "\r\n") = parse p ∧
      parse (p ++ " \t" ++ "|" ++ "\r\n" ++ s) = parse (p ++ "|" ++ s) := by
  intro p s
  have hp : Closed p.toList := by decide
  have hspace : IsBlanks " \t" := by simp [IsBlanks, isBlank]
  have hline : IsBlanks "\r\n" := by simp [IsBlanks, isBlank]
  obtain ⟨hmiddle, hstart, hend, hbar⟩ := blanks_separate hp s
  exact ⟨hp, hspace, hline, hmiddle _ _ hspace (by decide) hline (by decide), by cbv, by cbv,
    hstart _ hspace, hend _ hline, hbar _ _ hspace hline⟩

end CommandShell
