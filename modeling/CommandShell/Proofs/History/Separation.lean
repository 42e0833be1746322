import Mathlib
import CommandShell.Proofs.History.RoundTrip

/-!
# What is appended to

An append writes behind the last byte of a file. Its entries keep apart from those that the file held
if the last line of the file is ended; otherwise, says `entries_of_append`, the first entry that is
appended comes to stand on this line, behind what is there.
-/

namespace CommandShell.History

variable {text lines last e : String} {es : List String}

/-! ## Last lines -/

/-- Whether the last line of a text is ended. -/
def IsEnded (text : String) : Prop := text = "" ∨ ∃ before, text = before ++ "\n"

/-- The entries before the end of a line and those behind it do not depend on each other. -/
theorem IsEnded.entriesOf_append (h : IsEnded text) (after : String) :
    entriesOf (text ++ after) = entriesOf text ++ entriesOf after := by
  obtain rfl | ⟨before, rfl⟩ := h
  · rw [String.empty_append, entriesOf_empty, List.nil_append]
  · have hbefore := entriesOf_newline before ""
    rw [String.append_empty, entriesOf_empty, List.append_nil] at hbefore
    rw [entriesOf_newline, hbefore]

/-- A text consists of lines that are ended and a last one that is not. -/
theorem exists_isEnded_append (text : String) :
    ∃ lines last, text = lines ++ last ∧ IsEnded lines ∧ '\n' ∉ last.toList := by
  by_cases hmem : '\n' ∈ text.toList
  · -- The last newline is the first one from behind.
    obtain ⟨after, before, hsplit, hafter⟩ :=
      List.eq_append_cons_of_mem (List.mem_reverse.mpr hmem)
    refine ⟨String.ofList before.reverse ++ "\n", String.ofList after.reverse, ?_, .inr ⟨_, rfl⟩, ?_⟩
    · have htext : text.toList = before.reverse ++ ['\n'] ++ after.reverse := by
        rw [← List.reverse_reverse text.toList, hsplit]
        simp
      apply String.toList_injective
      simpa using htext
    · simpa using hafter
  · exact ⟨"", text, (String.empty_append).symm, .inl rfl, hmem⟩

/-- What comes behind a line that is not ended stands on this line. -/
theorem isEntry_append (hlast : '\n' ∉ last.toList) (he : IsEntry e) : IsEntry (last ++ e) := by
  have hne : e.toList ≠ [] := by simpa using he.ne_empty
  refine ⟨?_, ?_, ?_⟩
  · simp [he.ne_empty]
  · rw [String.toList_append, List.mem_append, not_or]
    exact ⟨hlast, he.newline_not_mem⟩
  · rw [String.toList_append, List.getLast?_append_of_ne_nil _ hne]
    exact he.getLast?_ne

/-- The first of some entries is read together with a line before them that is not ended. -/
theorem entriesOf_append_textOf (hlines : IsEnded lines) (hlast : '\n' ∉ last.toList)
    (hes : ∀ d ∈ e :: es, IsEntry d) :
    entriesOf (lines ++ last ++ textOf (e :: es)) = entriesOf lines ++ (last ++ e) :: es := by
  rw [List.forall_mem_cons] at hes
  rw [textOf_cons, String.append_assoc, hlines.entriesOf_append, ← String.append_assoc,
    ← String.append_assoc, entriesOf_newline, entriesOf_entry (isEntry_append hlast hes.1),
    entriesOf_textOf hes.2, List.singleton_append]

/-- Entries keep apart from those of a text before them just in case its last line is ended. -/
theorem entriesOf_append_textOf_iff (hes : ∀ d ∈ es, IsEntry d) :
    entriesOf (text ++ textOf es) = entriesOf text ++ es ↔ es = [] ∨ IsEnded text := by
  constructor
  · intro hsame
    cases es with
    | nil => exact .inl rfl
    | cons e es =>
      right
      obtain ⟨lines, last, rfl, hlines, hlast⟩ := exists_isEnded_append text
      rw [entriesOf_append_textOf hlines hlast hes, hlines.entriesOf_append, List.append_assoc,
        List.append_cancel_left_eq] at hsame
      -- There is one entry before the others, so that the last line has none of its own.
      have hnone : entriesOf last = [] := by
        rw [← List.length_eq_zero_iff]
        have hlength := congrArg List.length hsame
        simp only [List.length_append, List.length_cons] at hlength
        omega
      have hempty : last = "" := by
        rw [hnone, List.nil_append, List.cons.injEq] at hsame
        simpa using hsame.1
      rwa [hempty, String.append_empty]
  · rintro (rfl | hended)
    · rw [show textOf [] = "" from rfl, String.append_empty, List.append_nil]
    · rw [hended.entriesOf_append, entriesOf_textOf hes]

/-! ## Appending -/

variable {h : History} {host : Host} {directory l : Location} {path : String}

/-- What a new history reads from a store after the pending entries were appended to it: the entries
that it held and then the pending ones, just in case none is pending or its last line was ended. An
entry that is appended to a line that is not ended becomes one entry with it. -/
theorem entries_of_append (hl : host.files.resolveNew directory path = .ok l)
    (hs : host.files.IsStore l) (htext : host.files.content l = Text.encode text)
    (hpending : ∀ e ∈ h.pending, IsEntry e) :
    let entries := entriesOf (text ++ textOf h.pending)
    (host.files.get? l ≠ none → empty.read host directory path =
        .ok ((entriesOf text).length, ⟨entriesOf text, 0⟩)) ∧
      (∃ h' host', h.append host directory path = (.ok h.pending.length, h', host') ∧
        empty.read host' directory path = .ok (entries.length, ⟨entries, 0⟩)) ∧
      (entries = entriesOf text ++ h.pending ↔ h.pending = [] ∨ IsEnded text) ∧
      ∀ lines last e es, text = lines ++ last → IsEnded lines → '\n' ∉ last.toList →
        h.pending = e :: es → entries = entriesOf lines ++ (last ++ e) :: es := by
  intro entries
  refine ⟨?_, ?_, entriesOf_append_textOf_iff hpending, ?_⟩
  · intro hthere
    have hread := hs.read hl hthere
    rw [htext] at hread
    exact read_of_text empty hread
  · obtain ⟨host', hsave, -, -, hcontent, hread⟩ := save_store hl hs h.pending true
    have hbytes : host'.files.content l = Text.encode (text ++ textOf h.pending) := by
      rw [hcontent, if_pos rfl, htext, ← Text.encode_append]
    rw [hbytes] at hread
    refine ⟨⟨h.entries, h.entries.length⟩, host', ?_, read_of_text empty hread⟩
    rw [append, hsave]
  · rintro lines last e es rfl hlines hlast hcons
    simp only [entries]
    rw [hcons] at hpending ⊢
    exact entriesOf_append_textOf hlines hlast hpending

/-- An entry that is appended to a file whose last line is not ended. -/
theorem entries_of_append_fused :
    let files := (FileSystem.empty.put ["tmp"] .directory).put ["tmp", "h"]
      (.file 0o644 (Text.encode "a\nb"))
    let host := Host.start files [] []
    let h : History := ⟨["c", "d"], 0⟩
    ∃ h' host', h.append host ["tmp"] "h" = (.ok 2, h', host') ∧
      empty.read host' ["tmp"] "h" = .ok (3, ⟨["a", "bc", "d"], 0⟩) := by
  intro files host h
  have hl : host.files.resolveNew ["tmp"] "h" = .ok ["tmp", "h"] := by
    simp only [host, files]
    cbv
  have hs : host.files.IsStore ["tmp", "h"] := .file rfl rfl rfl
  have htext : host.files.content ["tmp", "h"] = Text.encode "a\nb" := rfl
  have hpending : ∀ e ∈ h.pending, IsEntry e := by decide
  obtain ⟨-, ⟨h', host', happend, hread⟩, -, hfused⟩ :=
    entries_of_append hl hs htext hpending
  rw [hfused "a\n" "b" "c" ["d"] (by decide) (.inr ⟨"a", by decide⟩) (by decide) rfl] at hread
  exact ⟨h', host', happend, hread⟩

/-- A file of one line without an end, and an entry that is pending: after it was appended, one entry
is read from the file, in place of the two. -/
theorem append_fuses :
    let files := (FileSystem.empty.put ["tmp"] .directory).put ["tmp", "h"]
      (.file 0o644 (Text.encode "a"))
    let host := Host.start files [] []
    let h : History := ⟨["b"], 0⟩
    let appended := h.append host ["tmp"] "h"
    empty.read host ["tmp"] "h" = .ok (1, ⟨["a"], 0⟩) ∧ (∀ e ∈ h.pending, IsEntry e) ∧
      appended.1 = .ok 1 ∧ empty.read appended.2.2 ["tmp"] "h" = .ok (1, ⟨["ab"], 0⟩) ∧
      ["ab"] ≠ ["a"] ++ h.pending := by
  intro files host h appended
  refine ⟨?_, by decide, ?_, ?_, by decide⟩
  · simp only [host, files]
    cbv
  · simp only [appended, host, files, h]
    cbv
  · simp only [appended, host, files, h]
    cbv

end CommandShell.History
