import Mathlib
import CommandShell.Proofs.History
import CommandShell.Proofs.Stage.Telling

/-!
# What the listing of the history tells

`history` shows every entry on a line of its own, behind its number. As long as no entry has a
newline in it, the entries can be told from what is printed, and with a count the same lines are
printed from the end: this is `history_prints_entries`.
-/

namespace CommandShell

/-! ## Numbers -/

/-- Digits stand for their number, if it is not too large. -/
theorem readDigits_eq {start : Nat} {cs : List Char} (hdigits : ∀ c ∈ cs, c.isDigit = true)
    (hfits : Nat.ofDigitChars 10 cs start < wordLimit) :
    readDigits start cs = .ok (Nat.ofDigitChars 10 cs start) := by
  induction cs generalizing start with
  | nil => rfl
  | cons c cs ih =>
    rw [List.forall_mem_cons] at hdigits
    rw [Nat.ofDigitChars_cons, Nat.mul_comm] at hfits ⊢
    -- The number of the digits so far is no larger than that of all.
    have hlt : start * 10 + (c.toNat - '0'.toNat) < wordLimit := by
      refine lt_of_le_of_lt ?_ hfits
      rw [Nat.ofDigitChars_eq_ofDigitChars_zero]
      exact (Nat.le_mul_of_pos_left _ (by positivity)).trans (Nat.le_add_right ..)
    rw [readDigits]
    simp only [hdigits.1, Bool.not_true, Bool.false_eq_true, ↓reduceIte, Nat.not_le.mpr hlt]
    exact ih hdigits.2 hfits

/-- A number of at most 64 bits is read as it is written. -/
theorem readNumber_toString {n : Nat} (h : n < wordLimit) : readNumber (toString n) = .ok n := by
  have hdigits : ∀ c ∈ Nat.toDigits 10 n, c.isDigit = true := fun c =>
    Nat.isDigit_of_mem_toDigits (by decide) (by decide)
  have hvalue : Nat.ofDigitChars 10 (Nat.toDigits 10 n) 0 = n := Nat.ofDigitChars_ten_toDigits
  have hread : readDigits 0 (Nat.toDigits 10 n) = .ok n := by
    rw [readDigits_eq hdigits (hvalue.symm ▸ h), hvalue]
  rw [readNumber, Nat.toString_eq_repr, Nat.toList_repr]
  split
  · next hnil => exact absurd hnil Nat.toDigits_ne_nil
  · next hplus => exact absurd (hdigits '+' (by simp [hplus])) (by decide)
  · next hplus => exact absurd (hdigits '+' (by simp [hplus])) (by decide)
  · exact hread

/-- A number starts with a digit or with a plus sign. -/
theorem head?_of_readNumber {text : String} {n : Nat} (h : readNumber text = .ok n) :
    ∃ c, text.toList.head? = some c ∧ (c = '+' ∨ c.isDigit = true) := by
  rw [readNumber] at h
  split at h
  · cases h
  · cases h
  · next cs hcs => exact ⟨'+', by rw [hcs]; rfl, .inl rfl⟩
  · next hnil _ _ =>
    obtain ⟨c, cs, hcs⟩ := List.exists_cons_of_ne_nil hnil
    rw [hcs, readDigits] at h
    rcases hdigit : c.isDigit with _ | _
    · simp [hdigit] at h
    · exact ⟨c, by rw [hcs]; rfl, .inr hdigit⟩

/-- A number is taken as the count of a listing. -/
theorem Grammar.readFrom_count {a : Arguments} {text : String} {n : Nat}
    (hopen : a.optionsOpen = true) (hnone : a.positionals = []) (h : readNumber text = .ok n)
    (rest : List String) :
    history.readFrom a (text :: rest) = history.readFrom { a with positionals := [text] } rest := by
  obtain ⟨c, hhead, hc⟩ := head?_of_readNumber h
  have hhelp : text ≠ "help" := by
    rintro rfl
    obtain rfl : 'h' = c := Option.some.inj hhead
    rcases hc with hc | hc <;> cases hc
  have hdash : text.toList.head? ≠ some '-' := by
    rw [hhead]
    rintro ⟨rfl⟩
    rcases hc with hc | hc <;> cases hc
  rw [readFrom_plain _ hopen hhelp hdash]
  simp [Arguments.addPositional, history, hnone, h, Except.bind]

/-! ## Lines -/

namespace History

/-- A text of lines without newlines falls into them, with nothing behind the last newline. -/
theorem splitOn_textOf {lines : List String} (h : ∀ line ∈ lines, '\n' ∉ line.toList) :
    Text.splitOn '\n' (textOf lines) = lines ++ [""] := by
  induction lines with
  | nil => decide
  | cons line lines ih =>
    rw [List.forall_mem_cons] at h
    have hchars : (textOf (line :: lines)).toList =
        line.toList ++ '\n' :: (textOf lines).toList := by simp [textOf_cons]
    have hrest := ih h.2
    rw [Text.splitOn] at hrest ⊢
    rw [hchars, List.splitOn_append_cons_self_of_not_mem h.1, List.map_cons, String.ofList_toList,
      hrest, List.cons_append]

/-- The lines that entries are listed on. -/
def listed (entries : List String) : List String :=
  entries.mapIdx fun i entry => Text.padLeft 5 ' ' (toString (i + 1)) ++ "  " ++ entry

/-- What is printed is a text of lines. -/
theorem join_drop_listing (entries : List String) (skipped : Nat) :
    String.join ((Shell.listing entries).drop skipped) = textOf ((listed entries).drop skipped) := by
  have hlines : (listed entries).map (· ++ "\n") = Shell.listing entries := by
    refine List.ext_getElem? fun i => ?_
    simp only [listed, Shell.listing, List.getElem?_map, List.getElem?_mapIdx, Option.map_map]
    rfl
  rw [textOf, List.map_drop, hlines]

/-- The numbers have no newlines in them. -/
theorem newline_not_mem_listed {entries : List String} (h : ∀ e ∈ entries, '\n' ∉ e.toList) :
    ∀ line ∈ listed entries, '\n' ∉ line.toList := by
  intro line hline
  obtain ⟨i, hi, rfl⟩ := List.mem_mapIdx.mp hline
  have hnumber : '\n' ∉ Nat.toDigits 10 (i + 1) := fun hmem =>
    absurd (Nat.isDigit_of_mem_toDigits (by decide) (by decide) hmem) (by decide)
  simp [Text.padLeft, hnumber, h entries[i] (List.getElem_mem hi)]

/-- Entries can be told from the lines that they are listed on. -/
theorem listed_injective : Function.Injective listed := by
  intro entries entries' h
  refine List.ext_getElem? fun i => ?_
  have hline := congrArg (fun lines : List String => lines[i]?) h
  simp only [listed, List.getElem?_mapIdx] at hline
  exact Option.map_injective (fun _ _ => (String.append_right_inj _).mp) hline

end History

/-! ## Printing -/

/-- What `history` has to write, if it is given no file, are the lines of its listing. -/
theorem Builtin.answer_history {registry : Registry} {streams : Streams} {sh : Shell}
    {arguments positionals : List String} (called : String)
    (h : Grammar.history.read arguments = .ok ⟨false, true, [], positionals⟩) :
    let count := positionals.head?.bind fun text => (readNumber text).toOption
    let skipped := match count with
      | some n => sh.history.entries.length - n
      | none => 0
    Builtin.history.answer registry (called :: arguments) streams sh =
      ⟨sh, (((Shell.listing sh.history.entries).drop skipped).map (Channel.output, ·)).map
        (emission sh streams (some "history") .tell), some 0⟩ := by
  simp only [answer, withArguments, List.drop_one, List.tail_cons, h, Bool.false_eq_true,
    ↓reduceIte]
  rfl

namespace Shell

variable {sh : Shell} {registry : Registry} {stage : Stage} {text text' : String}

/-- Whether a stage prints a text: it succeeds, all that has come to the standard output of the
session is the text, and nothing but the host has changed. -/
def Prints (sh : Shell) (registry : Registry) (stage : Stage) (text : String) : Prop :=
  ∃ h, sh.runStage registry stage = (0, { sh with host := h }) ∧
    h.output.bytes = (sh.opened stage).host.output.bytes ++ Text.encode text ∧
    h.error.bytes = (sh.opened stage).host.error.bytes

/-- A stage prints one text. -/
theorem Prints.unique (h : sh.Prints registry stage text) (h' : sh.Prints registry stage text') :
    text = text' := by
  obtain ⟨g, hrun, houtput, -⟩ := h
  obtain ⟨g', hrun', houtput', -⟩ := h'
  obtain rfl : g = g' := congrArg (fun r => r.2.host) (hrun.symm.trans hrun')
  have hbytes : Text.encode text = Text.encode text' :=
    List.append_cancel_left (houtput.symm.trans houtput')
  have htext := congrArg Text.decode? hbytes
  rw [Text.decode?_encode, Text.decode?_encode] at htext
  exact Option.some.inj htext

/-- A stage that says texts on standard output only prints them. -/
theorem Says.prints {lines : List String}
    (houtput : (sh.streamsOf stage).handle sh.process .output = some .output)
    (herror : (sh.streamsOf stage).handle sh.process .error = some .error)
    (h : sh.Says registry stage (lines.map (Channel.output, ·)) 0) :
    sh.Prints registry stage (String.join lines) := by
  obtain ⟨g, hrun, -, hreceived⟩ := h.runs
  obtain ⟨hbytes, hrest⟩ := hreceived houtput herror
  have htext : Channel.output.text (lines.map (Channel.output, ·)) = String.join lines := by
    simp [Channel.text, List.filter_map, Function.comp_def]
  have hnothing : Channel.error.text (lines.map (Channel.output, ·)) = "" := by
    simp [Channel.text, List.filter_map, Function.comp_def]
  rw [htext] at hbytes
  rw [hnothing] at hrest
  exact ⟨g, hrun, hbytes, hrest.trans (List.append_nil _)⟩

/-- `history` prints the lines of its listing, the last ones if it is given a count. -/
theorem prints_history (hhistory : registry.lookup "history" = some .history)
    (hstandard : sh.process.descriptors = .standard) {arguments positionals : List String}
    (h : Grammar.history.read arguments = .ok ⟨false, true, [], positionals⟩) :
    let count := positionals.head?.bind fun text => (readNumber text).toOption
    let skipped := match count with
      | some n => sh.history.entries.length - n
      | none => 0
    sh.Prints registry ⟨"history" :: arguments, []⟩
      (History.textOf ((History.listed sh.history.entries).drop skipped)) := by
  intro count skipped
  let stage : Stage := ⟨"history" :: arguments, []⟩
  have houtput : (sh.streamsOf stage).handle sh.process .output = some .output := by
    show sh.process.descriptors.get? 1 = some .output
    rw [hstandard]
    rfl
  have herror : (sh.streamsOf stage).handle sh.process .error = some .error := by
    show sh.process.descriptors.get? 2 = some .error
    rw [hstandard]
    rfl
  have htake : (sh.streamsOf stage).Take sh.process (sh.opened stage).host := by
    intro channel
    cases channel with
    | output => exact ⟨.output, houtput, .output⟩
    | error => exact ⟨.error, herror, .error⟩
  have hsays : sh.Says registry stage
      (((listing sh.history.entries).drop skipped).map (Channel.output, ·)) 0 :=
    says_of_answer hhistory rfl htake (Builtin.answer_history "history" h)
  rw [← History.join_drop_listing]
  exact hsays.prints houtput herror

/-- `history` prints each entry, as long as there are no newlines in them, on a line of its own:
behind its number, which stands on the right of at least five places, and two blanks. No other
entries are printed like this. With a count, the last lines are printed, as many as it says or as
there are. -/
theorem history_prints_entries (hhistory : registry.lookup "history" = some .history)
    (hstandard : sh.process.descriptors = .standard)
    (hentries : ∀ e ∈ sh.history.entries, '\n' ∉ e.toList) :
    ∃ lines : List String, (∀ line ∈ lines, '\n' ∉ line.toList) ∧
      sh.Prints registry ⟨["history"], []⟩ (History.textOf lines) ∧
      lines.length = sh.history.entries.length ∧
      (∀ i e, sh.history.entries[i]? = some e →
        lines[i]? = some (Text.padLeft 5 ' ' (toString (i + 1)) ++ "  " ++ e)) ∧
      (∀ sh' : Shell, sh'.process.descriptors = .standard →
        (∀ e ∈ sh'.history.entries, '\n' ∉ e.toList) →
        sh'.Prints registry ⟨["history"], []⟩ (History.textOf lines) →
        sh'.history.entries = sh.history.entries) ∧
      ∀ n < 2 ^ 64, readNumber (toString n) = .ok n ∧
        ∀ count, readNumber count = .ok n → ∃ last, last <:+ lines ∧
          last.length = min n lines.length ∧
          sh.Prints registry ⟨["history", count], []⟩ (History.textOf last) := by
  have hnone : Grammar.history.read [] = .ok ⟨false, true, [], []⟩ := rfl
  have hlines := History.newline_not_mem_listed hentries
  refine ⟨History.listed sh.history.entries, hlines, prints_history hhistory hstandard hnone,
    List.length_mapIdx, ?_, ?_, ?_⟩
  · intro i e he
    rw [History.listed, List.getElem?_mapIdx, he]
    rfl
  · intro sh' hstandard' hentries' hprints
    have hall : sh'.Prints registry ⟨["history"], []⟩
        (History.textOf (History.listed sh'.history.entries)) :=
      prints_history hhistory hstandard' hnone
    have hsplit := congrArg (Text.splitOn '\n') (hall.unique hprints)
    rw [History.splitOn_textOf (History.newline_not_mem_listed hentries'),
      History.splitOn_textOf hlines] at hsplit
    exact History.listed_injective (List.append_cancel_right hsplit)
  · intro n hn
    refine ⟨readNumber_toString hn, fun count hcount => ?_⟩
    have hread : Grammar.history.read [count] = .ok ⟨false, true, [], [count]⟩ :=
      Grammar.readFrom_count rfl rfl hcount []
    have hprints := prints_history hhistory hstandard hread
    simp only [List.head?_cons, Option.bind_some, hcount, Except.toOption] at hprints
    refine ⟨_, List.drop_suffix _ _, ?_, hprints⟩
    rw [List.length_drop, History.listed, List.length_mapIdx]
    omega

/-- An entry that looks like a line of the listing. -/
theorem history_prints_entries_indented :
    let sh : Shell :=
      { start ⟨[], "/", false⟩ [] (.start .empty [] []) with history := ⟨["ls", "    1  ls"], 0⟩ }
    Registry.default.lookup "history" = some .history ∧
      sh.process.descriptors = .standard ∧
      (∀ e ∈ sh.history.entries, '\n' ∉ e.toList) ∧
      sh.Prints .default ⟨["history"], []⟩ "    1  ls\n    2      1  ls\n" ∧
      sh.Prints .default ⟨["history", "1"], []⟩ "    2      1  ls\n" := by
  intro sh
  have hhistory : Registry.default.lookup "history" = some .history := by cbv
  have hentries : ∀ e ∈ sh.history.entries, '\n' ∉ e.toList := by decide
  have hstandard : sh.process.descriptors = .standard := rfl
  obtain ⟨lines, -, hprints, hlength, hnumbered, -, hcounts⟩ :=
    history_prints_entries hhistory hstandard hentries
  obtain ⟨last, hsuffix, hlast, hprintslast⟩ := (hcounts 1 (by decide)).2 "1" (by decide)
  obtain ⟨first, second, rfl⟩ : ∃ first second, lines = [first, second] :=
    List.length_eq_two.mp hlength
  obtain rfl : first = "    1  ls" := Option.some.inj ((hnumbered 0 _ rfl).trans (by decide))
  obtain rfl : second = "    2      1  ls" := Option.some.inj ((hnumbered 1 _ rfl).trans (by decide))
  obtain rfl : last = ["    2      1  ls"] :=
    (List.suffix_iff_eq_drop.mp hsuffix).trans (by rw [hlast]; rfl)
  exact ⟨hhistory, hstandard, hentries, hprints, hprintslast⟩

end Shell

end CommandShell
