import CommandShell.Line.Piece

/-!
# Written lines

A pipeline can be written as a line in many ways. Every word can be cut into segments that are
written bare, behind a backslash or between quotes; arguments and redirections of a stage can be
mixed; blanks can be as many as one likes. `Written.Line` relates pipelines to the lines they can be
written as, and `parse_of_written` says that each such line is read back as its pipeline.
-/

namespace CommandShell

/-- A stage as lines can ask for it: it runs a command, and none of its texts is empty. -/
structure Stage.IsProper (s : Stage) : Prop where
  arguments_ne_nil : s.arguments ≠ []
  argument_ne_empty : ∀ a ∈ s.arguments, a ≠ ""
  path_ne_empty : ∀ r ∈ s.redirections, r.path ≠ ""

namespace Written

/-! ## The ways to write a line -/

/-- How the text between two double quotes is written. A backslash stands for itself unless another
one or a double quote follows. -/
inductive Within : List Char → List Char → Prop
  | nil : Within [] []
  | plain {c : Char} {text written : List Char} :
      c ≠ '"' → c ≠ '\\' → Within text written → Within (c :: text) (c :: written)
  | escaped {c : Char} {text written : List Char} :
      c = '"' ∨ c = '\\' → Within text written → Within (c :: text) ('\\' :: c :: written)
  | backslash {c : Char} {text written : List Char} :
      c ≠ '"' → c ≠ '\\' → Within text written → Within ('\\' :: c :: text) ('\\' :: c :: written)

/-- How a segment of a word is written. -/
inductive Segment : List Char → List Char → Prop
  | bare {c : Char} :
      isBoundary c = false → c ≠ '\'' → c ≠ '"' → c ≠ '\\' → Segment [c] [c]
  | escaped (c : Char) : Segment [c] ['\\', c]
  | single {text : List Char} : '\'' ∉ text → Segment text ('\'' :: (text ++ ['\'']))
  | double {text written : List Char} :
      Within text written → Segment text ('"' :: (written ++ ['"']))

/-- How a word is written: segment by segment. -/
inductive Word : List Char → List Char → Prop
  | nil : Word [] []
  | cons {s w text written : List Char} :
      Segment s w → Word text written → Word (s ++ text) (w ++ written)

/-- How the stream of a redirection is written in front of the `>`. -/
inductive Descriptor : Target → List Char → Prop
  | plain : Descriptor .output []
  | output : Descriptor .output ['1']
  | error : Descriptor .error ['2']
  | unknown {c : Char} : c.isDigit → c ≠ '1' → c ≠ '2' → Descriptor .unknown [c]

/-- What blanks can stand in front of a piece: at least one, except at the start of a stage. -/
structure Gap (start : Bool) (blanks : List Char) : Prop where
  blank : ∀ b ∈ blanks, isBlank b
  ne_nil : start = false → blanks ≠ []

/-- How the arguments and redirections of a stage are written, or of what is left of it when `start`
is false. -/
inductive Pieces : Bool → List String → List Redirection → List Char → Prop
  | done {start : Bool} {blanks : List Char} :
      (∀ b ∈ blanks, isBlank b) → Pieces start [] [] blanks
  | argument {start : Bool} {a : String} {as : List String} {rs : List Redirection}
      {blanks word line : List Char} :
      Gap start blanks → Word a.toList word → Pieces false as rs line →
        Pieces start (a :: as) rs (blanks ++ (word ++ line))
  | redirection {start : Bool} {r : Redirection} {as : List String} {rs : List Redirection}
      {blanks digit inner word line : List Char} :
      Gap start blanks → Descriptor r.target digit → (∀ b ∈ inner, isBlank b) →
        Word r.path.toList word → Pieces false as rs line →
        Pieces start as (r :: rs)
          (blanks ++ (digit ++ '>' ::
            ((if r.append then ['>'] else []) ++ (inner ++ (word ++ line)))))

/-- How a pipeline is written: its stages with bars between them. -/
inductive Line : List Stage → List Char → Prop
  | last {s : Stage} {line : List Char} :
      Pieces true s.arguments s.redirections line → Line [s] line
  | cons {s : Stage} {stages : List Stage} {line rest : List Char} :
      Pieces true s.arguments s.redirections line → Line stages rest →
        Line (s :: stages) (line ++ '|' :: rest)

/-- A bare character in front of a word. -/
theorem Word.bare {c : Char} {text written : List Char}
    (h : isBoundary c = false ∧ c ≠ '\'' ∧ c ≠ '"' ∧ c ≠ '\\') (hw : Word text written) :
    Word (c :: text) (c :: written) :=
  .cons (.bare h.1 h.2.1 h.2.2.1 h.2.2.2) hw

/-! ## Reading words -/

/-- Between single quotes, everything is taken as it is. -/
theorem readWord_single {text : List Char} (h : '\'' ∉ text) (rest : List Char) :
    (readWord .single (text ++ '\'' :: rest)).1.text = text ++ (readWord .bare rest).1.text ∧
      (readWord .single (text ++ '\'' :: rest)).2 = (readWord .bare rest).2 := by
  induction text with
  | nil => simp
  | cons c text ih =>
    simp only [List.mem_cons, not_or] at h
    obtain ⟨iht, ihr⟩ := ih h.2
    rw [List.cons_append, readWord_single_plain (Ne.symm h.1)]
    simp [iht, ihr]

/-- Between double quotes, the text is read back that was written. -/
theorem readWord_double {text written : List Char} (h : Within text written) (rest : List Char) :
    (readWord .double (written ++ '"' :: rest)).1.text = text ++ (readWord .bare rest).1.text ∧
      (readWord .double (written ++ '"' :: rest)).2 = (readWord .bare rest).2 := by
  induction h with
  | nil => simp
  | plain hq hb _ ih =>
    rw [List.cons_append, readWord_double_plain hq hb]
    simp [ih.1, ih.2]
  | escaped hc _ ih =>
    rw [List.cons_append, List.cons_append, readWord_double_escaped hc.symm]
    simp [ih.1, ih.2]
  | backslash hq hb _ ih =>
    rw [List.cons_append, List.cons_append, readWord_double_backslash hb hq]
    simp [ih.1, ih.2]

/-- A segment in front of a word adds its text and takes what it was written as. -/
theorem readWord_segment {text written : List Char} (h : Segment text written)
    (rest : List Char) :
    (readWord .bare (written ++ rest)).1.text = text ++ (readWord .bare rest).1.text ∧
      (readWord .bare (written ++ rest)).2 = (readWord .bare rest).2 := by
  cases h with
  | bare hb hs hd he =>
    rw [List.cons_append, readWord_plain hb hs hd he]
    simp
  | escaped c => simp
  | single hs =>
    have := readWord_single hs rest
    simp [this.1, this.2]
  | double hw =>
    have := readWord_double hw rest
    simp [this.1, this.2]

/-- What can stand behind a word: a boundary or the end of the line. -/
def Stops (rest : List Char) : Prop := ∀ c ∈ rest.head?, isBoundary c = true

/-- A word is read back, up to what stands behind it. -/
theorem readWord_of_written {text written rest : List Char} (h : Word text written)
    (hr : Stops rest) :
    (readWord .bare (written ++ rest)).1.text = text ∧
      (readWord .bare (written ++ rest)).2 = rest := by
  induction h with
  | nil =>
    cases rest with
    | nil => simp [readWord]
    | cons c rest => simp [readWord_boundary (hr c rfl)]
  | cons hs _ ih =>
    obtain ⟨ht, hl⟩ := readWord_segment hs _
    rw [List.append_assoc, ht, hl, ih.1, ih.2]
    exact ⟨rfl, rfl⟩

/-- A segment starts with no boundary. -/
theorem Segment.exists_cons {text written : List Char} (h : Segment text written) :
    ∃ c rest, written = c :: rest ∧ isBoundary c = false := by
  cases h with
  | bare hb => exact ⟨_, _, rfl, hb⟩
  | escaped => exact ⟨_, _, rfl, by decide⟩
  | single => exact ⟨_, _, rfl, by decide⟩
  | double => exact ⟨_, _, rfl, by decide⟩

/-- A word that stands for a text starts with no boundary. -/
theorem Word.exists_cons {text written : List Char} (h : Word text written) (hne : text ≠ []) :
    ∃ c rest, written = c :: rest ∧ isBoundary c = false := by
  cases h with
  | nil => exact absurd rfl hne
  | cons hs _ =>
    obtain ⟨c, rest, rfl, hc⟩ := hs.exists_cons
    exact ⟨c, rest ++ _, rfl, hc⟩

/-! ## Reading pieces -/

/-- Blanks in front of a piece say nothing. -/
theorem pieces_append {blanks : List Char} (h : ∀ b ∈ blanks, isBlank b) (rest : List Char) :
    pieces (blanks ++ rest) = pieces rest := by
  rw [pieces, pieces, List.dropWhile_append_of_pos h]

/-- The pieces of a line that starts with no blank. -/
theorem pieces_cons {c : Char} (h : isBlank c = false) (rest : List Char) :
    pieces (c :: rest) = (readPiece c rest).1 :: pieces (readPiece c rest).2 := by
  have hd : (c :: rest).dropWhile isBlank = c :: rest := by
    rw [List.dropWhile_cons_of_neg (by simp [h])]
  rw [pieces]
  split
  · next hnil => simp [hd] at hnil
  · next hcons =>
    rw [hd] at hcons
    cases hcons
    rfl

/-- A line without pieces. -/
@[simp] theorem pieces_nil : pieces [] = [] := by
  simp [pieces]

/-- A bar is a piece. -/
theorem pieces_bar (rest : List Char) : pieces ('|' :: rest) = .bar :: pieces rest := by
  rw [pieces_cons (by decide)]
  simp [readPiece]

/-- What can stand behind a piece: a blank, a bar or the end of the line. -/
def Ends (rest : List Char) : Prop := ∀ c ∈ rest.head?, isBlank c = true ∨ c = '|'

theorem Ends.stops {rest : List Char} (h : Ends rest) : Stops rest := by
  intro c hc
  obtain hb | rfl := h c hc
  · simp [isBoundary, hb]
  · decide

/-- A word of its own is read as an argument. -/
theorem pieces_argument {text written rest : List Char} (h : Word text written) (hne : text ≠ [])
    (hr : Ends rest) :
    pieces (written ++ rest) = .argument (String.ofList text) :: pieces rest := by
  obtain ⟨c, cs, rfl, hc⟩ := h.exists_cons hne
  obtain ⟨ht, hl⟩ := readWord_of_written h hr.stops
  simp only [isBoundary, Bool.or_eq_false_iff, decide_eq_false_iff_not] at hc
  rw [List.cons_append] at ht hl ⊢
  have hread : readPiece c (cs ++ rest) = (.argument (String.ofList text), rest) := by
    simp only [readPiece, hc.1.2, hc.2, if_false, hl, ht]
    split
    · -- a `>` cannot stand behind a word of its own
      have := hr '>' (by simp)
      simp [isBlank] at this
    · rfl
  rw [pieces_cons hc.1.1, hread]

/-- Behind the `>` or `>>` of a redirection, its path is read. -/
theorem readRedirect_of_written {r : Redirection} {inner word rest : List Char}
    (hi : ∀ b ∈ inner, isBlank b) (hw : Word r.path.toList word) (hne : r.path ≠ "")
    (hr : Ends rest) :
    readRedirect r.target ((if r.append then ['>'] else []) ++ (inner ++ (word ++ rest))) =
      (.redirect r, rest) := by
  obtain ⟨c, cs, rfl, hc⟩ := hw.exists_cons (by simpa using hne)
  obtain ⟨ht, hl⟩ := readWord_of_written hw hr.stops
  simp only [isBoundary, Bool.or_eq_false_iff, decide_eq_false_iff_not] at hc
  have hdrop : (inner ++ (c :: cs ++ rest)).dropWhile isBlank = c :: cs ++ rest := by
    rw [List.dropWhile_append_of_pos hi, List.cons_append,
      List.dropWhile_cons_of_neg (by simp [hc.1.1])]
  -- without the second `>`, what comes next is a blank or the start of the path
  have hhead : (inner ++ (c :: cs ++ rest)).head? ≠ some '>' := by
    cases inner with
    | nil => simpa using hc.2
    | cons b inner =>
      have hb := hi b (by simp)
      rintro h
      simp only [List.cons_append, List.head?_cons, Option.some.injEq] at h
      subst h
      simp [isBlank] at hb
  obtain ⟨target, path, append⟩ := r
  cases append with
  | false =>
    simp only [readRedirect, Bool.false_eq_true, if_false, List.nil_append, hhead, hdrop, hl, ht,
      decide_false, String.ofList_toList]
  | true =>
    simp only [readRedirect, if_true, List.singleton_append, List.head?_cons, List.tail_cons, hdrop,
      hl, ht, decide_true, String.ofList_toList]

/-- A digit is none of the characters that mean something on a line. -/
theorem ne_of_isDigit {d c : Char} (hd : d.isDigit) (hc : c.isDigit = false) : d ≠ c := by
  rintro rfl
  simp [hc] at hd

theorem isBlank_of_isDigit {d : Char} (hd : d.isDigit) : isBlank d = false := by
  simp only [isBlank, Bool.or_eq_false_iff, decide_eq_false_iff_not]
  exact ⟨⟨⟨ne_of_isDigit hd rfl, ne_of_isDigit hd rfl⟩, ne_of_isDigit hd rfl⟩,
    ne_of_isDigit hd rfl⟩

/-- A digit in front of a `>` is read as a word that may name a stream. -/
theorem readWord_digit {d : Char} (hd : d.isDigit) (rest : List Char) :
    readWord .bare (d :: '>' :: rest) = (⟨[d], false⟩, '>' :: rest) := by
  have hb : isBoundary d = false := by
    simp only [isBoundary, isBlank_of_isDigit hd, Bool.false_or, Bool.or_eq_false_iff,
      decide_eq_false_iff_not]
    exact ⟨ne_of_isDigit hd rfl, ne_of_isDigit hd rfl⟩
  rw [readWord_plain hb (ne_of_isDigit hd rfl) (ne_of_isDigit hd rfl) (ne_of_isDigit hd rfl),
    readWord_boundary (by decide)]
  rfl

/-- A written redirection is read back. -/
theorem pieces_redirect {r : Redirection} {digit inner word rest : List Char}
    (hd : Descriptor r.target digit) (hi : ∀ b ∈ inner, isBlank b)
    (hw : Word r.path.toList word) (hne : r.path ≠ "") (hr : Ends rest) :
    pieces (digit ++ '>' :: ((if r.append then ['>'] else []) ++ (inner ++ (word ++ rest)))) =
      .redirect r :: pieces rest := by
  have hread := readRedirect_of_written hi hw hne hr
  generalize (if r.append then ['>'] else []) ++ (inner ++ (word ++ rest)) = tail at hread
  obtain ⟨target, path, append⟩ := r
  have hdigit {d : Char} (h : d.isDigit) (hs : (Word.descriptor? ⟨[d], false⟩) = some target) :
      pieces (d :: '>' :: tail) = .redirect ⟨target, path, append⟩ :: pieces rest := by
    have hpiece : readPiece d ('>' :: tail) = (.redirect ⟨target, path, append⟩, rest) := by
      simp only [readPiece, ne_of_isDigit h (c := '|') rfl, ne_of_isDigit h (c := '>') rfl,
        if_false, readWord_digit h, hs, hread]
    rw [pieces_cons (isBlank_of_isDigit h), hpiece]
  cases hd with
  | plain =>
    rw [List.nil_append, pieces_cons (by decide)]
    simp [readPiece, hread]
  | output => exact hdigit (by decide) rfl
  | error => exact hdigit (by decide) rfl
  | unknown hc h1 h2 => exact hdigit hc (by simp [Word.descriptor?, hc])

/-! ## Reading stages and lines -/

/-- What follows a piece in a stage, or follows the stage, lets the piece end. -/
theorem Pieces.ends {as : List String} {rs : List Redirection} {line rest : List Char}
    (h : Pieces false as rs line) (hr : rest = [] ∨ rest.head? = some '|') :
    Ends (line ++ rest) := by
  have hgap {blanks : List Char} (hb : ∀ b ∈ blanks, isBlank b) (hne : blanks ≠ [])
      (tail : List Char) : Ends (blanks ++ tail) := by
    intro c hc
    cases blanks with
    | nil => exact absurd rfl hne
    | cons b blanks =>
      simp only [List.cons_append, List.head?_cons, Option.mem_def, Option.some.injEq] at hc
      exact Or.inl (hc ▸ hb b (by simp))
  cases h with
  | done hb =>
    cases line with
    | nil =>
      intro c hc
      rcases hr with rfl | hr
      · simp at hc
      · exact Or.inr (by simpa [hr] using hc.symm)
    | cons b blanks => exact hgap hb (by simp) rest
  | argument hg => rw [List.append_assoc]; exact hgap hg.blank (hg.ne_nil rfl) _
  | redirection hg => rw [List.append_assoc]; exact hgap hg.blank (hg.ne_nil rfl) _

/-- The pieces of a stage are read back, up to the bar or the end behind it. -/
theorem pieces_of_written {start : Bool} {as : List String} {rs : List Redirection}
    {line rest : List Char} (h : Pieces start as rs line) (has : ∀ a ∈ as, a ≠ "")
    (hrs : ∀ r ∈ rs, r.path ≠ "") (hr : rest = [] ∨ rest.head? = some '|') :
    ∃ ps, pieces (line ++ rest) = ps ++ pieces rest ∧ Piece.bar ∉ ps ∧
      ps.filterMap Piece.argument? = as ∧ ps.filterMap Piece.redirection? = rs := by
  induction h with
  | done hb => exact ⟨[], by simp [pieces_append hb], by simp, rfl, rfl⟩
  | @argument _ a as rs blanks word line hg hw hrest ih =>
    obtain ⟨ps, hps, hbar, ha, hred⟩ := ih (fun a ha => has a (by simp [ha])) hrs
    have hne : a ≠ "" := has a (by simp)
    refine ⟨.argument a :: ps, ?_, by simpa using hbar, ?_, ?_⟩
    · rw [List.append_assoc, List.append_assoc, pieces_append hg.blank,
        pieces_argument hw (by simpa using hne) (hrest.ends hr), hps, String.ofList_toList]
      rfl
    · simp [Piece.argument?, hne, ha]
    · rw [List.filterMap_cons_none rfl, hred]
  | @redirection _ r as rs blanks digit inner word line hg hd hi hw hrest ih =>
    obtain ⟨ps, hps, hbar, ha, hred⟩ := ih has (fun r hr => hrs r (by simp [hr]))
    have hne : r.path ≠ "" := hrs r (by simp)
    refine ⟨.redirect r :: ps, ?_, by simpa using hbar, ?_, ?_⟩
    · simp only [List.append_assoc, List.cons_append]
      rw [pieces_append hg.blank, pieces_redirect hd hi hw hne (hrest.ends hr), hps]
    · rw [List.filterMap_cons_none rfl, ha]
    · simp [Piece.redirection?, hne, hred]

/-- Pieces that hold a proper stage make up this stage. -/
theorem ofPieces?_eq_some {s : Stage} (hs : s.IsProper) {ps : List Piece}
    (ha : ps.filterMap Piece.argument? = s.arguments)
    (hr : ps.filterMap Piece.redirection? = s.redirections) : Stage.ofPieces? ps = some s := by
  obtain ⟨arguments, redirections⟩ := s
  have hne := hs.arguments_ne_nil
  simp only at ha hr hne
  rw [Stage.ofPieces?, ha, hr]
  cases arguments with
  | nil => exact absurd rfl hne
  | cons a as => rfl

/-- A written pipeline is read back, piece by piece. -/
theorem listOfPieces_of_written {stages : List Stage} {line : List Char} (h : Line stages line)
    (hs : ∀ s ∈ stages, s.IsProper) : Stage.listOfPieces (pieces line) = stages := by
  induction h with
  | @last s line hp =>
    have hproper := hs s (by simp)
    obtain ⟨ps, hps, hbar, ha, hr⟩ := pieces_of_written hp
      hproper.argument_ne_empty hproper.path_ne_empty (Or.inl (rfl : ([] : List Char) = []))
    simp only [List.append_nil, pieces_nil] at hps
    rw [Stage.listOfPieces, hps, List.splitOn_eq_singleton hbar, List.filterMap_cons_some
      (ofPieces?_eq_some hproper ha hr), List.filterMap_nil]
  | @cons s stages line rest hp _ ih =>
    have hproper := hs s (by simp)
    obtain ⟨ps, hps, hbar, ha, hr⟩ := pieces_of_written hp
      hproper.argument_ne_empty hproper.path_ne_empty (Or.inr (rfl : ('|' :: rest).head? = _))
    have ih := ih (fun s h => hs s (by simp [h]))
    rw [Stage.listOfPieces] at ih
    rw [Stage.listOfPieces, hps, pieces_bar, List.splitOn_append_cons_self_of_not_mem hbar,
      List.filterMap_cons_some (ofPieces?_eq_some hproper ha hr), ih]

end Written

/-- However a pipeline is written as a line, the line is read back as the pipeline. -/
theorem parse_of_written {stages : List Stage} {line : String}
    (h : Written.Line stages line.toList) (hs : ∀ s ∈ stages, s.IsProper) : parse line = stages :=
  Written.listOfPieces_of_written h hs

/-- Quotes within a word, a path right behind its `>>`, a digit that is an argument, and a bar
without blanks. -/
theorem parse_of_written_mixed :
    let stages : List Stage :=
      [⟨["echo", "2"], [⟨.error, "a b", true⟩]⟩, ⟨["wc"], [⟨.unknown, "o", false⟩]⟩]
    let line := "e'ch'\"o\" 2>>a\\ b 2|\twc  7>o"
    Written.Line stages line.toList ∧ (∀ s ∈ stages, s.IsProper) ∧ parse line = stages := by
  intro stages line
  have hch : Written.Segment ['c', 'h'] "'ch'".toList := .single (by decide)
  have hecho : Written.Word "echo".toList "e'ch'\"o\"".toList :=
    .bare (by decide) (.cons hch (.cons (.double (.plain (by decide) (by decide) .nil)) .nil))
  have hpath : Written.Word "a b".toList "a\\ b".toList :=
    .bare (by decide) (.cons (.escaped ' ') (.bare (by decide) .nil))
  have htwo : Written.Word "2".toList ['2'] := .bare (by decide) .nil
  have hwc : Written.Word "wc".toList ['w', 'c'] := .bare (by decide) (.bare (by decide) .nil)
  have ho : Written.Word "o".toList ['o'] := .bare (by decide) .nil
  have hgap : Written.Gap false [' '] := ⟨by simp [isBlank], by simp⟩
  have hgaps : Written.Gap false [' ', ' '] := ⟨by simp [isBlank], by simp⟩
  have hstart : Written.Gap true [] := ⟨by simp, by simp⟩
  have htab : Written.Gap true ['\t'] := ⟨by simp [isBlank], by simp⟩
  have hfirst : Written.Pieces true ["echo", "2"] [⟨.error, "a b", true⟩]
      "e'ch'\"o\" 2>>a\\ b 2".toList :=
    .argument hstart hecho (.redirection (r := ⟨.error, "a b", true⟩) hgap .error hstart.blank hpath
      (.argument hgap htwo (.done hstart.blank)))
  have hsecond : Written.Pieces true ["wc"] [⟨.unknown, "o", false⟩] "\twc  7>o".toList :=
    .argument htab hwc (.redirection (r := ⟨.unknown, "o", false⟩) hgaps
      (.unknown (c := '7') (by decide) (by decide) (by decide)) hstart.blank ho
      (.done hstart.blank))
  have hsplit : line.toList = "e'ch'\"o\" 2>>a\\ b 2".toList ++ '|' :: "\twc  7>o".toList := by
    decide
  have hline : Written.Line stages line.toList := by
    rw [hsplit]
    exact .cons hfirst (.last hsecond)
  have hproper : ∀ s ∈ stages, s.IsProper := by
    simp only [stages, List.forall_mem_cons]
    exact ⟨⟨by decide, by decide, by decide⟩, ⟨by decide, by decide, by decide⟩, by simp⟩
  exact ⟨hline, hproper, parse_of_written hline hproper⟩

end CommandShell
