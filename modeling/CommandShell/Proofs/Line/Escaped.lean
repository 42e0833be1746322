import CommandShell.Proofs.Line.Written

/-!
# Escaped lines

Every line is read as proper stages, whatever is wrong with it. Proper stages have a plain way to be
written, in which a backslash stands in front of every character of an argument and of a path.
`parse_escaped` says that what a line was read as is read back from there.
-/

namespace CommandShell

/-! ## Lines of escaped characters -/

/-- The digit of a stream in front of a `>`. -/
def Target.digit : Target → Char
  | output => '1'
  | error => '2'
  | unknown => '3'

/-- A text with a backslash in front of every character. -/
def escapedText (text : String) : String :=
  String.ofList (text.toList.flatMap fun c => ['\\', c])

/-- A redirection with its digit, its operator and its escaped path. -/
def Redirection.escaped (r : Redirection) : String :=
  String.singleton r.target.digit ++ (if r.append then ">>" else ">") ++ escapedText r.path

/-- A stage with its escaped arguments in front of its redirections. -/
def Stage.escaped (s : Stage) : String :=
  String.intercalate " " (s.arguments.map escapedText ++ s.redirections.map Redirection.escaped)

/-- A line that asks for the given stages. -/
def escapedLine (stages : List Stage) : String :=
  String.intercalate " | " (stages.map Stage.escaped)

/-! ## What a line is read as -/

/-- An argument of a piece has some text. -/
theorem Piece.ne_empty_of_argument? {p : Piece} {a : String} (h : p.argument? = some a) :
    a ≠ "" := by
  cases p with
  | argument text =>
    rw [argument?] at h
    split at h
    · cases h
    · cases h
      assumption
  | redirect r => cases h
  | bar => cases h

/-- A redirection of a piece has a path. -/
theorem Piece.path_ne_empty_of_redirection? {p : Piece} {r : Redirection}
    (h : p.redirection? = some r) : r.path ≠ "" := by
  cases p with
  | redirect r' =>
    rw [redirection?] at h
    split at h
    · cases h
    · cases h
      assumption
  | argument text => cases h
  | bar => cases h

/-- The stage that pieces make up is proper. -/
theorem Stage.isProper_of_ofPieces? {ps : List Piece} {s : Stage} (h : ofPieces? ps = some s) :
    s.IsProper := by
  have hargument : ∀ a ∈ ps.filterMap Piece.argument?, a ≠ "" := by
    intro a ha
    obtain ⟨p, -, hp⟩ := List.mem_filterMap.mp ha
    exact Piece.ne_empty_of_argument? hp
  have hpath : ∀ r ∈ ps.filterMap Piece.redirection?, r.path ≠ "" := by
    intro r hr
    obtain ⟨p, -, hp⟩ := List.mem_filterMap.mp hr
    exact Piece.path_ne_empty_of_redirection? hp
  rw [ofPieces?] at h
  split at h
  · cases h
  · next hne =>
    cases h
    exact ⟨hne, hargument, hpath⟩

/-- The stages of a line are proper. -/
theorem isProper_of_mem_parse {line : String} {s : Stage} (h : s ∈ parse line) : s.IsProper := by
  obtain ⟨ps, -, hps⟩ := List.mem_filterMap.mp h
  exact Stage.isProper_of_ofPieces? hps

/-! ## What an escaped line is read as -/

namespace Written

/-- A text is written by its escaped characters. -/
theorem word_escapedText (text : String) : Word text.toList (escapedText text).toList := by
  rw [escapedText, String.toList_ofList]
  generalize text.toList = text
  induction text with
  | nil => exact .nil
  | cons c text ih => exact .cons (.escaped c) ih

/-- The digit of a stream names it. -/
theorem descriptor_digit (target : Target) : Descriptor target [target.digit] := by
  cases target with
  | output => exact .output
  | error => exact .error
  | unknown => exact .unknown (by decide) (by decide) (by decide)

/-- What is written behind other pieces of a stage, each piece behind a space. -/
def spaced (written : List String) : List Char := written.flatMap fun w => ' ' :: w.toList

/-- Texts with spaces between them are the first text and the others, each behind a space. -/
theorem toList_intercalate_space (first : String) (others : List String) :
    (String.intercalate " " (first :: others)).toList = first.toList ++ spaced others := by
  induction others generalizing first with
  | nil => simp [spaced]
  | cons second others ih =>
    rw [String.intercalate_cons_cons, String.toList_append, String.toList_append, ih second]
    simp [spaced]

variable {tail : List Char}

theorem gap_space : Gap false [' '] := ⟨by simp [isBlank], by simp⟩

/-- Redirections are written behind other pieces. -/
theorem pieces_spaced_redirections (ht : ∀ b ∈ tail, isBlank b) (rs : List Redirection) :
    Pieces false [] rs (spaced (rs.map Redirection.escaped) ++ tail) := by
  induction rs with
  | nil => exact .done ht
  | cons r rs ih =>
    have hinner : ∀ b ∈ ([] : List Char), isBlank b := by simp
    have hpieces : Pieces false [] (r :: rs) _ :=
      .redirection gap_space (descriptor_digit r.target) hinner (word_escapedText r.path) ih
    cases hr : r.append <;>
      simpa [spaced, Redirection.escaped, hr] using hpieces

/-- Arguments and then redirections are written behind other pieces. -/
theorem pieces_spaced (ht : ∀ b ∈ tail, isBlank b) (as : List String) (rs : List Redirection) :
    Pieces false as rs (spaced (as.map escapedText ++ rs.map Redirection.escaped) ++ tail) := by
  induction as with
  | nil => exact pieces_spaced_redirections ht rs
  | cons a as ih =>
    have hpieces : Pieces false (a :: as) rs _ := .argument gap_space (word_escapedText a) ih
    simpa [spaced] using hpieces

/-- A stage is written by its escaped form, with blanks around it or without. -/
theorem pieces_escaped {s : Stage} (hs : s.arguments ≠ []) {lead : List Char}
    (hl : ∀ b ∈ lead, isBlank b) (ht : ∀ b ∈ tail, isBlank b) :
    Pieces true s.arguments s.redirections (lead ++ (s.escaped.toList ++ tail)) := by
  obtain ⟨_ | ⟨a, as⟩, rs⟩ := s
  · exact absurd rfl hs
  · rw [Stage.escaped, List.map_cons, List.cons_append, toList_intercalate_space, List.append_assoc]
    exact .argument ⟨hl, nofun⟩ (word_escapedText a) (pieces_spaced ht as rs)

/-- A pipeline is written by its escaped form, with blanks in front of it or without. -/
theorem line_escaped {stages : List Stage} (hne : stages ≠ [])
    (hs : ∀ s ∈ stages, s.arguments ≠ []) {lead : List Char} (hl : ∀ b ∈ lead, isBlank b) :
    Line stages (lead ++ (escapedLine stages).toList) := by
  induction stages generalizing lead with
  | nil => exact absurd rfl hne
  | cons s stages ih =>
    have hfirst : s.arguments ≠ [] := hs s (by simp)
    cases stages with
    | nil =>
      have hlast : Line [s] (lead ++ (s.escaped.toList ++ [])) :=
        .last (pieces_escaped hfirst hl (by simp))
      simpa [escapedLine] using hlast
    | cons t stages =>
      -- the space in front of the bar belongs to the stage before it, the other to the next one
      have hrest : Line (t :: stages) ([' '] ++ (escapedLine (t :: stages)).toList) :=
        ih (by simp) (fun u hu => hs u (by simp [hu])) gap_space.blank
      have hline : Line (s :: t :: stages) (lead ++ (s.escaped.toList ++ [' ']) ++
          '|' :: ([' '] ++ (escapedLine (t :: stages)).toList)) :=
        .cons (pieces_escaped hfirst hl gap_space.blank) hrest
      simpa [escapedLine, String.intercalate_cons_cons] using hline

end Written

/-- Proper stages are read back from their escaped line. -/
theorem parse_escapedLine {stages : List Stage} (hs : ∀ s ∈ stages, s.IsProper) :
    parse (escapedLine stages) = stages := by
  by_cases hne : stages = []
  · subst hne
    simp [escapedLine, parse, Written.pieces_nil, Stage.listOfPieces, Stage.ofPieces?]
  · have hlead : ∀ b ∈ ([] : List Char), isBlank b := by simp
    have hline := Written.line_escaped hne (fun s h => (hs s h).arguments_ne_nil) hlead
    exact Written.listOfPieces_of_written hline hs

/-- Whatever a line holds, each of its stages has an argument, and none of their arguments and paths
is empty. Written with all characters escaped, the stages are read back as they are. -/
theorem parse_escaped (line : String) :
    (∀ s ∈ parse line, s.IsProper) ∧ parse (escapedLine (parse line)) = parse line :=
  ⟨fun _ h => isProper_of_mem_parse h, parse_escapedLine fun _ h => isProper_of_mem_parse h⟩

/-- An empty word, a path that is missing, a stage without a command and quotes that stay open leave
nothing behind. -/
example :
    escapedLine (parse "'' ls 7>a 2>> | > y | wc \"b|") = "\\l\\s 3>\\a | \\w\\c \\b\\|" := by
  cbv

end CommandShell
