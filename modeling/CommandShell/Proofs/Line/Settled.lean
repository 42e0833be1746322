import CommandShell.Proofs.Line.Joined

/-!
# Settled lines

A line that ends within quotes or with a backslash means the same as a line that does not.
`parse_settled` says which: the open quote is closed, a backslash in front of it is doubled, and a
backslash that has nothing to escape is left out.

At every place of a line there is something that says nothing if the line ends behind it, by where
the scan stands: `Quoting.idle`.
-/

namespace CommandShell

namespace Quoting

/-- What says nothing at the end of a line, by where the scan stands in front of it. -/
def idle : Quoting → List Char
  | bare => ['\\']
  | bareEscape => []
  | single => ['\'']
  | double => ['"']
  | doubleEscape => ['\\', '"']

/-- A word that ends with the line has the same text with what says nothing there. -/
theorem resume_idle (q : Quoting) :
    (q.resume []).2 = [] ∧ (q.resume q.idle).2 = [] ∧
      (q.resume q.idle).1.text = (q.resume []).1.text := by
  cases q <;> exact ⟨rfl, rfl, rfl⟩

/-- Only a backslash outside quotes escapes what follows it. -/
theorem next_eq_bareEscape {q : Quoting} {c : Char} (h : q.next c = bareEscape) :
    q = bare ∧ c = '\\' := by
  cases q <;> grind [next]

/-- What ends with an escaping backslash has a part that ends outside quotes in front of it. -/
theorem exists_of_run_eq_bareEscape {cs : List Char} (h : bare.run cs = bareEscape) :
    ∃ init, cs = init ++ ['\\'] ∧ Closed init := by
  obtain rfl | ⟨init, c, rfl⟩ := List.eq_nil_or_concat cs
  · cases h
  · rw [List.concat_eq_append, run_append] at h
    obtain ⟨hinit, rfl⟩ := next_eq_bareEscape h
    exact ⟨init, List.concat_eq_append, hinit⟩

end Quoting

open Quoting

/-! ## What says nothing at the end of a line -/

/-- A word without text at the end of a stage adds nothing to it. -/
theorem Stage.ofPieces?_append_empty (ps : List Piece) :
    ofPieces? (ps ++ [.argument ""]) = ofPieces? ps := by
  have hargument : [Piece.argument ""].filterMap Piece.argument? = [] := rfl
  have hredirection : [Piece.argument ""].filterMap Piece.redirection? = [] := rfl
  rw [ofPieces?, ofPieces?, List.filterMap_append, List.filterMap_append, hargument, hredirection,
    List.append_nil, List.append_nil]

/-- Pieces without bars make up one stage at most. -/
theorem Stage.listOfPieces_eq_toList {ps : List Piece} (h : .bar ∉ ps) :
    listOfPieces ps = (ofPieces? ps).toList := by
  rw [listOfPieces, List.splitOn_eq_singleton h]
  cases hps : ofPieces? ps <;> simp [hps]

/-- A word without text at the end adds nothing to the stages. -/
theorem Stage.listOfPieces_append_empty (ps : List Piece) :
    listOfPieces (ps ++ [.argument ""]) = listOfPieces ps := by
  have hlast {last : List Piece} (h : .bar ∉ last) :
      listOfPieces (last ++ [.argument ""]) = listOfPieces last := by
    rw [listOfPieces_eq_toList (by simpa using h), listOfPieces_eq_toList h,
      ofPieces?_append_empty]
  by_cases hbar : .bar ∈ ps
  · -- The word belongs to the stage behind the last bar.
    obtain ⟨behind, front, hps, hbehind⟩ :=
      List.eq_append_cons_of_mem (List.mem_reverse.mpr hbar)
    obtain rfl : ps = front.reverse ++ .bar :: behind.reverse := by
      simpa using congrArg List.reverse hps
    rw [List.append_assoc, List.cons_append, listOfPieces_append_bar, listOfPieces_append_bar,
      hlast (by simpa using hbehind)]
  · exact hlast hbar

/-- A word that ends with the line is an argument. -/
theorem Piece.ofWord_end (w : Word) : ofWord (w, []) = (argument (String.ofList w.text), []) :=
  ofWord_argument w (by simp)

/-- What has been begun comes to the same stages with what says nothing there. -/
theorem Begun.listOfPieces_resume_idle (begun : Begun) (done : List Piece) :
    Stage.listOfPieces (done ++ begun.resume begun.quoting.idle) =
      Stage.listOfPieces (done ++ begun.resume []) := by
  have hresume (q : Quoting) : ∃ w w' : Word, q.resume q.idle = (w, []) ∧
      q.resume [] = (w', []) ∧ w.text = w'.text := by
    obtain ⟨hend, hidle, htext⟩ := q.resume_idle
    exact ⟨_, _, Prod.ext rfl hidle, Prod.ext rfl hend, htext⟩
  cases begun with
  | nothing =>
    have hidle : nothing.resume nothing.quoting.idle = [.argument ""] := by cbv
    rw [hidle, Stage.listOfPieces_append_empty, resume, Written.pieces_nil, List.append_nil]
  | word front q =>
    obtain ⟨w, w', hw, hw', htext⟩ := hresume q
    simp only [resume, quoting, hw, hw', Prod.map_apply, id, Piece.ofWord_end, Word.append, htext]
  | arrow target =>
    have hidle : (arrow target).resume ['\\'] = (arrow target).resume [] := by cbv
    exact congrArg (fun ps => Stage.listOfPieces (done ++ ps)) hidle
  | operator target doubled =>
    have hidle : (operator target doubled).resume ['\\'] = (operator target doubled).resume [] := by
      cbv
    exact congrArg (fun ps => Stage.listOfPieces (done ++ ps)) hidle
  | path target doubled front q =>
    obtain ⟨w, w', hw, hw', htext⟩ := hresume q
    simp only [resume, quoting, hw, hw', Prod.map_apply, Function.comp_apply, Piece.redirectTo,
      Word.append, htext]

/-- What says nothing at the end of a line can be left out. -/
theorem parse_append_idle (line : String) :
    parse (line ++ String.ofList (bare.run line.toList).idle) = parse line := by
  obtain ⟨done, begun, hq, hcs⟩ := pieces_cut line.toList
  have halone := hcs []
  rw [List.append_nil] at halone
  rw [parse, parse, String.toList_append, String.toList_ofList, hcs, halone, ← hq]
  exact begun.listOfPieces_resume_idle done

/-! ## Lines that end outside quotes -/

/-- The line that closes what a line leaves open, and leaves out a backslash that has nothing to
escape. -/
def settled (line : String) : String :=
  match bare.run line.toList with
  | .bare => line
  | .bareEscape => String.ofList line.toList.dropLast
  | .single => line ++ "'"
  | .double => line ++ "\""
  | .doubleEscape => line ++ "\\\""

/-- Every line means the same as the line that closes what it leaves open: a quote is closed, a
backslash between double quotes is doubled first, and a backslash that has nothing to escape is left
out. That line ends outside quotes. -/
theorem parse_settled (line : String) :
    parse line = parse (settled line) ∧ Closed (settled line).toList := by
  have hidle := parse_append_idle line
  have hrun (text : String) :
      bare.run (line ++ text).toList = (bare.run line.toList).run text.toList := by
    rw [String.toList_append, run_append]
  rw [settled]
  cases hq : bare.run line.toList with
  | bare => exact ⟨rfl, hq⟩
  | bareEscape =>
    -- The backslash is what says nothing behind the part in front of it.
    obtain ⟨init, hinit, hclosed⟩ := exists_of_run_eq_bareEscape hq
    have hescape := parse_append_idle (String.ofList init)
    rw [String.toList_ofList, hclosed, ← String.ofList_append] at hescape
    dsimp only
    rw [hinit, List.dropLast_concat, String.toList_ofList]
    refine ⟨Eq.trans ?_ hescape, hclosed⟩
    rw [← String.ofList_toList (s := line), hinit]
    rfl
  | single =>
    rw [hq] at hidle hrun
    exact ⟨hidle.symm, hrun "'"⟩
  | double =>
    rw [hq] at hidle hrun
    exact ⟨hidle.symm, hrun "\""⟩
  | doubleEscape =>
    rw [hq] at hidle hrun
    exact ⟨hidle.symm, hrun "\\\""⟩

/-- A path that is left open behind a backslash. -/
example :
    settled "cat 2>\"a\\" = "cat 2>\"a\\\\\"" ∧
      parse "cat 2>\"a\\" = [⟨["cat"], [⟨.error, "a\\", false⟩]⟩] := by
  refine ⟨?_, ?_⟩ <;> cbv

end CommandShell
