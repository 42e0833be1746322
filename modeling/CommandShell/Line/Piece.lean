import CommandShell.Line.Word

/-!
# Pieces of a line

A line is cut into pieces: arguments, redirections and the bars between stages. `parse` collects the
pieces between bars into stages, leaving out empty arguments, redirections without a file name and
stages without a command, and `notices` tells which redirections were left out. No line is refused.
-/

namespace CommandShell

/-- What stands on a line between blanks. -/
inductive Piece
  /-- A word, possibly empty. -/
  | argument (text : String)
  /-- A redirection, whose path may be missing. -/
  | redirect (redirection : Redirection)
  /-- The bar between two stages. -/
  | bar
  deriving DecidableEq

/-- Reads what follows the `>` of a redirection: a second one, blanks, and the path. -/
def readRedirect (target : Target) (cs : List Char) : Piece × List Char :=
  let doubled := cs.head? = some '>'
  let path := readWord .bare ((if doubled then cs.tail else cs).dropWhile isBlank)
  (.redirect ⟨target, String.ofList path.1.text, doubled⟩, path.2)

/-- Reads a piece off the front of a line that starts with no blank. -/
def readPiece (c : Char) (cs : List Char) : Piece × List Char :=
  if c = '|' then (.bar, cs)
  else if c = '>' then readRedirect .output cs
  else
    let word := readWord .bare (c :: cs)
    match word.2, word.1.descriptor? with
    | '>' :: rest, some target => readRedirect target rest
    | rest, _ => (.argument (String.ofList word.1.text), rest)

/-- Reading the rest of a redirection never lengthens the line. -/
theorem length_readRedirect_le (target : Target) (cs : List Char) :
    (readRedirect target cs).2.length ≤ cs.length := by
  refine Nat.le_trans (length_readWord_le _ _) ?_
  refine Nat.le_trans (List.dropWhile_sublist _).length_le ?_
  split <;> simp

/-- A piece takes at least one character. -/
theorem length_readPiece_lt {c : Char} (h : isBlank c = false) (cs : List Char) :
    (readPiece c cs).2.length < (c :: cs).length := by
  unfold readPiece
  split
  · simp
  split
  · exact Nat.lt_succ_of_le (length_readRedirect_le _ _)
  · rename_i hbar harrow
    have hlt := length_readWord_cons_lt (c := c) (by simp [isBoundary, h, hbar, harrow]) cs
    simp only
    split
    · rename_i rest target hrest _
      rw [hrest] at hlt
      have := length_readRedirect_le target rest
      simp only [List.length_cons] at hlt ⊢
      omega
    · exact hlt

/-- What a line starts with after its leading blanks is no blank. -/
theorem isBlank_of_dropWhile_eq_cons {cs rest : List Char} {c : Char}
    (h : cs.dropWhile isBlank = c :: rest) : isBlank c = false := by
  have := List.head?_dropWhile_not isBlank cs
  rw [h] at this
  simpa using this

/-- The pieces of a line. -/
def pieces (cs : List Char) : List Piece :=
  match _h : cs.dropWhile isBlank with
  | [] => []
  | c :: rest => (readPiece c rest).1 :: pieces (readPiece c rest).2
termination_by cs.length
decreasing_by
  have hle := (List.dropWhile_sublist isBlank (l := cs)).length_le
  have hlt := length_readPiece_lt (isBlank_of_dropWhile_eq_cons _h) rest
  rw [_h] at hle
  omega

namespace Piece

/-- The argument that a piece adds to its stage. -/
def argument? : Piece → Option String
  | argument text => if text = "" then none else some text
  | _ => none

/-- The redirection that a piece adds to its stage. -/
def redirection? : Piece → Option Redirection
  | redirect r => if r.path = "" then none else some r
  | _ => none

/-- The stream of a redirection whose path is missing. -/
def missingPath? : Piece → Option Target
  | redirect r => if r.path = "" then some r.target else none
  | _ => none

end Piece

/-- The stage that pieces without bars make up, if they hold a command. -/
def Stage.ofPieces? (ps : List Piece) : Option Stage :=
  match ps.filterMap Piece.argument? with
  | [] => none
  | arguments => some ⟨arguments, ps.filterMap Piece.redirection?⟩

/-- The stages that pieces make up. -/
def Stage.listOfPieces (ps : List Piece) : List Stage :=
  (ps.splitOn .bar).filterMap Stage.ofPieces?

/-- The stages of a line, in the order of the pipe. -/
def parse (line : String) : List Stage := Stage.listOfPieces (pieces line.toList)

/-- What is worth telling about a line that was not taken literally. -/
inductive LineNotice
  /-- A redirection has no file name. -/
  | missingPath (target : Target)
  /-- A stage has redirections and no command. -/
  | missingCommand
  deriving DecidableEq

/-- What is worth telling about one stage. -/
def LineNotice.ofPieces (ps : List Piece) : List LineNotice :=
  (ps.filterMap Piece.missingPath?).map .missingPath ++
    if (ps.filterMap Piece.argument?).isEmpty && !(ps.filterMap Piece.redirection?).isEmpty then
      [.missingCommand]
    else []

/-- What is worth telling about a line, in the order of the line. -/
def notices (line : String) : List LineNotice :=
  ((pieces line.toList).splitOn .bar).flatMap LineNotice.ofPieces

end CommandShell
