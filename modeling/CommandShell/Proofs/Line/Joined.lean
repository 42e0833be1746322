import Mathlib.Data.List.Permutation
import CommandShell.Proofs.Line.Cut

/-!
# Lines joined by bars

A bar behind a part of a line that ends outside quotes ends a stage, whatever the part holds and
whatever follows the bar. `parse_joined_by_bars` says that the stages of the line are those of its
parts, one part after the other.
-/

namespace CommandShell

open Quoting

/-! ## Pieces of a line -/

/-- What follows a redirection that lacks its path may be the end of the line. -/
theorem readPath_nil (target : Target) (doubled : Bool) :
    readPath target doubled [] = (.redirectTo target doubled .empty, []) := rfl

/-- A bar behind a redirection that lacks its path is not the path. -/
theorem readPath_bar (target : Target) (doubled : Bool) (rest : List Char) :
    readPath target doubled ('|' :: rest) =
      (.redirectTo target doubled .empty, '|' :: rest) := by
  rw [readPath, List.dropWhile_cons_of_neg (by decide), readWord_boundary (by decide)]
  rfl

/-- The pieces of a part that ends outside quotes are followed by the bar behind it. -/
theorem pieces_append_bar {cs : List Char} (h : Closed cs) (rest : List Char) :
    pieces (cs ++ '|' :: rest) = pieces cs ++ .bar :: pieces rest := by
  have hbar : Written.Ends ('|' :: rest) := by simp [Written.Ends]
  have hend : Written.Ends [] := by simp [Written.Ends]
  obtain ⟨ps, hps⟩ | ⟨ps, target, doubled, hps⟩ := pieces_of_ends h
  · have hcs := hps [] hend
    rw [List.append_nil, Written.pieces_nil, List.append_nil] at hcs
    rw [hps _ hbar, hcs, Written.pieces_bar]
  · have hcs := hps [] hend
    rw [List.append_nil, readPath_nil, piecesFrom, Written.pieces_nil] at hcs
    rw [hps _ hbar, hcs, readPath_bar, piecesFrom, Written.pieces_bar, List.append_assoc]
    rfl

/-! ## Stages of a line -/

/-- The stages before a bar and those behind it have nothing to do with each other. -/
theorem Stage.listOfPieces_append_bar (ps qs : List Piece) :
    listOfPieces (ps ++ .bar :: qs) = listOfPieces ps ++ listOfPieces qs := by
  rw [listOfPieces, List.splitOn_append_cons_self, List.filterMap_append]
  rfl

/-- A part that ends outside quotes is a line of its own before a bar. -/
theorem parse_append_bar {a : String} (h : Closed a.toList) (b : String) :
    parse (a ++ "|" ++ b) = parse a ++ parse b := by
  have hline : (a ++ "|" ++ b).toList = a.toList ++ '|' :: b.toList := by simp
  rw [parse, hline, pieces_append_bar h, Stage.listOfPieces_append_bar]
  rfl

/-- The stages of a line are those of its parts, if all parts but the last end outside quotes. -/
theorem parse_intercalate_bar {parts : List String} (h : ∀ a ∈ parts.dropLast, Closed a.toList) :
    parse (String.intercalate "|" parts) = parts.flatMap parse := by
  induction parts with
  | nil => simp [parse, Written.pieces_nil, Stage.listOfPieces, Stage.ofPieces?]
  | cons a parts ih =>
    cases parts with
    | nil => simp
    | cons b parts =>
      rw [List.dropLast_cons_cons, List.forall_mem_cons] at h
      rw [String.intercalate_cons_cons, parse_append_bar h.1, ih h.2, List.flatMap_cons (x := a)]

/-- A bar behind a part that ends outside quotes only separates: the stages of the line are those of
the part and then those of what follows, be it well formed or not, and so for any number of
parts. -/
theorem parse_joined_by_bars :
    (∀ a b : String, Closed a.toList → parse (a ++ "|" ++ b) = parse a ++ parse b) ∧
      ∀ parts : List String, (∀ a ∈ parts.dropLast, Closed a.toList) →
        parse (String.intercalate "|" parts) = parts.flatMap parse :=
  ⟨fun _ b h => parse_append_bar h b, fun _ h => parse_intercalate_bar h⟩

/-- A quoted bar, a digit before a bar, a part without a command, an empty part, and a last part
that leaves its quotes open. -/
theorem parse_joined_by_bars_mixed :
    let parts := ["echo 'a|b' 2", " 2> e >", "", "cat \"x|y"]
    Closed "echo 'a|b' 2".toList ∧
      parse ("echo 'a|b' 2" ++ "|" ++ "> e \\") = parse "echo 'a|b' 2" ++ parse "> e \\" ∧
      (∀ a ∈ parts.dropLast, Closed a.toList) ∧
      parse (String.intercalate "|" parts) = parts.flatMap parse ∧
      parts.flatMap parse = [⟨["echo", "a|b", "2"], []⟩, ⟨["cat", "x|y"], []⟩] := by
  intro parts
  have hfirst : Closed "echo 'a|b' 2".toList := by decide
  have hparts : ∀ a ∈ parts.dropLast, Closed a.toList := by decide
  refine ⟨hfirst, parse_joined_by_bars.1 _ _ hfirst, hparts,
    parse_joined_by_bars.2 parts hparts, ?_⟩
  cbv

end CommandShell
