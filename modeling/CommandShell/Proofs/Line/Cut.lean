import Mathlib.Data.List.TakeWhile
import CommandShell.Line.Quoting
import CommandShell.Proofs.Line.Written

/-!
# Lines cut in two

A line can be cut anywhere. Reading it gives the pieces that are over in front of the cut, and then
goes on with the piece that has been begun there, where the scan stands: `pieces_cut`. So what is put
in or added behind the cut matters only to the few kinds of pieces that can have been begun.
-/

namespace CommandShell

/-- The state of the scan within an enclosure. -/
def Enclosure.quoting : Enclosure → Quoting
  | bare => .bare
  | single => .single
  | double => .double

namespace Quoting

/-- A boundary leaves the scan outside quotes. -/
theorem next_bare_of_isBoundary {c : Char} (h : isBoundary c = true) : bare.next c = bare := by
  simp only [isBoundary, isBlank, Bool.or_eq_true, decide_eq_true_eq] at h
  rcases h with (((((rfl | rfl) | rfl) | rfl) | rfl) | rfl) <;> rfl

/-- A boundary in front makes no difference to where the scan comes to. -/
theorem run_boundary {c : Char} (h : isBoundary c = true) (cs : List Char) :
    bare.run (c :: cs) = bare.run cs := by
  rw [run_cons, next_bare_of_isBoundary h]

/-- Blanks in front make no difference to where the scan comes to. -/
theorem run_dropWhile_isBlank (cs : List Char) : bare.run (cs.dropWhile isBlank) = bare.run cs := by
  induction cs with
  | nil => rfl
  | cons c cs ih =>
    rw [List.dropWhile_cons]
    split
    · next hc => rw [ih, run_boundary (by simp [isBoundary, hc])]
    · rfl

/-- Reads on with a word from where the scan stands. A backslash whose successor is not known yet
is read with it. -/
def resume : Quoting → List Char → Word × List Char
  | bare, rest => readWord .bare rest
  | bareEscape, rest => readWord .bare ('\\' :: rest)
  | single, rest => readWord .single rest
  | double, rest => readWord .double rest
  | doubleEscape, rest => readWord .double ('\\' :: rest)

theorem resume_quoting (e : Enclosure) (rest : List Char) :
    e.quoting.resume rest = readWord e rest := by
  cases e <;> rfl

end Quoting

open Quoting

/-! ## Words -/

namespace Word

/-- A word that goes on with another one. -/
def append (v w : Word) : Word := ⟨v.text ++ w.text, v.quoted || w.quoted⟩

@[simp] theorem append_empty (v : Word) : v.append empty = v := by
  simp [append, empty]

theorem append_assoc (u v w : Word) : (u.append v).append w = u.append (v.append w) := by
  simp [append, Bool.or_assoc]

end Word

/-- How a word is read that stands in front of a cut, by what is behind it: it ends there, or the
rest of it is read from where the scan stands. -/
inductive WordCut (q : Quoting) (read : List Char → Word × List Char) : Prop
  | ended (w : Word) {left : List Char} :
      left ≠ [] → bare.run left = q → (∀ rest, read rest = (w, left ++ rest)) → WordCut q read
  | begun (front : Word) :
      (∀ rest, read rest = (q.resume rest).map front.append id) → WordCut q read

/-- What stands in front of a word makes no difference to how it is cut. -/
theorem WordCut.append {q : Quoting} {read read' : List Char → Word × List Char}
    (h : WordCut q read) (v : Word) (hread : ∀ rest, read' rest = (read rest).map v.append id) :
    WordCut q read' := by
  cases h with
  | ended w hne hq hw =>
    refine .ended (v.append w) hne hq fun rest => ?_
    rw [hread, hw]
    rfl
  | begun front hfront =>
    refine .begun (v.append front) fun rest => ?_
    rw [hread, hfront, Prod.map_map]
    exact congrArg (Prod.map · id _) (funext fun w => (v.append_assoc front w).symm)

/-- A word can be cut anywhere. -/
theorem readWord_cut (e : Enclosure) (cs : List Char) :
    WordCut (e.quoting.run cs) fun rest => readWord e (cs ++ rest) := by
  -- Each case goes on where its first characters take the scan.
  fun_induction readWord e cs with
  | case1 e => exact .begun .empty fun rest => (resume_quoting e rest).symm
  | case2 c cs hc =>
    exact .ended .empty (List.cons_ne_nil c cs) rfl fun rest => readWord_boundary hc (cs ++ rest)
  | case3 cs hc ih => exact ih.append ⟨[], true⟩ fun rest => readWord_openSingle (cs ++ rest)
  | case4 cs hc hs ih => exact ih.append ⟨[], true⟩ fun rest => readWord_openDouble (cs ++ rest)
  | case5 => exact .begun .empty fun rest => rfl
  | case6 d ds hc hs hd ih =>
    exact ih.append ⟨[d], true⟩ fun rest => readWord_escaped d (ds ++ rest)
  | case7 c cs hc hs hd he ih =>
    have hq : bare.next c = bare := by simp [next, hs, hd, he]
    rw [Enclosure.quoting, run_cons, hq]
    exact ih.append ⟨[c], false⟩ fun rest =>
      readWord_plain (by simpa using hc) hs hd he (cs ++ rest)
  | case8 cs ih => exact ih.append .empty fun rest => readWord_closeSingle (cs ++ rest)
  | case9 c cs hs ih =>
    have hq : single.next c = single := by simp [next, hs]
    rw [Enclosure.quoting, run_cons, hq]
    exact ih.append ⟨[c], false⟩ fun rest => readWord_single_plain hs (cs ++ rest)
  | case10 cs ih => exact ih.append .empty fun rest => readWord_closeDouble (cs ++ rest)
  | case11 => exact .begun .empty fun rest => rfl
  | case12 d ds hd hq ih =>
    exact ih.append ⟨[d], false⟩ fun rest => readWord_double_escaped hd (ds ++ rest)
  | case13 d ds hd hq ih =>
    simp only [not_or] at hd
    exact ih.append ⟨['\\', d], false⟩ fun rest =>
      readWord_double_backslash hd.1 hd.2 (ds ++ rest)
  | case14 c cs hd he ih =>
    have hq : double.next c = double := by simp [next, hd, he]
    rw [Enclosure.quoting, run_cons, hq]
    exact ih.append ⟨[c], false⟩ fun rest => readWord_double_plain hd he (cs ++ rest)

/-! ## Pieces -/

/-- The redirection to the path that a word stands for. -/
def Piece.redirectTo (target : Target) (doubled : Bool) (w : Word) : Piece :=
  .redirect ⟨target, String.ofList w.text, doubled⟩

/-- Reads the path of a redirection, behind the operator. -/
def readPath (target : Target) (doubled : Bool) (cs : List Char) : Piece × List Char :=
  (readWord .bare (cs.dropWhile isBlank)).map (Piece.redirectTo target doubled) id

theorem readRedirect_of_head? (target : Target) {cs : List Char} (h : cs.head? ≠ some '>') :
    readRedirect target cs = readPath target false cs := by
  simp only [readRedirect, h, if_false]
  rfl

/-- Blanks in front of a path say nothing. -/
theorem readPath_append {blanks : List Char} (h : ∀ b ∈ blanks, isBlank b) (target : Target)
    (doubled : Bool) (rest : List Char) :
    readPath target doubled (blanks ++ rest) = readPath target doubled rest := by
  rw [readPath, readPath, List.dropWhile_append_of_pos h]

/-- The piece that a word starts, by the word and what is left behind it. -/
def Piece.ofWord (read : Word × List Char) : Piece × List Char :=
  match read.2, read.1.descriptor? with
  | '>' :: rest, some target => readRedirect target rest
  | rest, _ => (.argument (String.ofList read.1.text), rest)

/-- What starts with no bar and no `>` starts with a word. -/
theorem readPiece_eq_ofWord {c : Char} (hbar : c ≠ '|') (harrow : c ≠ '>') (cs : List Char) :
    readPiece c cs = Piece.ofWord (readWord .bare (c :: cs)) := by
  rw [readPiece, if_neg hbar, if_neg harrow]
  rfl

/-- A word that no `>` follows is an argument. -/
theorem Piece.ofWord_argument (w : Word) {left : List Char} (h : left.head? ≠ some '>') :
    ofWord (w, left) = (argument (String.ofList w.text), left) := by
  rw [ofWord]
  split
  · next hleft _ =>
    simp only at hleft
    simp [hleft] at h
  · rfl

/-- A piece that has been read, and the pieces of what it leaves. -/
def piecesFrom (read : Piece × List Char) : List Piece := read.1 :: pieces read.2

/-- What has been begun in front of a cut. -/
inductive Begun
  /-- No piece has been begun. -/
  | nothing
  /-- A word has been begun. -/
  | word (front : Word) (q : Quoting)
  /-- A redirection has been begun, whose `>` may still be doubled. -/
  | arrow (target : Target)
  /-- A redirection has been begun, whose path is still to come. -/
  | operator (target : Target) (doubled : Bool)
  /-- The path of a redirection has been begun. -/
  | path (target : Target) (doubled : Bool) (front : Word) (q : Quoting)

namespace Begun

/-- Where the scan stands. -/
def quoting : Begun → Quoting
  | word _ q => q
  | path _ _ _ q => q
  | _ => .bare

/-- The pieces that are read from there on. -/
def resume : Begun → List Char → List Piece
  | nothing, rest => pieces rest
  | word front q, rest => piecesFrom (Piece.ofWord ((q.resume rest).map front.append id))
  | arrow target, rest => piecesFrom (readRedirect target rest)
  | operator target doubled, rest => piecesFrom (readPath target doubled rest)
  | path target doubled front q, rest =>
    piecesFrom ((q.resume rest).map (Piece.redirectTo target doubled ∘ front.append) id)

end Begun

/-- How a piece is read that stands in front of a cut, by what is behind it: it ends there, or it has
only been begun. -/
inductive PieceCut (q : Quoting) (read : List Char → Piece × List Char) : Prop
  | ended (p : Piece) {left : List Char} :
      bare.run left = q → (∀ rest, read rest = (p, left ++ rest)) → PieceCut q read
  | begun (begun : Begun) :
      begun.quoting = q → (∀ rest, piecesFrom (read rest) = begun.resume rest) → PieceCut q read

/-- The path of a redirection can be cut anywhere, and so can the blanks in front of it. -/
theorem readPath_cut (target : Target) (doubled : Bool) (cs : List Char) :
    PieceCut (bare.run cs) fun rest => readPath target doubled (cs ++ rest) := by
  rw [← run_dropWhile_isBlank]
  rcases hcs : cs.dropWhile isBlank with _ | ⟨c, body⟩
  · have hblank : ∀ b ∈ cs, isBlank b := List.dropWhile_eq_nil_iff.mp hcs
    exact .begun (.operator target doubled) rfl fun rest =>
      congrArg piecesFrom (readPath_append hblank target doubled rest)
  · have hdrop (rest : List Char) : (cs ++ rest).dropWhile isBlank = c :: body ++ rest := by
      rw [List.dropWhile_append, hcs]
      rfl
    have hread (rest : List Char) : readPath target doubled (cs ++ rest) =
        (readWord .bare (c :: body ++ rest)).map (Piece.redirectTo target doubled) id := by
      rw [readPath, hdrop]
    cases readWord_cut .bare (c :: body) with
    | ended w _ hq hw =>
      refine .ended (Piece.redirectTo target doubled w) hq fun rest => ?_
      rw [hread, hw]
      rfl
    | begun front hfront =>
      refine .begun (.path target doubled front _) rfl fun rest => ?_
      rw [hread, hfront, Prod.map_map]
      rfl

/-- A redirection can be cut anywhere behind its first `>`. -/
theorem readRedirect_cut (target : Target) (cs : List Char) :
    PieceCut (bare.run cs) fun rest => readRedirect target (cs ++ rest) := by
  cases cs with
  | nil => exact .begun (.arrow target) rfl fun rest => rfl
  | cons c body =>
    by_cases hc : c = '>'
    · subst hc
      exact readPath_cut target true body
    · have hread : (fun rest => readRedirect target (c :: body ++ rest)) =
          fun rest => readPath target false (c :: body ++ rest) := by
        funext rest
        exact readRedirect_of_head? target (by simpa using hc)
      rw [hread]
      exact readPath_cut target false (c :: body)

/-- A piece can be cut anywhere. -/
theorem readPiece_cut (c : Char) (cs : List Char) :
    PieceCut (bare.run (c :: cs)) fun rest => readPiece c (cs ++ rest) := by
  by_cases hbar : c = '|'
  · subst hbar
    exact @PieceCut.ended _ _ .bar cs rfl fun rest => rfl
  by_cases harrow : c = '>'
  · subst harrow
    exact readRedirect_cut .output cs
  have hread (rest : List Char) :
      readPiece c (cs ++ rest) = Piece.ofWord (readWord .bare (c :: cs ++ rest)) :=
    readPiece_eq_ofWord hbar harrow (cs ++ rest)
  simp only [hread]
  have hcut : WordCut (bare.run (c :: cs)) fun rest => readWord .bare (c :: cs ++ rest) :=
    readWord_cut .bare (c :: cs)
  cases hcut with
  | begun front hfront =>
    exact .begun (.word front _) rfl fun rest =>
      congrArg (fun read => piecesFrom (Piece.ofWord read)) (hfront rest)
  | @ended w left hne hq hw =>
    obtain ⟨d, left, rfl⟩ := List.exists_cons_of_ne_nil hne
    simp only [hw]
    by_cases hd : d = '>'
    · subst hd
      -- What stands in front of the `>` may be the digit of a redirection.
      rcases hdescriptor : w.descriptor? with _ | target
      · refine .ended (.argument (String.ofList w.text)) hq fun rest => ?_
        simp only [Piece.ofWord, List.cons_append, hdescriptor]
      · have hredirect := readRedirect_cut target left
        rw [← run_boundary (c := '>') rfl, hq] at hredirect
        simpa only [Piece.ofWord, List.cons_append, hdescriptor] using hredirect
    · exact .ended (.argument (String.ofList w.text)) hq fun rest =>
        Piece.ofWord_argument w (by simpa using hd)

/-- Blanks in front of a line hold no pieces. -/
theorem pieces_dropWhile_isBlank (cs : List Char) : pieces (cs.dropWhile isBlank) = pieces cs := by
  have hblank : ∀ b ∈ cs.takeWhile isBlank, isBlank b := fun _ hb => List.mem_takeWhile_imp hb
  rw [← Written.pieces_append hblank, List.takeWhile_append_dropWhile]

/-- A line can be cut anywhere: its pieces are those that are over in front of the cut, and those that
are read with what has been begun there. -/
theorem pieces_cut (cs : List Char) : ∃ (done : List Piece) (begun : Begun),
    begun.quoting = bare.run cs ∧ ∀ rest, pieces (cs ++ rest) = done ++ begun.resume rest := by
  fun_induction pieces cs with
  | case1 cs hcs =>
    have hblank : ∀ b ∈ cs, isBlank b := List.dropWhile_eq_nil_iff.mp hcs
    refine ⟨[], .nothing, ?_, fun rest => Written.pieces_append hblank rest⟩
    rw [← run_dropWhile_isBlank, hcs]
    rfl
  | case2 cs c left hcs ih =>
    have hpieces (rest : List Char) :
        pieces (cs ++ rest) = piecesFrom (readPiece c (left ++ rest)) := by
      have hdrop : (cs ++ rest).dropWhile isBlank = c :: (left ++ rest) := by
        rw [List.dropWhile_append, hcs]
        rfl
      rw [← pieces_dropWhile_isBlank, hdrop,
        Written.pieces_cons (isBlank_of_dropWhile_eq_cons hcs), piecesFrom]
    rw [← run_dropWhile_isBlank, hcs]
    cases readPiece_cut c left with
    | ended p hq hp =>
      have hleft := hp []
      simp only [List.append_nil] at hleft
      rw [hleft] at ih
      obtain ⟨done, begun, hbegun, hrest⟩ := ih
      refine ⟨p :: done, begun, hbegun.trans hq, fun rest => ?_⟩
      rw [hpieces, hp, piecesFrom, hrest, List.cons_append]
    | begun begun hq hbegun =>
      exact ⟨[], begun, hq, fun rest => (hpieces rest).trans (hbegun rest)⟩

/-! ## Outside quotes -/

/-- No word starts where a word must end. -/
theorem readWord_of_stops {rest : List Char} (h : Written.Stops rest) :
    readWord .bare rest = (.empty, rest) := by
  cases rest with
  | nil => rfl
  | cons c rest => exact readWord_boundary (h c rfl) rest

/-- A blank, a bar or the end of the line is no `>`. -/
theorem head?_ne_of_ends {rest : List Char} (h : Written.Ends rest) : rest.head? ≠ some '>' := by
  intro hhead
  have := h '>' hhead
  simp [isBlank] at this

/-- Outside quotes, what has been begun ends before a blank, a bar or the end of the line, unless it
is a redirection whose path is still to come. -/
theorem Begun.resume_of_ends {begun : Begun} (hq : begun.quoting = .bare) :
    (∃ ps, ∀ rest, Written.Ends rest → begun.resume rest = ps ++ pieces rest) ∨
      ∃ target doubled, ∀ rest, Written.Ends rest →
        begun.resume rest = piecesFrom (readPath target doubled rest) := by
  have hword {rest : List Char} (h : Written.Ends rest) : bare.resume rest = (.empty, rest) :=
    readWord_of_stops h.stops
  cases begun with
  | nothing => exact .inl ⟨[], fun rest _ => rfl⟩
  | word front q =>
    obtain rfl : q = .bare := hq
    refine .inl ⟨[.argument (String.ofList front.text)], fun rest h => ?_⟩
    rw [resume, hword h, Prod.map_apply, Word.append_empty, id,
      Piece.ofWord_argument front (head?_ne_of_ends h)]
    rfl
  | arrow target =>
    refine .inr ⟨target, false, fun rest h => ?_⟩
    rw [resume, readRedirect_of_head? target (head?_ne_of_ends h)]
  | operator target doubled => exact .inr ⟨target, doubled, fun rest _ => rfl⟩
  | path target doubled front q =>
    obtain rfl : q = .bare := hq
    refine .inl ⟨[.redirectTo target doubled front], fun rest h => ?_⟩
    rw [resume, hword h, Prod.map_apply, Function.comp_apply, Word.append_empty]
    rfl

/-- Behind a part that ends outside quotes, a blank, a bar or the end of the line ends the last
piece, unless it is a redirection whose path is still to come. -/
theorem pieces_of_ends {cs : List Char} (h : Closed cs) :
    (∃ ps, ∀ rest, Written.Ends rest → pieces (cs ++ rest) = ps ++ pieces rest) ∨
      ∃ ps target doubled, ∀ rest, Written.Ends rest →
        pieces (cs ++ rest) = ps ++ piecesFrom (readPath target doubled rest) := by
  obtain ⟨done, begun, hq, hcs⟩ := pieces_cut cs
  obtain ⟨ps, hps⟩ | ⟨target, doubled, hpath⟩ := begun.resume_of_ends (hq.trans h)
  · exact .inl ⟨done ++ ps, fun rest hr => by rw [hcs, hps rest hr, List.append_assoc]⟩
  · exact .inr ⟨done, target, doubled, fun rest hr => by rw [hcs, hpath rest hr]⟩

end CommandShell
