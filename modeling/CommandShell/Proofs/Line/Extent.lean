import Mathlib
import CommandShell.Proofs.Line.Places

/-!
# Extent of words

Reading a word takes a backslash together with the character behind it. `readWord_eq_scan` says that
it comes to the same as scanning one character at a time, so that a word ends where the scan first
stands outside quotes in front of a boundary, and nowhere before.

A line is read in rounds, each of which passes over blanks and reads a piece. `reading_ends` says
where a word ends and what it is, and that the rounds go on until nothing of the line is left.
-/

namespace CommandShell

/-! ## Words, one character at a time -/

namespace Quoting

instance (q : Quoting) (c : Char) : Decidable (q.Separates c) := inferInstanceAs (Decidable (_ ∧ _))

/-- Whether a character makes its word a quoted one where the scan stands: outside quotes, a quote
and a backslash do. -/
def Marks (q : Quoting) (c : Char) : Prop := q = bare ∧ (c = '\'' ∨ c = '"' ∨ c = '\\')

instance (q : Quoting) (c : Char) : Decidable (q.Marks c) := inferInstanceAs (Decidable (_ ∧ _))

/-- Reads on with a word from where the scan stands, one character at a time. -/
def scan : Quoting → List Char → Word × List Char
  | q, [] => (⟨q.rest, false⟩, [])
  | q, c :: cs =>
    if q.Separates c then (.empty, c :: cs)
    else ((q.next c).scan cs).map (Word.append ⟨q.emits c, q.Marks c⟩) id

/-- The scan goes over every character that does not separate. -/
theorem scan_cons {q : Quoting} {c : Char} (h : ¬q.Separates c) (cs : List Char) :
    q.scan (c :: cs) = ((q.next c).scan cs).map (Word.append ⟨q.emits c, q.Marks c⟩) id :=
  if_neg h

/-- Behind a backslash and within quotes, the scan goes over every character. -/
theorem scan_cons_of_ne {q : Quoting} (h : q ≠ bare) (c : Char) (cs : List Char) :
    q.scan (c :: cs) = ((q.next c).scan cs).map (Word.append ⟨q.emits c, false⟩) id := by
  rw [scan_cons fun hsep => h hsep.1, decide_eq_false fun hmarks => h hmarks.1]

/-- A character that leads behind a backslash or into quotes is scanned with its successor. -/
theorem scan_cons_cons {q : Quoting} {c : Char} (hsep : ¬q.Separates c) (hnext : q.next c ≠ bare)
    (d : Char) (cs : List Char) :
    q.scan (c :: d :: cs) = (((q.next c).next d).scan cs).map
      (Word.append ⟨q.emits c ++ (q.next c).emits d, q.Marks c⟩) id := by
  have hfront : (⟨q.emits c, q.Marks c⟩ : Word).append ⟨(q.next c).emits d, false⟩ =
      ⟨q.emits c ++ (q.next c).emits d, q.Marks c⟩ := by
    simp [Word.append]
  rw [scan_cons hsep, scan_cons_of_ne hnext, Prod.map_map, ← hfront]
  exact congrArg (Prod.map · id _) (funext fun w => (Word.append_assoc _ _ w).symm)

end Quoting

open Quoting

/-- A word is what the scan makes of it one character at a time. -/
theorem readWord_eq_scan (e : Enclosure) (cs : List Char) : readWord e cs = e.quoting.scan cs := by
  -- Where reading takes two characters, the scan takes two steps.
  fun_induction readWord e cs with
  | case1 e => cases e <;> rfl
  | case2 c cs hc => exact (if_pos ⟨rfl, hc⟩).symm
  | case3 cs hc ih => rw [ih]; rfl
  | case4 cs hc hs ih => rw [ih]; rfl
  | case5 => rfl
  | case6 d ds hc hs hd ih =>
    rw [ih, Enclosure.quoting, scan_cons_cons (by decide) (by decide)]
    rfl
  | case7 c cs hc hs hd he ih =>
    have hnext : bare.next c = bare := by simp [next, hs, hd, he]
    have hemits : bare.emits c = [c] := by simp [emits, hs, hd, he]
    have hmarks : ¬bare.Marks c := by simp [Marks, hs, hd, he]
    rw [ih, Enclosure.quoting, scan_cons fun hsep => hc hsep.2, hnext, hemits,
      decide_eq_false hmarks]
    rfl
  | case8 cs ih => rw [ih]; rfl
  | case9 c cs hs ih =>
    have hnext : single.next c = single := by simp [next, hs]
    have hemits : single.emits c = [c] := by simp [emits, hs]
    rw [ih, Enclosure.quoting, scan_cons_of_ne (by decide), hnext, hemits]
    rfl
  | case10 cs ih => rw [ih]; rfl
  | case11 => rfl
  | case12 d ds hd hq ih =>
    have hemits : (double.next '\\').emits d = [d] := if_pos hd.symm
    rw [ih, Enclosure.quoting, scan_cons_cons (by decide) (by decide), hemits]
    rfl
  | case13 d ds hd hq ih =>
    have hemits : (double.next '\\').emits d = ['\\', d] := if_neg fun h => hd h.symm
    rw [ih, Enclosure.quoting, scan_cons_cons (by decide) (by decide), hemits]
    rfl
  | case14 c cs hd he ih =>
    have hnext : double.next c = double := by simp [next, hd, he]
    have hemits : double.emits c = [c] := by simp [emits, hd, he]
    rw [ih, Enclosure.quoting, scan_cons_of_ne (by decide), hnext, hemits]
    rfl

/-! ## Where the scan stops -/

namespace Quoting

/-- How many characters the scan goes over. -/
def reach : Quoting → List Char → Nat
  | _, [] => 0
  | q, c :: cs => if q.Separates c then 0 else (q.next c).reach cs + 1

/-- Whether the character at a place makes its word a quoted one, if the scan of the line starts at
a state. -/
def MarksAt (q : Quoting) (cs : List Char) (i : Nat) : Prop :=
  ∃ c, cs[i]? = some c ∧ (q.run (cs.take i)).Marks c

variable {q : Quoting} {c : Char} {cs : List Char}

theorem marksAt_zero : q.MarksAt (c :: cs) 0 ↔ q.Marks c := by
  simp [MarksAt]

theorem marksAt_succ {i : Nat} : q.MarksAt (c :: cs) (i + 1) ↔ (q.next c).MarksAt cs i := by
  simp [MarksAt]

theorem reach_cons (h : ¬q.Separates c) : q.reach (c :: cs) = (q.next c).reach cs + 1 := if_neg h

theorem reach_le (q : Quoting) (cs : List Char) : q.reach cs ≤ cs.length := by
  fun_induction reach q cs with
  | case1 => exact Nat.le_refl 0
  | case2 => exact Nat.zero_le _
  | case3 q c cs h ih => exact Nat.succ_le_succ ih

/-- The scan goes over no character that separates. -/
theorem not_separatesAt_of_lt_reach {i : Nat} (hi : i < q.reach cs) : ¬q.SeparatesAt cs i := by
  fun_induction reach q cs generalizing i with
  | case1 => exact absurd hi (Nat.not_lt_zero i)
  | case2 => exact absurd hi (Nat.not_lt_zero i)
  | case3 q c cs h ih =>
    cases i with
    | zero => rwa [separatesAt_zero]
    | succ i =>
      rw [separatesAt_succ]
      exact ih (Nat.lt_of_succ_lt_succ hi)

/-- No character separates behind the end of a line. -/
theorem not_separatesAt_of_le {i : Nat} (h : cs.length ≤ i) : ¬q.SeparatesAt cs i := by
  rintro ⟨c, hc, -⟩
  rw [List.getElem?_eq_none h] at hc
  cases hc

/-- The scan stops in front of a character that separates or at the end of the line. -/
theorem separatesAt_reach (q : Quoting) (cs : List Char) :
    q.SeparatesAt cs (q.reach cs) ∨ q.reach cs = cs.length := by
  fun_induction reach q cs with
  | case1 => exact .inr rfl
  | case2 q c cs h => exact .inl (separatesAt_zero.mpr h)
  | case3 q c cs h ih =>
    rw [separatesAt_succ, List.length_cons, Nat.succ_inj]
    exact ih

/-- The scan stops at the first place where a character separates, or at the end of the line if
there is none. -/
theorem reach_ends (q : Quoting) (cs : List Char) :
    IsLeast {i | q.SeparatesAt cs i} (q.reach cs) ∨
      q.reach cs = cs.length ∧ ∀ i, ¬q.SeparatesAt cs i := by
  obtain hsep | hend := q.separatesAt_reach cs
  · refine .inl ⟨hsep, fun i hi => ?_⟩
    by_contra hlt
    exact not_separatesAt_of_lt_reach (Nat.lt_of_not_le hlt) hi
  · refine .inr ⟨hend, fun i => ?_⟩
    obtain hlt | hle := Nat.lt_or_ge i cs.length
    · exact not_separatesAt_of_lt_reach (hend ▸ hlt)
    · exact not_separatesAt_of_le hle

/-- The scan leaves what it does not go over. -/
theorem scan_left (q : Quoting) (cs : List Char) : (q.scan cs).2 = cs.drop (q.reach cs) := by
  fun_induction reach q cs with
  | case1 => rfl
  | case2 q c cs h => rw [scan, if_pos h, List.drop_zero]
  | case3 q c cs h ih => rw [scan_cons h, List.drop_succ_cons, ← ih, Prod.map_snd, id]

/-- The scan makes up the text from what it goes over. -/
theorem scan_text (q : Quoting) (cs : List Char) :
    (q.scan cs).1.text =
      q.output (cs.take (q.reach cs)) ++ (q.run (cs.take (q.reach cs))).rest := by
  fun_induction reach q cs with
  | case1 => rfl
  | case2 q c cs h =>
    -- The scan stops outside quotes, where nothing is added.
    obtain ⟨rfl, -⟩ := id h
    rw [scan, if_pos h]
    rfl
  | case3 q c cs h ih =>
    rw [scan_cons h, List.take_succ_cons, output, run_cons, List.append_assoc, ← ih]
    rfl

/-- The scan marks the word if it goes over a character that does. -/
theorem scan_quoted (q : Quoting) (cs : List Char) :
    (q.scan cs).1.quoted = true ↔ ∃ i < q.reach cs, q.MarksAt cs i := by
  fun_induction reach q cs with
  | case1 => simp [scan]
  | case2 q c cs h => simp [scan, h, Word.empty]
  | case3 q c cs h ih =>
    rw [Nat.exists_lt_succ_left, marksAt_zero]
    simp only [marksAt_succ, ← ih, scan_cons h, Prod.map_fst, Word.append, Bool.or_eq_true,
      decide_eq_true_eq]

end Quoting

/-- How a word stands in a line, from the place where it starts up to the place where it ends. -/
structure Word.Spans (cs : List Char) (p q : Nat) (w : Word) : Prop where
  lt : p < q
  le : q ≤ cs.length
  /-- It ends at the first place where a boundary stands outside quotes, or with the line if there
  is none. -/
  ends : IsLeast {i | p < i ∧ bare.SeparatesAt (cs.drop p) (i - p)} q ∨
    q = cs.length ∧ ∀ i, p < i → ¬bare.SeparatesAt (cs.drop p) (i - p)
  /-- Its text is what the scan emits between the places. -/
  text_eq : w.text = bare.output (cs.extract p q) ++ (bare.run (cs.extract p q)).rest
  /-- It is a quoted one just if a quote or a backslash stands outside quotes between the places. -/
  quoted_iff : w.quoted = true ↔ ∃ i, p ≤ i ∧ i < q ∧ bare.MarksAt (cs.drop p) (i - p)

/-- What the scan makes of the characters that it goes over is a word that spans them. -/
theorem spans_scan {cs : List Char} {p : Nat} (hpos : 0 < bare.reach (cs.drop p)) :
    (bare.scan (cs.drop p)).1.Spans cs p (p + bare.reach (cs.drop p)) where
  lt := Nat.lt_add_of_pos_right hpos
  le := by
    have hle := bare.reach_le (cs.drop p)
    rw [List.length_drop] at hle
    omega
  ends := by
    have hlength : (cs.drop p).length = cs.length - p := List.length_drop
    obtain ⟨hsep, hleast⟩ | ⟨hend, hnone⟩ := bare.reach_ends (cs.drop p)
    · refine .inl ⟨⟨Nat.lt_add_of_pos_right hpos, ?_⟩, fun i hi => ?_⟩
      · rwa [Nat.add_sub_cancel_left]
      · have hle : bare.reach (cs.drop p) ≤ i - p := hleast hi.2
        omega
    · exact .inr ⟨by omega, fun i _ => hnone (i - p)⟩
  text_eq := by
    rw [List.extract_eq_take_drop, Nat.add_sub_cancel_left]
    exact scan_text bare _
  quoted_iff := by
    rw [scan_quoted]
    constructor
    · rintro ⟨i, hi, hmarks⟩
      refine ⟨p + i, Nat.le_add_right p i, Nat.add_lt_add_left hi p, ?_⟩
      rwa [Nat.add_sub_cancel_left]
    · rintro ⟨i, hle, hi, hmarks⟩
      exact ⟨i - p, by omega, hmarks⟩

/-- A word that starts with no boundary ends where the scan stops. -/
theorem readWord_spans {cs : List Char} {p : Nat} {c : Char} (hc : cs[p]? = some c)
    (hb : isBoundary c = false) :
    ∃ q, (readWord .bare (cs.drop p)).1.Spans cs p q ∧
      (readWord .bare (cs.drop p)).2 = cs.drop q := by
  obtain ⟨hp, hget⟩ := List.getElem?_eq_some_iff.mp hc
  have hsep : ¬bare.Separates c := fun h => Bool.false_ne_true (hb.symm.trans h.2)
  have hpos : 0 < bare.reach (cs.drop p) := by
    rw [List.drop_eq_getElem_cons hp, hget, reach_cons hsep]
    exact Nat.succ_pos _
  have hscan : readWord .bare (cs.drop p) = bare.scan (cs.drop p) := readWord_eq_scan .bare _
  rw [hscan]
  exact ⟨_, spans_scan hpos, by rw [scan_left, List.drop_drop]⟩

/-! ## Rounds over a line -/

/-- What a word leaves is an end of the line. -/
theorem readWord_suffix (e : Enclosure) (cs : List Char) : (readWord e cs).2 <:+ cs := by
  rw [readWord_eq_scan, scan_left]
  exact List.drop_suffix _ cs

/-- What a redirection leaves is an end of the line. -/
theorem readRedirect_suffix (target : Target) (cs : List Char) :
    (readRedirect target cs).2 <:+ cs := by
  refine (readWord_suffix .bare _).trans ((List.dropWhile_suffix isBlank).trans ?_)
  split
  · exact List.tail_suffix cs
  · exact List.suffix_refl cs

/-- What a piece leaves is an end of the line. -/
theorem readPiece_suffix (c : Char) (cs : List Char) : (readPiece c cs).2 <:+ c :: cs := by
  by_cases hbar : c = '|'
  · rw [readPiece, if_pos hbar]
    exact List.suffix_cons c cs
  by_cases harrow : c = '>'
  · rw [readPiece, if_neg hbar, if_pos harrow]
    exact (readRedirect_suffix .output cs).trans (List.suffix_cons c cs)
  rw [readPiece_eq_ofWord hbar harrow]
  have hword : (readWord .bare (c :: cs)).2 <:+ c :: cs := readWord_suffix .bare _
  generalize readWord .bare (c :: cs) = word at hword
  rw [Piece.ofWord]
  split
  · next rest target hleft _ =>
    rw [hleft] at hword
    exact (readRedirect_suffix target rest).trans ((List.suffix_cons '>' rest).trans hword)
  · exact hword

/-- A pass over a line: the place it has come to, and the pieces in front of it. -/
structure Pass where
  place : Nat
  pieces : List Piece

namespace Pass

/-- The pass that is still to begin. -/
def start : Pass := ⟨0, []⟩

/-- The place behind the blanks that a pass has come to. -/
def pastBlanks (cs : List Char) (s : Pass) : Nat :=
  s.place + (cs.drop s.place).findIdx fun c => !isBlank c

/-- One round: blanks are passed over and a piece is read, unless the line is at its end. -/
def round? (cs : List Char) (s : Pass) : Option Pass :=
  match cs.drop (s.pastBlanks cs) with
  | [] => none
  | c :: rest =>
    let read := readPiece c rest
    some ⟨cs.length - read.2.length, s.pieces ++ [read.1]⟩

/-- Whether rounds lead from one place of a line to another. -/
def Reaches (cs : List Char) : Pass → Pass → Prop :=
  Relation.ReflTransGen fun s t => s.round? cs = some t

variable {cs : List Char} {s t : Pass}

theorem drop_pastBlanks (cs : List Char) (s : Pass) :
    cs.drop (s.pastBlanks cs) = (cs.drop s.place).dropWhile isBlank := by
  rw [pastBlanks, ← List.drop_drop, List.dropWhile_eq_drop_findIdx_not]

theorem pastBlanks_le (h : s.place ≤ cs.length) : s.pastBlanks cs ≤ cs.length := by
  have hle := @List.findIdx_le_length _ (fun c => !isBlank c) (cs.drop s.place)
  rw [List.length_drop] at hle
  rw [pastBlanks]
  omega

/-- What a round does: behind the blanks it reads a piece, and comes to what that leaves. -/
theorem exists_of_round? (h : s.round? cs = some t) :
    ∃ c rest, (cs.drop s.place).dropWhile isBlank = c :: rest ∧
      t.pieces = s.pieces ++ [(readPiece c rest).1] ∧
      cs.drop t.place = (readPiece c rest).2 ∧ s.place < t.place ∧ t.place ≤ cs.length := by
  rw [round?] at h
  split at h
  · cases h
  next c rest hdrop =>
    cases h
    have hsuffix : (readPiece c rest).2 <:+ cs :=
      (readPiece_suffix c rest).trans (hdrop ▸ List.drop_suffix _ cs)
    rw [drop_pastBlanks] at hdrop
    have hlt := length_readPiece_lt (isBlank_of_dropWhile_eq_cons hdrop) rest
    have hle := (List.dropWhile_suffix isBlank (l := cs.drop s.place)).length_le
    rw [hdrop, List.length_drop] at hle
    refine ⟨c, rest, hdrop, rfl, (List.suffix_iff_eq_drop.mp hsuffix).symm, ?_, Nat.sub_le _ _⟩
    dsimp only
    omega

/-- Rounds lead from every place to the end of the line, and read the pieces of what is left. -/
theorem exists_reaches (cs : List Char) (s : Pass) (h : s.place ≤ cs.length) :
    ∃ last : Pass, Reaches cs s last ∧ last.round? cs = none ∧
      last.pastBlanks cs = cs.length ∧
      last.pieces = s.pieces ++ CommandShell.pieces (cs.drop s.place) := by
  cases hround : s.round? cs with
  | none =>
    have hdrop : cs.drop (s.pastBlanks cs) = [] := by
      rw [round?] at hround
      split at hround
      · assumption
      · cases hround
    refine ⟨s, .refl, hround, ?_, ?_⟩
    · exact Nat.le_antisymm (pastBlanks_le h) (List.drop_eq_nil_iff.mp hdrop)
    · rw [← pieces_dropWhile_isBlank, ← drop_pastBlanks, hdrop, Written.pieces_nil, List.append_nil]
  | some t =>
    obtain ⟨c, rest, hdrop, hpieces, hleft, hlt, hle⟩ := exists_of_round? hround
    obtain ⟨last, hreaches, hlast, hend, hread⟩ := exists_reaches cs t hle
    refine ⟨last, .head hround hreaches, hlast, hend, ?_⟩
    rw [hread, hpieces, hleft, ← pieces_dropWhile_isBlank (cs.drop s.place), hdrop,
      Written.pieces_cons (isBlank_of_dropWhile_eq_cons hdrop), List.append_assoc]
    rfl
termination_by cs.length - s.place

end Pass

/-- A word that starts at a place where no boundary stands ends at the first place behind it where a
boundary stands outside quotes, or with the line, and is what the scan makes of the characters
between the two. So every round of reading a line goes forward, and rounds lead to where nothing of
the line is left and all of its stages have been read. -/
theorem reading_ends :
    (∀ (cs : List Char) (p : Nat) (c : Char), cs[p]? = some c → isBoundary c = false →
      ∃ q, (readWord .bare (cs.drop p)).1.Spans cs p q ∧
        (readWord .bare (cs.drop p)).2 = cs.drop q) ∧
      (∀ (cs : List Char) (s t : Pass), s.round? cs = some t →
        s.place < t.place ∧ t.place ≤ cs.length) ∧
      ∀ line : String, ∃ last : Pass, Pass.Reaches line.toList .start last ∧
        last.round? line.toList = none ∧ last.pastBlanks line.toList = line.length ∧
        Stage.listOfPieces last.pieces = parse line := by
  refine ⟨fun cs p c => readWord_spans, fun cs s t h => ?_, fun line => ?_⟩
  · obtain ⟨-, -, -, -, -, hlt, hle⟩ := Pass.exists_of_round? h
    exact ⟨hlt, hle⟩
  · obtain ⟨last, hreaches, hlast, hend, hpieces⟩ :=
      Pass.exists_reaches line.toList .start (Nat.zero_le _)
    refine ⟨last, hreaches, hlast, hend.trans String.length_toList, ?_⟩
    rw [hpieces]
    rfl

/-- A word with escaped and quoted boundaries in front of a `>`, and a path that the line leaves
open behind a backslash. -/
theorem reading_ends_open :
    let line := "ls a\\ 'b|c'>\"x\\"
    line.toList[3]? = some 'a' ∧ isBoundary 'a' = false ∧
      (⟨"a b|c".toList, true⟩ : Word).Spans line.toList 3 11 ∧
      line.toList[12]? = some '"' ∧ isBoundary '"' = false ∧
      (⟨"x\\".toList, true⟩ : Word).Spans line.toList 12 15 ∧
      Pass.start.round? line.toList = some ⟨2, [.argument "ls"]⟩ ∧ 0 < 2 ∧ 2 ≤ line.toList.length ∧
      ∃ last : Pass, Pass.Reaches line.toList .start last ∧
        last.pastBlanks line.toList = line.length ∧
        Stage.listOfPieces last.pieces = [⟨["ls", "a b|c"], [⟨.output, "x\\", false⟩]⟩] := by
  intro line
  have hlength : line.toList.length = 15 := by cbv
  have hspans {p q : Nat} {c : Char} {w : Word} {left : List Char} (hc : line.toList[p]? = some c)
      (hb : isBoundary c = false) (hread : readWord .bare (line.toList.drop p) = (w, left))
      (hq : q + left.length = 15) : w.Spans line.toList p q := by
    obtain ⟨q', hspans, hleft⟩ := reading_ends.1 line.toList p c hc hb
    have hle := hspans.le
    rw [hread] at hspans hleft
    have hdrop := congrArg List.length hleft
    rw [List.length_drop] at hdrop
    obtain rfl : q = q' := by dsimp only at hdrop; omega
    exact hspans
  have hfirst : line.toList[3]? = some 'a' := by cbv
  have hpath : line.toList[12]? = some '"' := by cbv
  have hword : readWord .bare (line.toList.drop 3) =
      (⟨"a b|c".toList, true⟩, ['>', '"', 'x', '\\']) := by cbv
  have hopen : readWord .bare (line.toList.drop 12) = (⟨"x\\".toList, true⟩, []) := by cbv
  have hround : Pass.start.round? line.toList = some ⟨2, [.argument "ls"]⟩ := by cbv
  have hparse : parse line = [⟨["ls", "a b|c"], [⟨.output, "x\\", false⟩]⟩] := by cbv
  obtain ⟨hlt, hle⟩ := reading_ends.2.1 _ _ _ hround
  obtain ⟨last, hreaches, -, hend, hstages⟩ := reading_ends.2.2 line
  refine ⟨hfirst, rfl, hspans hfirst rfl hword rfl, hpath, rfl, hspans hpath rfl hopen rfl, hround,
    hlt, hle, last, hreaches, hend, ?_⟩
  rw [hstages, hparse]

end CommandShell
