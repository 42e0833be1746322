import Mathlib.Data.List.Basic
import Mathlib.Data.List.Flatten
import CommandShell.Proofs.Line.Cut

/-!
# Places of characters

Reading a line leaves characters out and makes none up. `parse_places` says that the characters of
all arguments stand in the line in their order, and those of all paths too, each at a place of its
own, and that no place of a character that separates is among them.

`Quoting.Picks` follows the scan of a line and tells for every character whether it is left out or
picked, and what for. Words, redirections, pieces and lines each pick what they stand for.
-/

namespace CommandShell

/-! ## What a scan picks -/

namespace Quoting

/-- Whether a character separates where the scan stands: outside quotes, boundaries do. -/
def Separates (q : Quoting) (c : Char) : Prop := q = bare ∧ isBoundary c = true

/-- How a scan goes over the front of a line and picks characters for arguments and for paths. The
lists are the line, what was picked for arguments, what was picked for paths, and what is left of
the line. A scan stops outside quotes or at the end of the line. -/
inductive Picks : Quoting → List Char → List Char → List Char → List Char → Prop
  | stop (left : List Char) : Picks bare left [] [] left
  | finish (q : Quoting) : Picks q [] [] [] []
  | skip {q : Quoting} {c : Char} {cs as ps left : List Char} :
      Picks (q.next c) cs as ps left → Picks q (c :: cs) as ps left
  | argument {q : Quoting} {c : Char} {cs as ps left : List Char} :
      ¬q.Separates c → Picks (q.next c) cs as ps left → Picks q (c :: cs) (c :: as) ps left
  | path {q : Quoting} {c : Char} {cs as ps left : List Char} :
      ¬q.Separates c → Picks (q.next c) cs as ps left → Picks q (c :: cs) as (c :: ps) left

namespace Picks

variable {q : Quoting} {cs as ps as' ps' left left' : List Char}

/-- What is picked for arguments can be picked for paths, and the other way round. -/
theorem swap (h : q.Picks cs as ps left) : q.Picks cs ps as left := by
  induction h with
  | stop left => exact .stop left
  | finish q => exact .finish q
  | skip _ ih => exact .skip ih
  | argument hc _ ih => exact .path hc ih
  | path hc _ ih => exact .argument hc ih

/-- Some of what is picked can be left out. -/
theorem sublist (h : q.Picks cs as ps left) (has : as'.Sublist as) (hps : ps'.Sublist ps) :
    q.Picks cs as' ps' left := by
  induction h generalizing as' ps' with
  | stop left =>
    rw [List.sublist_nil.mp has, List.sublist_nil.mp hps]
    exact .stop left
  | finish q =>
    rw [List.sublist_nil.mp has, List.sublist_nil.mp hps]
    exact .finish q
  | skip _ ih => exact .skip (ih has hps)
  | argument hc _ ih =>
    cases has with
    | cons _ has => exact .skip (ih has hps)
    | cons_cons _ has => exact .argument hc (ih has hps)
  | path hc _ ih =>
    cases hps with
    | cons _ hps => exact .skip (ih has hps)
    | cons_cons _ hps => exact .path hc (ih has hps)

/-- A scan goes on with what another one has left. -/
theorem trans (h : q.Picks cs as ps left) (h' : bare.Picks left as' ps' left') :
    q.Picks cs (as ++ as') (ps ++ ps') left' := by
  induction h with
  | stop left => exact h'
  | finish q =>
    cases h' with
    | stop => exact .finish q
    | finish => exact .finish q
  | skip _ ih => exact .skip (ih h')
  | argument hc _ ih => exact .argument hc (ih h')
  | path hc _ ih => exact .path hc (ih h')

/-- Behind a backslash and within quotes no character separates, so any can be picked. -/
theorem inside {c : Char} (hq : q ≠ bare) (h : (q.next c).Picks cs as ps left) :
    q.Picks (c :: cs) (c :: as) ps left :=
  .argument (fun hsep => hq hsep.1) h

/-- Outside quotes, a boundary is passed over. -/
theorem boundary {c : Char} (hc : isBoundary c = true) (h : bare.Picks cs as ps left) :
    bare.Picks (c :: cs) as ps left := by
  refine .skip ?_
  rwa [next_bare_of_isBoundary hc]

/-- Outside quotes, blanks are passed over. -/
theorem blanks (h : bare.Picks (cs.dropWhile isBlank) as ps left) : bare.Picks cs as ps left := by
  induction cs with
  | nil => exact h
  | cons c cs ih =>
    rw [List.dropWhile_cons] at h
    split at h
    · next hc => exact .boundary (by simp [isBoundary, hc]) (ih h)
    · exact h

/-- No character is picked twice. -/
theorem length_le (h : q.Picks cs as ps left) : as.length + ps.length ≤ cs.length := by
  induction h <;> simp only [List.length_nil, List.length_cons] <;> omega

end Picks

end Quoting

open Quoting

/-! ## What lines pick -/

/-- A word picks its text. -/
theorem readWord_picks (e : Enclosure) (cs : List Char) :
    e.quoting.Picks cs (readWord e cs).1.text [] (readWord e cs).2 := by
  fun_induction readWord e cs with
  | case1 e => exact .finish _
  | case2 c cs => exact .stop _
  | case3 cs _ ih => exact .skip ih
  | case4 cs _ _ ih => exact .skip ih
  | case5 => exact .skip (.finish _)
  | case6 d ds _ _ _ ih => exact .skip (.inside (by decide) ih)
  | case7 c cs hc hs hd he ih =>
    refine .argument (fun hsep => hc hsep.2) ?_
    simpa [Enclosure.quoting, next, hs, hd, he] using ih
  | case8 cs ih => exact .skip ih
  | case9 c cs hs ih =>
    refine .inside (by decide) ?_
    simpa [Enclosure.quoting, next, hs] using ih
  | case10 cs ih => exact .skip ih
  | case11 => exact .inside (by decide) (.finish _)
  | case12 d ds _ _ ih => exact .skip (.inside (by decide) ih)
  | case13 d ds _ _ ih =>
    exact .inside (by decide) (.inside (by decide) ih)
  | case14 c cs hd he ih =>
    refine .inside (by decide) ?_
    simpa [Enclosure.quoting, next, hd, he] using ih

namespace Piece

/-- The characters of the argument that a piece is. -/
def argumentText : Piece → List Char
  | argument text => text.toList
  | _ => []

/-- The characters of the path of the redirection that a piece is. -/
def pathText : Piece → List Char
  | redirect r => r.path.toList
  | _ => []

end Piece

/-- A redirection picks its path. -/
theorem readRedirect_picks (target : Target) (cs : List Char) :
    bare.Picks cs (readRedirect target cs).1.argumentText (readRedirect target cs).1.pathText
      (readRedirect target cs).2 := by
  have hpath (cs : List Char) : bare.Picks cs [] (readWord .bare (cs.dropWhile isBlank)).1.text
      (readWord .bare (cs.dropWhile isBlank)).2 :=
    .blanks (readWord_picks .bare _).swap
  simp only [readRedirect, Piece.argumentText, Piece.pathText, String.toList_ofList]
  split
  · next hdoubled =>
    obtain ⟨rest, rfl⟩ := List.head?_eq_some_iff.mp hdoubled
    exact .boundary rfl (hpath rest)
  · exact hpath cs

/-- A piece picks its argument or its path. -/
theorem readPiece_picks (c : Char) (cs : List Char) :
    bare.Picks (c :: cs) (readPiece c cs).1.argumentText (readPiece c cs).1.pathText
      (readPiece c cs).2 := by
  by_cases hbar : c = '|'
  · subst hbar
    exact .boundary rfl (.stop cs)
  by_cases harrow : c = '>'
  · subst harrow
    exact .boundary rfl (readRedirect_picks .output cs)
  have hword : bare.Picks (c :: cs) _ [] _ := readWord_picks .bare (c :: cs)
  rw [readPiece_eq_ofWord hbar harrow]
  generalize readWord .bare (c :: cs) = word at hword
  obtain ⟨w, left⟩ := word
  rw [Piece.ofWord]
  split
  · next rest target hleft _ =>
    -- The digit of a redirection is no argument.
    obtain rfl : left = '>' :: rest := hleft
    have hdigit := hword.sublist (List.nil_sublist _) (List.Sublist.refl [])
    exact hdigit.trans (.boundary rfl (readRedirect_picks target rest))
  · simpa [Piece.argumentText, Piece.pathText] using hword

/-- A line picks the arguments and the paths of its pieces. -/
theorem pieces_picks (cs : List Char) :
    bare.Picks cs ((pieces cs).flatMap Piece.argumentText) ((pieces cs).flatMap Piece.pathText)
      [] := by
  fun_induction pieces cs with
  | case1 cs hcs =>
    refine .blanks ?_
    rw [hcs]
    exact .finish bare
  | case2 cs c rest hcs ih =>
    refine .blanks ?_
    rw [hcs]
    exact (readPiece_picks c rest).trans ih

/-! ## What stages keep -/

namespace Stage

/-- The characters of the arguments of a stage. -/
def argumentText (s : Stage) : List Char := s.arguments.flatMap String.toList

/-- The characters of the paths of the redirections of a stage. -/
def pathText (s : Stage) : List Char := s.redirections.flatMap (·.path.toList)

/-- A stage keeps what its pieces are as arguments: those that are left out have no text. -/
theorem argumentText_ofPieces? (ps : List Piece) :
    (ofPieces? ps).toList.flatMap argumentText = ps.flatMap Piece.argumentText := by
  have harguments : (ps.filterMap Piece.argument?).flatMap String.toList =
      ps.flatMap Piece.argumentText := by
    rw [List.filterMap_eq_flatMap_toList, List.flatMap_assoc]
    refine List.flatMap_congr fun p _ => ?_
    cases p with
    | argument text => by_cases h : text = "" <;> simp [Piece.argument?, Piece.argumentText, h]
    | redirect | bar => rfl
  rw [← harguments, ofPieces?]
  split
  · next h => rw [h]; rfl
  · simp [argumentText]

/-- The paths of a stage are some of those of its pieces: without arguments, all are left out. -/
theorem pathText_ofPieces? (ps : List Piece) :
    ((ofPieces? ps).toList.flatMap pathText).Sublist (ps.flatMap Piece.pathText) := by
  have hpaths : ((ps.filterMap Piece.redirection?).flatMap (·.path.toList)) =
      ps.flatMap Piece.pathText := by
    rw [List.filterMap_eq_flatMap_toList, List.flatMap_assoc]
    refine List.flatMap_congr fun p _ => ?_
    cases p with
    | redirect r => by_cases h : r.path = "" <;> simp [Piece.redirection?, Piece.pathText, h]
    | argument | bar => rfl
  rw [← hpaths, ofPieces?]
  split
  · exact List.nil_sublist _
  · simp [pathText]

/-- Bars have no text, so it does not matter where they cut. -/
theorem flatMap_splitOn_bar {f : Piece → List Char} (hbar : f .bar = []) (ps : List Piece) :
    (ps.splitOn .bar).flatMap (·.flatMap f) = ps.flatMap f := by
  induction ps with
  | nil => rfl
  | cons p ps ih =>
    rw [List.splitOn_cons_eq_if_modifyHead]
    split
    · next hp =>
      obtain rfl : p = .bar := by simpa using hp
      simp [hbar, ih]
    · obtain ⟨part, parts, hparts⟩ := List.exists_cons_of_ne_nil (List.splitOn_ne_nil Piece.bar ps)
      rw [hparts] at ih ⊢
      simp only [List.modifyHead_cons, List.flatMap_cons, List.append_assoc] at ih ⊢
      rw [ih]

/-- The stages of pieces keep texts of those, whichever texts one stage keeps of its pieces. -/
theorem sublist_listOfPieces {f : Stage → List Char} {g : Piece → List Char} (hbar : g .bar = [])
    (h : ∀ ps, ((ofPieces? ps).toList.flatMap f).Sublist (ps.flatMap g)) (ps : List Piece) :
    ((listOfPieces ps).flatMap f).Sublist (ps.flatMap g) := by
  rw [← flatMap_splitOn_bar hbar, listOfPieces, List.filterMap_eq_flatMap_toList,
    List.flatMap_assoc]
  exact List.Sublist.flatMap_right _ fun part _ => h part

end Stage

/-- A line picks the arguments and the paths of its stages. -/
theorem parse_picks (line : String) :
    bare.Picks line.toList ((parse line).flatMap Stage.argumentText)
      ((parse line).flatMap Stage.pathText) [] :=
  (pieces_picks line.toList).sublist
    (Stage.sublist_listOfPieces rfl (fun ps => by rw [Stage.argumentText_ofPieces?]) _)
    (Stage.sublist_listOfPieces rfl Stage.pathText_ofPieces? _)

/-! ## Where characters stand -/

/-- Whether the characters of a text stand at the given places of a line, from left to right. -/
structure StandsAt (cs : List Char) (places : List Nat) (text : List Char) : Prop where
  increasing : places.Pairwise (· < ·)
  chars : places.map (cs[·]?) = text.map some

namespace StandsAt

variable {c : Char} {cs text : List Char} {places : List Nat}

theorem nil (cs : List Char) : StandsAt cs [] [] := ⟨.nil, rfl⟩

/-- With one more character in front, a text stands one place farther. -/
theorem shift (h : StandsAt cs places text) (c : Char) :
    StandsAt (c :: cs) (places.map (· + 1)) text where
  increasing := List.pairwise_map.mpr (h.increasing.imp (by omega))
  chars := by rw [List.map_map, ← h.chars]; rfl

/-- With the first character in front, a text stands at the first place and then one farther. -/
theorem cons (h : StandsAt cs places text) (c : Char) :
    StandsAt (c :: cs) (0 :: places.map (· + 1)) (c :: text) where
  increasing := List.pairwise_cons.mpr ⟨by simp, (h.shift c).increasing⟩
  chars := by rw [List.map_cons, (h.shift c).chars]; rfl

end StandsAt

namespace Quoting

/-- Whether the character at a place separates, if the scan of the line starts at a state. -/
def SeparatesAt (q : Quoting) (cs : List Char) (i : Nat) : Prop :=
  ∃ c, cs[i]? = some c ∧ (q.run (cs.take i)).Separates c

variable {q : Quoting} {c : Char} {cs as ps left : List Char}

theorem separatesAt_zero : q.SeparatesAt (c :: cs) 0 ↔ q.Separates c := by
  simp [SeparatesAt]

theorem separatesAt_succ {i : Nat} :
    q.SeparatesAt (c :: cs) (i + 1) ↔ (q.next c).SeparatesAt cs i := by
  simp [SeparatesAt]

/-- Whether the characters of two texts stand at places of a line, each at one of its own where no
character separates. -/
structure HoldsApart (q : Quoting) (cs as ps : List Char) (is js : List Nat) : Prop where
  arguments : StandsAt cs is as
  paths : StandsAt cs js ps
  disjoint : is.Disjoint js
  not_separatesAt : ∀ i ∈ is ++ js, ¬q.SeparatesAt cs i

namespace HoldsApart

variable {is js : List Nat}

theorem swap (h : q.HoldsApart cs as ps is js) : q.HoldsApart cs ps as js is where
  arguments := h.paths
  paths := h.arguments
  disjoint _ hi hj := h.disjoint hj hi
  not_separatesAt i hi := h.not_separatesAt i (List.mem_append.mpr (List.mem_append.mp hi).symm)

/-- With one more character in front, all places are one farther. -/
theorem shift (h : (q.next c).HoldsApart cs as ps is js) :
    q.HoldsApart (c :: cs) as ps (is.map (· + 1)) (js.map (· + 1)) where
  arguments := h.arguments.shift c
  paths := h.paths.shift c
  disjoint := by
    intro i hi hj
    obtain ⟨k, hk, rfl⟩ := List.mem_map.mp hi
    obtain ⟨k', hk', heq⟩ := List.mem_map.mp hj
    exact h.disjoint hk (Nat.succ.inj heq ▸ hk')
  not_separatesAt := by
    intro i hi
    rw [← List.map_append, List.mem_map] at hi
    obtain ⟨k, hk, rfl⟩ := hi
    rw [separatesAt_succ]
    exact h.not_separatesAt k hk

/-- The first text can start with the character in front, if that does not separate. -/
theorem cons (hc : ¬q.Separates c) (h : (q.next c).HoldsApart cs as ps is js) :
    q.HoldsApart (c :: cs) (c :: as) ps (0 :: is.map (· + 1)) (js.map (· + 1)) where
  arguments := h.arguments.cons c
  paths := h.paths.shift c
  disjoint := List.disjoint_cons_left.mpr ⟨by simp, h.shift.disjoint⟩
  not_separatesAt := by
    rw [List.cons_append, List.forall_mem_cons, separatesAt_zero]
    exact ⟨hc, h.shift.not_separatesAt⟩

end HoldsApart

/-- The characters that a scan picks stand in the line apart from each other. -/
theorem Picks.exists_holdsApart (h : q.Picks cs as ps left) :
    ∃ is js, q.HoldsApart cs as ps is js := by
  induction h with
  | stop left => exact ⟨[], [], .nil _, .nil _, by simp, by simp⟩
  | finish q => exact ⟨[], [], .nil _, .nil _, by simp, by simp⟩
  | skip _ ih =>
    obtain ⟨is, js, h⟩ := ih
    exact ⟨_, _, h.shift⟩
  | argument hc _ ih =>
    obtain ⟨is, js, h⟩ := ih
    exact ⟨_, _, h.cons hc⟩
  | path hc _ ih =>
    obtain ⟨is, js, h⟩ := ih
    exact ⟨_, _, (h.swap.cons hc).swap⟩

end Quoting

/-- The characters of all arguments stand in the line in their order, and so do those of all paths,
each at a place of its own, and none where a blank, a bar or a `>` stands that is neither quoted nor
escaped. So there are no more of them than the line has. -/
theorem parse_places (line : String) :
    let arguments := (parse line).flatMap Stage.argumentText
    let paths := (parse line).flatMap Stage.pathText
    (∃ is js, bare.HoldsApart line.toList arguments paths is js) ∧
      arguments.length + paths.length ≤ line.length :=
  ⟨(parse_picks line).exists_holdsApart, (parse_picks line).length_le⟩

end CommandShell
