import CommandShell.Line.Stage

/-!
# Words

Reading one word off the front of a line. A word ends before a blank, a `|` or a `>` outside
quotes, or with the line; a quote that is never closed takes in the rest of the line. A word that
starts with no boundary takes at least one character (`length_readWord_cons_lt`).
-/

namespace CommandShell

/-- A character that separates words. -/
def isBlank (c : Char) : Bool := c = ' ' || c = '\t' || c = '\n' || c = '\r'

/-- A character that ends a word outside quotes. -/
def isBoundary (c : Char) : Bool := isBlank c || c = '|' || c = '>'

/-- What encloses the characters being read. -/
inductive Enclosure
  | bare
  | single
  | double
  deriving DecidableEq

/-- A word read from a line. -/
structure Word where
  /-- The characters that the word stands for. -/
  text : List Char
  /-- Whether any part of it was quoted or escaped. -/
  quoted : Bool
  deriving DecidableEq

namespace Word

/-- The word of no characters. -/
def empty : Word := ⟨[], false⟩

/-- The word with one more character in front. -/
def push (c : Char) (w : Word) : Word := { w with text := c :: w.text }

/-- The word, known to be quoted in part. -/
def markQuoted (w : Word) : Word := { w with quoted := true }

@[simp] theorem text_empty : empty.text = [] := rfl

@[simp] theorem text_push (c : Char) (w : Word) : (w.push c).text = c :: w.text := rfl

@[simp] theorem text_markQuoted (w : Word) : w.markQuoted.text = w.text := rfl

/-- The stream that a word names when a `>` follows it at once: an unquoted single digit. -/
def descriptor? (w : Word) : Option Target :=
  match w.quoted, w.text with
  | false, ['1'] => some .output
  | false, ['2'] => some .error
  | false, [c] => if c.isDigit then some .unknown else none
  | _, _ => none

end Word

/-- Reads a word, and gives what is left of the line. -/
def readWord : Enclosure → List Char → Word × List Char
  | _, [] => (.empty, [])
  | .bare, c :: cs =>
    if isBoundary c then (.empty, c :: cs)
    else if c = '\'' then (readWord .single cs).map Word.markQuoted id
    else if c = '"' then (readWord .double cs).map Word.markQuoted id
    else if c = '\\' then
      match cs with
      | [] => (Word.empty.markQuoted, [])
      | d :: ds => (readWord .bare ds).map (fun w => (w.push d).markQuoted) id
    else (readWord .bare cs).map (Word.push c) id
  | .single, c :: cs =>
    if c = '\'' then readWord .bare cs else (readWord .single cs).map (Word.push c) id
  | .double, c :: cs =>
    if c = '"' then readWord .bare cs
    else if c = '\\' then
      match cs with
      | [] => (Word.empty.push c, [])
      | d :: ds =>
        if d = '\\' ∨ d = '"' then (readWord .double ds).map (Word.push d) id
        else (readWord .double ds).map (fun w => (w.push d).push c) id
    else (readWord .double cs).map (Word.push c) id

/-- How reading goes on outside quotes. -/
theorem readWord_bare_cons (c : Char) (cs : List Char) :
    readWord .bare (c :: cs) =
      if isBoundary c then (.empty, c :: cs)
      else if c = '\'' then (readWord .single cs).map Word.markQuoted id
      else if c = '"' then (readWord .double cs).map Word.markQuoted id
      else if c = '\\' then
        match cs with
        | [] => (Word.empty.markQuoted, [])
        | d :: ds => (readWord .bare ds).map (fun w => (w.push d).markQuoted) id
      else (readWord .bare cs).map (Word.push c) id := by
  refine (readWord.eq_def ..).trans ?_
  rfl

/-- How reading goes on between single quotes. -/
theorem readWord_single_cons (c : Char) (cs : List Char) :
    readWord .single (c :: cs) =
      if c = '\'' then readWord .bare cs else (readWord .single cs).map (Word.push c) id := by
  refine (readWord.eq_def ..).trans ?_
  rfl

/-- How reading goes on between double quotes. -/
theorem readWord_double_cons (c : Char) (cs : List Char) :
    readWord .double (c :: cs) =
      if c = '"' then readWord .bare cs
      else if c = '\\' then
        match cs with
        | [] => (Word.empty.push c, [])
        | d :: ds =>
          if d = '\\' ∨ d = '"' then (readWord .double ds).map (Word.push d) id
          else (readWord .double ds).map (fun w => (w.push d).push c) id
      else (readWord .double cs).map (Word.push c) id := by
  refine (readWord.eq_def ..).trans ?_
  rfl

/-- A word is read off the front: what is left is never longer. -/
theorem length_readWord_le (e : Enclosure) (cs : List Char) :
    (readWord e cs).2.length ≤ cs.length := by
  fun_induction readWord e cs <;> simp_all <;> omega

/-- A word that starts with no boundary takes at least one character. -/
theorem length_readWord_cons_lt {c : Char} (h : isBoundary c = false) (cs : List Char) :
    (readWord .bare (c :: cs)).2.length < (c :: cs).length := by
  have hle (e : Enclosure) := Nat.lt_succ_of_le (length_readWord_le e cs)
  rw [readWord_bare_cons, if_neg (by simp [h])]
  split
  · simpa using hle .single
  split
  · simpa using hle .double
  split
  · cases cs with
    | nil => simp
    | cons d ds =>
      have := length_readWord_le .bare ds
      simp only [Prod.map_snd, id_eq, List.length_cons]
      omega
  · simpa using hle .bare

/-! ## One character at a time -/

/-- Outside quotes, a boundary ends the word. -/
theorem readWord_boundary {c : Char} (h : isBoundary c = true) (cs : List Char) :
    readWord .bare (c :: cs) = (.empty, c :: cs) := by
  rw [readWord_bare_cons]
  simp [h]

/-- Outside quotes, most characters stand for themselves. -/
theorem readWord_plain {c : Char} (hb : isBoundary c = false) (hs : c ≠ '\'') (hd : c ≠ '"')
    (he : c ≠ '\\') (cs : List Char) :
    readWord .bare (c :: cs) = (readWord .bare cs).map (Word.push c) id := by
  rw [readWord_bare_cons]
  simp [hb, hs, hd, he]

/-- A single quote opens what another one closes. -/
@[simp] theorem readWord_openSingle (cs : List Char) :
    readWord .bare ('\'' :: cs) = (readWord .single cs).map Word.markQuoted id := by
  rw [readWord_bare_cons]
  rfl

/-- A double quote opens what another one closes. -/
@[simp] theorem readWord_openDouble (cs : List Char) :
    readWord .bare ('"' :: cs) = (readWord .double cs).map Word.markQuoted id := by
  rw [readWord_bare_cons]
  rfl

/-- Outside quotes, a backslash makes any character stand for itself. -/
@[simp] theorem readWord_escaped (d : Char) (ds : List Char) :
    readWord .bare ('\\' :: d :: ds) =
      (readWord .bare ds).map (fun w => (w.push d).markQuoted) id := by
  rw [readWord_bare_cons]
  rfl

@[simp] theorem readWord_closeSingle (cs : List Char) :
    readWord .single ('\'' :: cs) = readWord .bare cs := by
  rw [readWord_single_cons]
  rfl

/-- Between single quotes, every other character stands for itself. -/
theorem readWord_single_plain {c : Char} (h : c ≠ '\'') (cs : List Char) :
    readWord .single (c :: cs) = (readWord .single cs).map (Word.push c) id := by
  rw [readWord_single_cons]
  simp [h]

@[simp] theorem readWord_closeDouble (cs : List Char) :
    readWord .double ('"' :: cs) = readWord .bare cs := by
  rw [readWord_double_cons]
  rfl

/-- Between double quotes, most characters stand for themselves. -/
theorem readWord_double_plain {c : Char} (hq : c ≠ '"') (hb : c ≠ '\\') (cs : List Char) :
    readWord .double (c :: cs) = (readWord .double cs).map (Word.push c) id := by
  rw [readWord_double_cons]
  simp [hq, hb]

/-- Between double quotes, a backslash makes another one or a double quote stand for itself. -/
theorem readWord_double_escaped {d : Char} (h : d = '\\' ∨ d = '"') (ds : List Char) :
    readWord .double ('\\' :: d :: ds) = (readWord .double ds).map (Word.push d) id := by
  rw [readWord_double_cons]
  simp [h]

/-- Between double quotes, a backslash in front of any other character stands for itself. -/
theorem readWord_double_backslash {d : Char} (hb : d ≠ '\\') (hq : d ≠ '"') (ds : List Char) :
    readWord .double ('\\' :: d :: ds) =
      (readWord .double ds).map (fun w => (w.push d).push '\\') id := by
  rw [readWord_double_cons]
  simp [hb, hq]

end CommandShell
