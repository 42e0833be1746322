import CommandShell.Script.Command

/-!
# Fields

The text that a word expands to is a series of cells: characters, quotation marks, and the ends of
fields that the word brings with it. In some regions of it, fields are split at separators.
-/

namespace CommandShell.Script

/-- A place of an expanded text. -/
inductive Cell
  | mark
  /-- A character. An escaped one has no meaning in patterns. -/
  | char (c : Char) (escaped : Bool)
  /-- The end of a field. -/
  | fieldEnd
  deriving DecidableEq

namespace Cell

/-- The character of a cell. -/
def char? : Cell → Option Char
  | char c _ => some c
  | _ => none

/-- Whether a cell is an escaped character. -/
def isEscaped : Cell → Bool
  | char _ escaped => escaped
  | _ => false

/-- The characters of cells. -/
def characters (cells : List Cell) : Raw := cells.filterMap char?

/-- The pattern that cells stand for. `free` says that no bare backslash precedes, and `quoted` that
an odd number of marks does. -/
def patternFrom (free quoted : Bool) : List Cell → Raw
  | [] => []
  | mark :: cells => patternFrom free (!quoted) cells
  | fieldEnd :: cells => patternFrom free quoted cells
  | char c false :: cells => c :: patternFrom (c ≠ '\\') quoted cells
  | char c true :: cells =>
    (if free then ['\\'] else if quoted then ['\\', '\\'] else []) ++
      c :: patternFrom true quoted cells

/-- The pattern that cells stand for. -/
def pattern (cells : List Cell) : Raw := patternFrom true false cells

end Cell

/-- A region of a text in which fields are split. -/
structure Region where
  first : Nat
  last : Nat
  /-- Whether fields end only where the text says so. -/
  strict : Bool
  deriving DecidableEq

namespace Region

/-- The regions without what lies at or behind a place. -/
def before (place : Nat) (regions : List Region) : List Region :=
  (regions.filter fun r => r.first < place).map fun r => { r with last := min r.last place }

end Region

/-- The state of splitting a text. -/
structure Splitting where
  /-- The place where the next field starts. -/
  start : Nat
  /-- Whether blanks that belong to the separator before are being skipped. -/
  skipping : Bool
  /-- The place that the last field ends at, if it is known. -/
  cut : Option Nat
  /-- How many more fields may be split off; any number if it is missing. -/
  left : Option Nat
  /-- The fields so far by their places, the last first. -/
  fields : List (Nat × Nat)
  /-- Whether the last region was a strict one. -/
  strict : Bool

namespace Splitting

/-- Whether a character is one of the usual separators. -/
def isBlank (c : Char) : Bool := c = ' ' || c = '\t' || c = '\n'

/-- Takes the cell at a place into account. -/
def step (separators : Raw) (afterStrict : Bool) (s : Splitting) (place : Nat) (cell : Cell) :
    Splitting :=
  let separates := match cell with
    | .fieldEnd => true
    | .char c _ => separators.contains c
    | .mark => false
  let blank := separates && match cell with
    | .char c _ => isBlank c
    | _ => true
  if s.left = some 0 then
    if blank then { s with cut := s.cut.orElse fun _ => some place }
    else if separates && s.skipping then { s with skipping := false }
    else { s with cut := none, skipping := false }
  else
    let next := place + 1
    let ended (s : Splitting) : Splitting :=
      let s := if afterStrict || s.strict then s else { s with skipping := blank }
      if place = s.start && s.skipping then { s with start := next, skipping := false }
      else if s.left = some 1 then { s with left := some 0, cut := some place }
      else
        { s with
          left := s.left.map (· - 1)
          fields := (s.start, place) :: s.fields
          start := next }
    if s.skipping then
      let s := { s with start := if separates then next else place }
      if blank then s else { s with skipping := false }
    else if separates then ended s
    else s

/-- Splits a region. -/
def region (separators : Raw) (cells : Array Cell) (s : Splitting) (r : Region) : Splitting :=
  let afterStrict := s.strict
  let s := { s with strict := r.strict, skipping := false }
  (List.range' r.first (r.last - r.first)).foldl
    (fun s place => s.step (if r.strict then [] else separators) afterStrict place (cells.getD place .mark)) s

/-- The last field. -/
def finish (cells : Array Cell) (s : Splitting) : List (Nat × Nat) :=
  let last := match s.cut with
    | some place => if s.strict then cells.size else place
    | none => cells.size
  let isEmpty : Bool := last ≤ s.start || cells.getD s.start .mark = .fieldEnd
  (if isEmpty && !s.strict then s.fields else (s.start, last) :: s.fields).reverse

end Splitting

/-- The fields of a text. With `most`, the last of that many fields takes all that is left. -/
def splitFields (separators : Raw) (most : Option Nat) (cells : Array Cell)
    (regions : List Region) : List (List Cell) :=
  let s := regions.foldl (Splitting.region separators cells) ⟨0, false, none, most, [], false⟩
  (s.finish cells).map fun (first, last) => (cells.extract first last).toList

end CommandShell.Script
