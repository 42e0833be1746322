import CommandShell.File.Lookup
import CommandShell.Script.Command

/-!
# Patterns of scripts

A pattern is a text in which `*`, `?` and brackets stand for other texts, unless a backslash precedes
them. `Pattern.fits` says which texts it stands for, a `Cutting` is a value that such texts are
taken off, and `paths` finds the files whose paths it stands for.
-/

namespace CommandShell.Script

namespace Pattern

/-- The order of characters, which takes a byte as a number with a sign. -/
def rank (c : Char) : Int := if c.toNat < 128 then c.toNat else (c.toNat : Int) - 256

/-- The classes of characters that a name between colons stands for. -/
def classes : List (String × (Char → Bool)) :=
  let isPunctuation (c : Char) : Bool :=
    33 ≤ c.toNat && c.toNat ≤ 126 && !c.isAlphanum
  [(":alnum:]", Char.isAlphanum), (":cntrl:]", fun c => c.toNat < 32 || c.toNat = 127),
    (":lower:]", Char.isLower), (":space:]", fun c => c = ' ' || (9 ≤ c.toNat && c.toNat ≤ 13)),
    (":alpha:]", Char.isAlpha), (":digit:]", Char.isDigit),
    (":print:]", fun c => 32 ≤ c.toNat && c.toNat ≤ 126), (":upper:]", Char.isUpper),
    (":blank:]", fun c => c = ' ' || c = '\t'),
    (":graph:]", fun c => 33 ≤ c.toNat && c.toNat ≤ 126), (":punct:]", isPunctuation),
    (":xdigit:]", fun c => "0123456789abcdefABCDEF".toList.contains c)]

/-- Whether the brackets that a text is behind hold a character, and the text behind them; nothing
if the brackets are not closed. `first` says that no member was read yet. -/
def members (x : Char) : Nat → Bool → Bool → Raw → Option (Bool × Raw)
  | 0, _, _, _ => none
  | _, _, _, [] => none
  | fuel + 1, first, found, c :: cs =>
    if c = ']' && !first then some (found, cs)
    else
      let named? := if c = '[' then
          classes.findSome? fun (name, holds) =>
            (name.toList.isPrefixOf? cs).map fun rest => (holds x, rest)
        else none
      match named? with
      | some (holds, rest) => members x fuel false (found || holds) rest
      | none =>
        let plain (c : Char) (cs : Raw) : Option (Bool × Raw) :=
          match cs with
          | '-' :: d :: rest =>
            if d = ']' then members x fuel false (found || x = c) cs
            else
              match d, rest with
              | '\\', e :: rest =>
                members x fuel false (found || (rank c ≤ rank x && rank x ≤ rank e)) rest
              | _, _ => members x fuel false (found || (rank c ≤ rank x && rank x ≤ rank d)) rest
          | _ => members x fuel false (found || x = c) cs
        match c, cs with
        | '\\', e :: rest => plain e rest
        | _, _ => plain c cs

/-- Whether a text is one that a pattern stands for. `fuel` bounds the lengths of both. -/
def fitsFrom : Nat → Raw → Raw → Bool
  | 0, _, _ => false
  | _, [], text => text.isEmpty
  | fuel + 1, '*' :: pattern, text =>
    fitsFrom fuel pattern text ||
      match text with
      | [] => false
      | _ :: rest => fitsFrom fuel ('*' :: pattern) rest
  | _, _ :: _, [] => false
  | fuel + 1, '?' :: pattern, _ :: text => fitsFrom fuel pattern text
  | fuel + 1, '\\' :: c :: pattern, x :: text => c = x && fitsFrom fuel pattern text
  | fuel + 1, '[' :: pattern, x :: text =>
    let (negated, inside) := match pattern with
      | '!' :: rest => (true, rest)
      | rest => (false, rest)
    match members x (inside.length + 1) true false inside with
    | some (found, rest) => found ≠ negated && fitsFrom fuel rest text
    | none => x = '[' && fitsFrom fuel pattern text
  | fuel + 1, c :: pattern, x :: text => c = x && fitsFrom fuel pattern text

/-- Whether a text is one that a pattern stands for. -/
def fits (pattern text : Raw) : Bool := fitsFrom (pattern.length + text.length + 1) pattern text

/-! ## Cutting -/

/-- A value that is to be cut by a pattern. -/
structure Cutting where
  pattern : Raw
  /-- The fields of the value, each but the first behind a null character. -/
  value : Raw
  /-- Whether the search for a last place looks at a copy of the first field, which lies behind the
  value and the pattern. -/
  copied : Bool

namespace Cutting

/-- The characters before the next null character. -/
def upToNull (cs : Raw) : Raw := cs.takeWhile (· ≠ '\x00')

/-- The first field. -/
def first (c : Cutting) : Raw := upToNull c.value

/-- What the search for a last place walks through. -/
def ground (c : Cutting) : Raw :=
  if c.copied then c.value ++ '\x00' :: c.pattern ++ '\x00' :: c.first else c.value

/-- Whether the pattern stands for what starts a number of characters before the end. -/
def fitsEnd (c : Cutting) (back : Nat) : Bool :=
  fits c.pattern (upToNull (c.ground.drop (c.ground.length - back)))

/-- Whether the pattern stands for what ends a number of characters before the end. A search that has
left the copy ends the pattern instead. -/
def fitsStart (c : Cutting) (back : Nat) : Bool :=
  if !c.copied then fits c.pattern (c.first.take (c.value.length - back))
  else
    let beyond := back - c.first.length
    if beyond ≤ 1 then fits c.pattern (c.first.take (c.first.length - back))
    else fits (c.pattern.take (c.pattern.length + 1 - beyond)) c.first

/-- The place from which on a value is cut off at its end. The search for a first place looks at the
first field only. -/
def endPlace? (c : Cutting) (longest : Bool) : Option Nat :=
  if longest then
    (List.range (c.first.length + 1)).find? fun n => fits c.pattern (c.first.drop n)
  else
    ((List.range (c.value.length + 1)).find? c.fitsEnd).map (c.value.length - ·)

/-- The place up to which a value is cut off at its start. The search for a first place looks at the
first field only. -/
def startPlace? (c : Cutting) (longest : Bool) : Option Nat :=
  if longest then
    ((List.range (c.value.length + 1)).find? c.fitsStart).map (c.value.length - ·)
  else
    (List.range (c.first.length + 1)).find? fun n => fits c.pattern (c.first.take n)

end Cutting

/-! ## Paths -/

/-- Whether brackets that a text is behind are closed before the next slash. -/
def closesBracket : Nat → Raw → Bool
  | 0, _ => false
  | fuel + 1, cs =>
    match (match cs with
      | '\\' :: rest => rest
      | cs => cs) with
    | [] | '/' :: _ => false
    | _ :: ']' :: _ => true
    | _ :: rest => closesBracket fuel rest

/-- A pattern of a path, cut at the first name in it that stands for others. -/
structure Cut where
  /-- What is before the name. -/
  before : Raw
  name : Raw
  /-- What is behind the slash that ends the name, if there is one. -/
  behind : Option Raw

/-- Cuts a pattern of a path. The texts are what was read so far, in reverse. -/
def cutFrom : Nat → Raw → Raw → Bool → Raw → Option Cut
  | 0, _, _, _, _ => none
  | _, before, name, special, [] =>
    if special then some ⟨before.reverse, name.reverse, none⟩ else none
  | fuel + 1, before, name, special, c :: cs =>
    let slash (rest : Raw) (whole : Raw) : Option Cut :=
      if special then some ⟨before.reverse, name.reverse, some rest⟩
      else cutFrom fuel (whole.reverse ++ name ++ before) [] false rest
    match c, cs with
    | '\\', '/' :: rest => slash rest ['\\', '/']
    | '/', rest => slash rest ['/']
    | '\\', d :: rest => cutFrom fuel before (d :: c :: name) special rest
    | '[', _ =>
      let inside := match cs with
        | '!' :: rest => rest
        | rest => rest
      cutFrom fuel before (c :: name) (special || closesBracket (inside.length + 1) inside) cs
    | _, _ => cutFrom fuel before (c :: name) (special || c = '*' || c = '?') cs

/-- The text of a pattern in which nothing stands for anything else. -/
def literal : Raw → Raw
  | '\\' :: c :: cs => c :: literal cs
  | c :: cs => c :: literal cs
  | [] => []

/-- The paths of the files that a pattern stands for, behind the path of a directory. `fuel` bounds
the number of names. -/
def pathsFrom (fs : FileSystem) (directory : Location) : Nat → Raw → Raw → List Raw
  | 0, _, _ => []
  | fuel + 1, start, pattern =>
    match cutFrom (pattern.length + 1) [] [] false pattern with
    | none =>
      let path := start ++ literal pattern
      if !start.isEmpty && fs.entryExists directory (Raw.toText path) then [path] else []
    | some cut =>
      let start := start ++ literal cut.before
      match fs.list directory (if start.isEmpty then "." else Raw.toText start) with
      | .error _ => []
      | .ok names =>
        let hidden := (literal cut.name).head? = some '.'
        let found := ([".", ".."] ++ names).filter fun name =>
          (hidden || name.toList.head? ≠ some '.') && fits cut.name (Raw.ofText name)
        found.flatMap fun name =>
          match cut.behind with
          | none => [start ++ Raw.ofText name]
          | some rest => pathsFrom fs directory fuel (start ++ Raw.ofText name ++ ['/']) rest

/-- Puts a text in its place among ascending ones. -/
def insertSorted (a : Raw) : List Raw → List Raw
  | [] => [a]
  | b :: bs => if a < b then a :: b :: bs else b :: insertSorted a bs

/-- The paths of the files that a pattern stands for, in order. -/
def paths (fs : FileSystem) (directory : Location) (pattern : Raw) : List Raw :=
  (pathsFrom fs directory (pattern.length + 1) [] pattern).foldr insertSorted []

end Pattern

end CommandShell.Script
