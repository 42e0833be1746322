import CommandShell.Script.Command

/-!
# Quoted text

How the values of variables and the texts of aliases are shown, so that a script can read them back:
between single quotes, except for single quotes, which stand between double ones. Programs show the
names of files in messages in a way of their own, and only between quotes where there is need.
-/

namespace CommandShell.Script

namespace Quote

/-- A text between quotes. `fuel` bounds the number of runs of single quotes. -/
def quotedFrom : Nat → Raw → Raw
  | 0, _ => []
  | fuel + 1, cs =>
    let plain := cs.takeWhile (· ≠ '\'')
    let shown := ['\''] ++ plain ++ ['\'']
    match cs.dropWhile (· ≠ '\'') with
    | [] => shown
    | rest =>
      let marks := rest.takeWhile (· = '\'')
      let shown := shown ++ ['"'] ++ marks ++ ['"']
      match rest.dropWhile (· = '\'') with
      | [] => shown
      | rest => shown ++ quotedFrom fuel rest

/-- A text between quotes. -/
def quoted (cs : Raw) : Raw := quotedFrom (cs.length + 1) cs

/-! ## Names of files -/

/-- Whether a character can be seen. -/
def isVisible (c : Char) : Bool := 32 ≤ c.toNat && c.toNat ≤ 126

/-- Whether a name has to stand between quotes because of a character in it. -/
def needsQuotes (c : Char) : Bool :=
  !isVisible c || " !\"$&'()*:;<=>?[\\^\x60|".toList.contains c

/-- Whether a name has to stand between quotes. -/
def nameNeedsQuotes (cs : Raw) : Bool :=
  cs.any needsQuotes ||
    match cs with
    | [] => true
    | ['\x7b'] | ['\x7d'] => true
    | c :: _ => c = '#' || c = '~'

/-- Whether a name may stand between double quotes. -/
def fitsDouble (cs : Raw) : Bool :=
  let plain (c : Char) : Bool := c.isAlphanum || " %+,-./:]_'".toList.contains c
  match cs with
  | c :: rest => (plain c || c = '#' || c = '~') && rest.all plain
  | [] => true

/-- The escape of a character that cannot be seen. -/
def escape (c : Char) : Raw :=
  match c.toNat with
  | 7 => ['\\', 'a']
  | 8 => ['\\', 'b']
  | 9 => ['\\', 't']
  | 10 => ['\\', 'n']
  | 11 => ['\\', 'v']
  | 12 => ['\\', 'f']
  | 13 => ['\\', 'r']
  | n => '\\' :: [n / 64, n / 8 % 8, n % 8].map Nat.digitChar

/-- The characters of a name between single quotes. `escaping` says that an escape precedes. -/
def nameInner (escaping : Bool) : Raw → Raw
  | [] => []
  | c :: cs =>
    if !isVisible c then
      (if escaping then [] else "'$'".toList) ++ escape c ++ nameInner true cs
    else if c = '\'' then "'\\''".toList ++ nameInner false cs
    else (if escaping then "''".toList else []) ++ c :: nameInner false cs

/-- The name of a file as programs show it. -/
def shownName (cs : Raw) : Raw :=
  if !nameNeedsQuotes cs then cs
  else if cs.contains '\'' && fitsDouble cs then '"' :: cs ++ ['"']
  else '\'' :: nameInner false cs ++ ['\'']

end Quote

end CommandShell.Script
