import CommandShell.Number
import CommandShell.Script.Command
import CommandShell.Table

/-!
# What scripts refer to

The variables of a script, its parameters and its options, and the numbers that it reads and writes.
-/

namespace CommandShell.Script

/-! ## Numbers -/

/-- Arithmetic is on 64 bits and wraps around. -/
def wrap (n : Int) : Int := Int.bmod n wordLimit

/-- The greatest number of 64 bits with a sign. -/
def greatestNumber : Int := 9223372036854775807

/-- Whether a character is a blank between numbers. -/
def isSpace (c : Char) : Bool := c = ' ' || (9 ≤ c.toNat && c.toNat ≤ 13)

/-- The value of a digit in bases up to 16. -/
def digitValue? (c : Char) : Option Nat :=
  let n := c.toNat
  if c.isDigit then some (n - 48)
  else if 97 ≤ n && n ≤ 102 then some (n - 87)
  else if 65 ≤ n && n ≤ 70 then some (n - 55)
  else none

/-- The digits of a base at the start of a text. -/
def digitsOf (base : Nat) (cs : Raw) : Raw :=
  cs.takeWhile fun c => (digitValue? c).any (· < base)

/-- The number that digits of a base stand for. -/
def valueOf (base : Nat) (digits : Raw) : Nat :=
  digits.foldl (fun n c => n * base + (digitValue? c).getD 0) 0

/-- The number at the start of a text, and what follows it. With `based`, a leading zero means octal
digits, and a zero and an x hexadecimal ones. -/
def leadingNatural? (based : Bool) (cs : Raw) : Option (Nat × Raw) :=
  let plain (base : Nat) (cs : Raw) : Option (Nat × Raw) :=
    let digits := digitsOf base cs
    if digits.isEmpty then none else some (valueOf base digits, cs.drop digits.length)
  match based, cs with
  | true, '0' :: x :: rest =>
    if (x = 'x' || x = 'X') && !(digitsOf 16 rest).isEmpty then plain 16 rest else plain 8 cs
  | true, '0' :: _ => plain 8 cs
  | _, _ => plain 10 cs

/-- A number with a sign at the start of a text, behind blanks, and what follows it. -/
def leadingInteger? (based : Bool) (cs : Raw) : Option (Int × Raw) :=
  let cs := cs.dropWhile isSpace
  let (negative, rest) := match cs with
    | '-' :: ds => (true, ds)
    | '+' :: ds => (false, ds)
    | ds => (false, ds)
  (leadingNatural? based rest).map fun (n, rest) => (if negative then -(n : Int) else n, rest)

/-- Whether a number has 64 bits. -/
def fits (n : Int) : Bool := -greatestNumber - 1 ≤ n && n ≤ greatestNumber

/-- The number that a text stands for, which blanks may surround. -/
def integer? (cs : Raw) : Option Int :=
  match leadingInteger? false cs with
  | some (n, rest) => if rest.all isSpace && fits n then some n else none
  | none => none

/-- The greatest number that an argument may be. -/
def greatestArgument : Int := 2147483647

/-- The number that an argument stands for. -/
def number? (cs : Raw) : Option Nat :=
  match integer? cs with
  | some n => if n < 0 || greatestArgument < n then none else some n.toNat
  | none => none

/-! ## Variables -/

/-- A variable. One without a value may still be marked. -/
structure Variable where
  value : Option Raw
  /-- Whether programs inherit it. -/
  exported : Bool
  /-- Whether it may not be changed. -/
  constant : Bool
  deriving DecidableEq

/-- What is kept of something that is changed for a while. -/
inductive Kept
  | variable (name : Raw) (before : Option Variable)
  | options (before : List String)
  deriving DecidableEq

/-- What the words of a script refer to. -/
structure Scope where
  /-- The name that the script was started by. -/
  name : Raw
  parameters : List Raw
  bindings : List (Raw × Variable)
  /-- The status of the last command. -/
  status : Nat
  /-- The options that are set. -/
  options : List String
  /-- The number of the script's process. -/
  number : Nat
  /-- The number of the last process in the background, zero if there is none. -/
  background : Nat
  /-- What is changed for a while only, the innermost first. -/
  kept : List (List Kept)
  /-- How far `getopts` has come: the next parameter, and the letters of it that are done. -/
  optionPlace : Nat × Nat
  deriving DecidableEq

/-- The options of scripts with their letters, in order. -/
def optionTable : List (String × Option Char) :=
  [("errexit", some 'e'), ("noglob", some 'f'), ("ignoreeof", some 'I'), ("interactive", some 'i'),
    ("monitor", some 'm'), ("noexec", some 'n'), ("stdin", some 's'), ("xtrace", some 'x'),
    ("verbose", some 'v'), ("vi", some 'V'), ("emacs", some 'E'), ("noclobber", some 'C'),
    ("allexport", some 'a'), ("notify", some 'b'), ("nounset", some 'u'), ("privileged", some 'p'),
    ("nolog", none), ("debug", none)]

namespace Scope

/-- Whether an option is set. -/
def has (s : Scope) (option : String) : Bool := s.options.contains option

/-- Sets an option, or takes it back. -/
def setOption (s : Scope) (option : String) (on : Bool) : Scope :=
  let others := s.options.filter (· ≠ option)
  { s with options := if on then option :: others else others }

/-- The letters of the options that are set, the last of the table first. -/
def optionLetters (s : Scope) : Raw :=
  (optionTable.filterMap fun o => if s.has o.1 then o.2 else none).reverse

/-- The value of a variable. -/
def value? (s : Scope) (name : Raw) : Option Raw :=
  (s.bindings.lookup name).bind Variable.value

/-- Why a variable cannot be changed. -/
def constantFault (name : Raw) : Raw := name ++ ": is read only".toList

/-- Why a text is not taken for a number. -/
def numberFault (text : Raw) : Raw := "Illegal number: ".toList ++ text

/-- The variable that tells how far `getopts` has come. -/
def placeName : Raw := "OPTIND".toList

/-- How far `getopts` has come when a variable has been given a value. -/
def placeAfter (s : Scope) (name value : Raw) : Except Raw (Nat × Nat) :=
  if name = placeName then
    match number? value with
    | some n => .ok (n.max 1, 0)
    | none => .error (numberFault value)
  else .ok s.optionPlace

/-- Gives a variable a value, unless it is constant. -/
def assign (s : Scope) (name value : Raw) : Except Raw Scope :=
  let v := (s.bindings.lookup name).getD ⟨none, false, false⟩
  if v.constant then .error (constantFault name)
  else
    match s.placeAfter name value with
    | .error f => .error f
    | .ok place =>
      let exported := v.exported || s.has "allexport"
      .ok { s with
        bindings := Table.set name { v with value := some value, exported := exported } s.bindings
        optionPlace := place }

/-- Gives something that ought to be the name of a variable a value. An equals sign ends the name. -/
def assignNamed (s : Scope) (text value : Raw) : Except Raw Scope :=
  let name := text.takeWhile (· ≠ '=')
  if isName name then s.assign name value else .error (name ++ ": bad variable name".toList)

/-- The variables that are there even without a value. -/
def lastingNames : List Raw :=
  ["IFS", "MAIL", "MAILPATH", "OPTIND", "PATH", "PS1", "PS2", "PS4"].map String.toList

/-- Whether a variable stays what it is otherwise when its value is taken away. -/
def isLasting (s : Scope) (name : Raw) : Bool :=
  lastingNames.contains name ||
    s.kept.any fun ks => ks.any fun
      | .variable other _ => other = name
      | .options _ => false

/-- Takes a variable away, unless it is constant. -/
def unset (s : Scope) (name : Raw) : Except Raw Scope :=
  match s.bindings.lookup name with
  | none => .ok s
  | some v =>
    if v.constant then .error (constantFault name)
    else
      .ok { s with bindings :=
        if s.isLasting name then Table.set name { v with value := none } s.bindings
        else s.bindings.filter (·.1 ≠ name) }

/-- Marks a variable. -/
def mark (s : Scope) (name : Raw) (change : Variable → Variable) : Scope :=
  let v := (s.bindings.lookup name).getD ⟨none, s.has "allexport", false⟩
  { s with bindings := Table.set name (change v) s.bindings }

/-- The variables that programs inherit. -/
def exported (s : Scope) : List (Raw × Raw) :=
  s.bindings.filterMap fun (name, v) =>
    if v.exported then v.value.map fun value => (name, value) else none

/-- The separators of fields. -/
def separators (s : Scope) : Raw := (s.value? "IFS".toList).getD [' ', '\t', '\n']

/-- The value of a parameter that has a single one. -/
def parameter? (s : Scope) (name : Raw) : Option Raw :=
  match name with
  | ['#'] => some (Raw.ofInt s.parameters.length)
  | ['?'] => some (Raw.ofInt s.status)
  | ['$'] => some (Raw.ofInt s.number)
  | ['-'] => some s.optionLetters
  | ['!'] => if s.background = 0 then none else some (Raw.ofInt s.background)
  | c :: _ =>
    if c.isDigit then
      match Raw.digitsValue name with
      | 0 => some s.name
      | n + 1 => s.parameters[n]?
    else s.value? name
  | [] => none

/-! ## Changes for a while -/

/-- Starts a while. -/
def keep (s : Scope) : Scope := { s with kept := [] :: s.kept }

/-- Notes something that is changed for a while. -/
def note (s : Scope) (k : Kept) : Scope :=
  match s.kept with
  | ks :: rest => { s with kept := (k :: ks) :: rest }
  | [] => { s with kept := [[k]] }

/-- Puts something back. -/
def putBack (s : Scope) : Kept → Scope
  | .options before => { s with options := before }
  | .variable name (some v) =>
    let place := (s.placeAfter name (v.value.getD [])).toOption.getD s.optionPlace
    { s with bindings := Table.set name v s.bindings, optionPlace := place }
  | .variable name none => { s with bindings := s.bindings.filter (·.1 ≠ name) }

/-- Ends a while: what was changed in it is as before. -/
def restore (s : Scope) : Scope :=
  match s.kept with
  | ks :: rest => ks.foldl putBack { s with kept := rest }
  | [] => s

/-- Gives a variable a value for a while. Without a value it keeps the one that it has. -/
def assignLocal (s : Scope) (name : Raw) (value : Option Raw) (exported : Bool) :
    Except Raw Scope := do
  let before := s.bindings.lookup name
  if value.isNone && before.isNone && !isName name then
    throw (name ++ ": bad variable name".toList)
  let s := s.note (.variable name before)
  match value with
  | none => return if before.isSome then s else s.mark name id
  | some value =>
    let s ← s.assign name value
    return if exported then s.mark name fun v => { v with exported := true } else s

end Scope

end CommandShell.Script
