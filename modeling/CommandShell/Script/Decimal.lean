import CommandShell.Script.Scope

/-!
# Fractional numbers in scripts

The numbers with a point that `printf` reads and writes. Each of them that is finite is a decimal
number with finitely many digits, so that writing it with fewer digits is rounding one natural number
by another.
-/

namespace CommandShell.Script

/-- A decimal number: its digits as one number, of which some are behind the point. -/
structure Decimal where
  negative : Bool
  digits : Nat
  /-- The number of digits behind the point. -/
  places : Nat
  deriving DecidableEq

/-- A quotient rounded to the nearest number; a half goes to the even neighbour. -/
def roundedQuotient (n d : Nat) : Nat :=
  let q := n / d
  let twice := 2 * (n % d)
  if twice < d || (twice = d && q % 2 = 0) then q else q + 1

/-- The value of a number with a point. -/
inductive Fraction
  | finite (d : Decimal)
  | infinite (negative : Bool)
  /-- No number at all. -/
  | noNumber (negative : Bool)
  deriving DecidableEq

namespace Fraction

/-- The number of bits of a fraction behind its first. -/
def fractionBits : Nat := 52

/-- What the exponent of a fraction is greater by than the power of two that it stands for. -/
def bias : Nat := 1075

/-- The significand and the power of two of a float, by its bits. -/
def parts (bits : Nat) : Nat × Nat :=
  let exponent := bits / Nat.pow 2 fractionBits % 2048
  let significand := bits % Nat.pow 2 fractionBits
  if exponent = 0 then (significand, 1) else (significand + Nat.pow 2 fractionBits, exponent)

/-- The value of a float. -/
def ofFloat (x : Float) : Fraction :=
  let bits := x.toBits.toNat
  let negative : Bool := bits / Nat.pow 2 63 = 1
  let (significand, exponent) := parts bits
  if exponent = 2047 then
    if significand = Nat.pow 2 fractionBits then .infinite negative else .noNumber negative
  else if bias ≤ exponent then .finite ⟨negative, significand * Nat.pow 2 (exponent - bias), 0⟩
  else .finite ⟨negative, significand * Nat.pow 5 (bias - exponent), bias - exponent⟩

end Fraction

namespace Decimal

/-- The digits of a number without a point. -/
def digitsOf (n : Nat) : Raw := Nat.toDigits 10 n

/-- Fills up with zeros at the left. -/
def filled (count : Nat) (cs : Raw) : Raw := List.replicate (count - cs.length) '0' ++ cs

/-- Puts a point before the last digits. `always` says that the point stands even without digits
behind it. -/
def withPoint (always : Bool) (places : Nat) (n : Nat) : Raw :=
  let digits := filled (places + 1) (digitsOf n)
  let whole := digits.take (digits.length - places)
  let point : Raw := if places = 0 && !always then [] else ['.']
  whole ++ point ++ digits.drop (digits.length - places)

/-- The number rounded to some places behind the point, as one number. -/
def roundTo (d : Decimal) (places : Nat) : Nat :=
  if d.places ≤ places then d.digits * Nat.pow 10 (places - d.places)
  else roundedQuotient d.digits (Nat.pow 10 (d.places - places))

/-- The magnitude with some places behind the point. -/
def fixed (d : Decimal) (always : Bool) (places : Nat) : Raw :=
  withPoint always places (d.roundTo places)

/-- The first digit and some more behind it as one number, and the power of ten of the first. -/
def leading (d : Decimal) (more : Nat) : Nat × Int :=
  if d.digits = 0 then (0, 0)
  else
    let length := (digitsOf d.digits).length
    let power : Int := (length : Int) - 1 - d.places
    let n := if length ≤ more + 1 then d.digits * Nat.pow 10 (more + 1 - length)
      else roundedQuotient d.digits (Nat.pow 10 (length - more - 1))
    if n = Nat.pow 10 (more + 1) then (n / 10, power + 1) else (n, power)

/-- The power of ten of a magnitude as it is written behind the digits. -/
def powerText (power : Int) : Raw :=
  ['e', if power < 0 then '-' else '+'] ++ filled 2 (digitsOf power.natAbs)

/-- The magnitude with one digit before the point and a power of ten behind. -/
def scientific (d : Decimal) (always : Bool) (places : Nat) : Raw :=
  let (n, power) := d.leading places
  withPoint always places n ++ powerText power

/-- A text with a point without the zeros at its end. -/
def trimmed (cs : Raw) : Raw :=
  if cs.contains '.' then
    match cs.reverse.dropWhile (· = '0') with
    | '.' :: rest => rest.reverse
    | rest => rest.reverse
  else cs

/-- The magnitude with some digits, in the shorter of both ways. `full` keeps the zeros. -/
def general (d : Decimal) (full : Bool) (precision : Nat) : Raw :=
  let count := max precision 1
  let (n, power) := d.leading (count - 1)
  let cut (cs : Raw) : Raw := if full then cs else trimmed cs
  if -4 ≤ power && power < count then cut (d.fixed full (count - 1 - power).toNat)
  else cut (withPoint full (count - 1) n) ++ powerText power

end Decimal

/-! ## Hexadecimal digits -/

namespace Fraction

/-- The magnitude of a float with hexadecimal digits and a power of two behind, with as many digits
as asked for, or as many as it has. -/
def hexadecimal (x : Float) (always : Bool) (places : Option Nat) : Raw :=
  let (significand, exponent) := parts x.toBits.toNat
  let power : Int := if significand = 0 then 0 else (exponent : Int) - 1023
  let (n, count) := match places with
    | some p =>
      if p < 13 then (roundedQuotient significand (Nat.pow 16 (13 - p)), p)
      else (significand * Nat.pow 16 (p - 13), p)
    | none =>
      let digits := Decimal.filled 14 (Nat.toDigits 16 significand)
      let zeros := (digits.reverse.takeWhile (· = '0')).length
      (significand / Nat.pow 16 (min zeros 13), 13 - min zeros 13)
  let digits := Decimal.filled (count + 1) (Nat.toDigits 16 n)
  let whole := digits.take (digits.length - count)
  let point : Raw := if count = 0 && !always then [] else ['.']
  ['0', 'x'] ++ whole ++ point ++ digits.drop (digits.length - count) ++
    ['p', if power < 0 then '-' else '+'] ++ Decimal.digitsOf power.natAbs

/-! ## Reading -/

/-- The magnitude of a float that hexadecimal digits stand for, and what follows them. -/
def readHexadecimal? (cs : Raw) : Option (Float × Raw) :=
  let isHex (c : Char) : Bool := (digitValue? c).isSome
  let whole := cs.takeWhile isHex
  let behind := cs.dropWhile isHex
  let (part, rest) := match behind with
    | '.' :: ds => (ds.takeWhile isHex, ds.dropWhile isHex)
    | ds => ([], ds)
  if whole.isEmpty && part.isEmpty then none
  else
    let n := valueOf 16 (whole ++ part)
    let (power, rest) : Int × Raw := match rest with
      | p :: ds =>
        if p = 'p' || p = 'P' then
          match leadingInteger? false ds with
          | some (e, after) => if ds.head?.any isSpace then (0, rest) else (e, after)
          | none => (0, rest)
        else (0, rest)
      | [] => (0, [])
    some (Float.scaleB (Float.ofNat n) (power - 4 * part.length), rest)

/-- The magnitude of a float that decimal digits stand for, and what follows them. -/
def readDecimal? (cs : Raw) : Option (Float × Raw) :=
  let whole := cs.takeWhile Char.isDigit
  let behind := cs.dropWhile Char.isDigit
  let (part, rest) := match behind with
    | '.' :: ds => (ds.takeWhile Char.isDigit, ds.dropWhile Char.isDigit)
    | ds => ([], ds)
  if whole.isEmpty && part.isEmpty then none
  else
    let n := valueOf 10 (whole ++ part)
    let (power, rest) : Int × Raw := match rest with
      | e :: ds =>
        if e = 'e' || e = 'E' then
          match leadingInteger? false ds with
          | some (e, after) => if ds.head?.any isSpace then (0, rest) else (e, after)
          | none => (0, rest)
        else (0, rest)
      | [] => (0, [])
    let power := power - part.length
    let length := (Decimal.digitsOf n).length
    let x : Float :=
      if n = 0 || power + length < -400 then 0
      else if 400 < power + length then 1 / 0
      else if power < 0 then Float.ofScientific n true power.natAbs
      else Float.ofScientific n false power.toNat
    some (x, rest)

/-- The text behind a word that starts another, whatever the case of its letters. -/
def behindWord? (word : String) (cs : Raw) : Option Raw :=
  if (cs.take word.length).map Char.toLower = word.toList then some (cs.drop word.length) else none

/-- The float at the start of a text, behind blanks, and what follows it. -/
def read? (cs : Raw) : Option (Float × Raw) :=
  let cs := cs.dropWhile isSpace
  let (negative, cs) := match cs with
    | '-' :: ds => (true, ds)
    | '+' :: ds => (false, ds)
    | ds => (false, ds)
  let magnitude? : Option (Float × Raw) :=
    match behindWord? "infinity" cs, behindWord? "inf" cs, behindWord? "nan" cs, behindWord? "0x" cs
      with
    | some rest, _, _, _ => some (1 / 0, rest)
    | _, some rest, _, _ => some (1 / 0, rest)
    | _, _, some rest, _ => some (0 / 0, rest)
    | _, _, _, some rest =>
      match readHexadecimal? rest with
      | some r => some r
      | none => readDecimal? cs
    | _, _, _, _ => readDecimal? cs
  magnitude?.map fun (x, rest) =>
    let plain := Float.ofBits (x.toBits &&& 0x7FFFFFFFFFFFFFFF)
    (if negative then Float.ofBits (plain.toBits ||| 0x8000000000000000) else plain, rest)

end Fraction

end CommandShell.Script
