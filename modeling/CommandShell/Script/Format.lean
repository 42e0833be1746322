import CommandShell.Script.Decimal

/-!
# Escapes and formats of scripts

What `echo` and `printf` make of their arguments: backslash escapes, and conversions that stand for
arguments.
-/

namespace CommandShell.Script

/-! ## Escapes -/

/-- The value of at most three octal digits, and the text behind them. -/
def readOctal (cs : Raw) : Nat × Raw :=
  let digits := (cs.take 3).takeWhile fun c => '0' ≤ c && c ≤ '7'
  (valueOf 8 digits, cs.drop digits.length)

/-- The byte of a number as a character. -/
def byteOf (n : Nat) : Char := Char.ofNat (n % 256)

/-- The character that a letter behind a backslash stands for. -/
def escapeLetter? : Char → Option Char
  | '\\' => some '\\'
  | 'a' => some '\x07'
  | 'b' => some '\x08'
  | 'e' => some '\x1b'
  | 'f' => some '\x0c'
  | 'n' => some '\n'
  | 'r' => some '\r'
  | 't' => some '\t'
  | 'v' => some '\x0b'
  | _ => none

/-- The character that stands for a backslash with the text behind it, and what is left of that
text. -/
def readEscape (cs : Raw) : Char × Raw :=
  match cs with
  | [] => ('\\', [])
  | c :: rest =>
    match escapeLetter? c with
    | some d => (d, rest)
    | none =>
      if '0' ≤ c && c ≤ '7' then
        let (n, rest) := readOctal cs
        (byteOf n, rest)
      else ('\\', cs)

/-- Replaces the escapes in an argument. The second value says that the output ends here. The text
so far is in reverse, and `fuel` bounds the length of what is left. -/
def unescapeFrom : Nat → Raw → Raw → Raw × Bool
  | 0, soFar, _ => (soFar.reverse, false)
  | _, soFar, [] => (soFar.reverse, false)
  | fuel + 1, soFar, '\\' :: cs =>
    match cs with
    | 'c' :: _ => (soFar.reverse, true)
    | '0' :: rest =>
      let (n, rest) := readOctal rest
      unescapeFrom fuel (byteOf n :: soFar) rest
    | _ =>
      let (c, rest) := readEscape cs
      unescapeFrom fuel (c :: soFar) rest
  | fuel + 1, soFar, c :: cs => unescapeFrom fuel (c :: soFar) cs

/-- Replaces the escapes in an argument. -/
def unescape (cs : Raw) : Raw × Bool := unescapeFrom (cs.length + 1) [] cs

/-- What `echo` writes. -/
def echoed (arguments : List Raw) : Raw :=
  let (newline, words) := match arguments with
    | ['-', 'n'] :: words => (false, words)
    | words => (true, words)
  let (text, ends) := unescape (words.intersperse [' ']).flatten
  if ends || !newline then text else text ++ ['\n']

/-! ## Conversions -/

/-- A part of a format that stands for an argument. -/
structure Conversion where
  /-- Whether the value stands at the left. -/
  left : Bool
  /-- Whether numbers are filled up with zeros. -/
  zeros : Bool
  /-- Whether numbers that are not negative have a plus sign. -/
  plus : Bool
  /-- Whether numbers that are not negative have a blank in the place of the sign. -/
  blank : Bool
  /-- Whether the other form of a number is written. -/
  alternate : Bool
  width : Nat
  precision : Option Nat
  letter : Char

namespace Conversion

/-- Fills a value up to the width. -/
def pad (c : Conversion) (value : Raw) : Raw :=
  let missing := List.replicate (c.width - value.length) ' '
  if c.left then value ++ missing else missing ++ value

/-- What is written for a text. -/
def text (c : Conversion) (value : Raw) : Raw :=
  c.pad (match c.precision with
    | some n => value.take n
    | none => value)

/-- The sign of a number. -/
def sign (c : Conversion) (negative : Bool) : Raw :=
  if negative then ['-'] else if c.plus then ['+'] else if c.blank then [' '] else []

/-- Fills a number up, between its sign and its digits if zeros are asked for. -/
def padNumber (c : Conversion) (zeros : Bool) (sign digits : Raw) : Raw :=
  if zeros && !c.left then
    sign ++ List.replicate (c.width - digits.length - sign.length) '0' ++ digits
  else c.pad (sign ++ digits)

/-- Digits with as many zeros before them as the precision asks for. -/
def precise (c : Conversion) (isZero : Bool) (digits : Raw) : Raw :=
  if isZero && c.precision = some 0 then [] else Decimal.filled (c.precision.getD 1) digits

/-- What is written for an integer with a sign. -/
def signed (c : Conversion) (n : Int) : Raw :=
  c.padNumber (c.zeros && c.precision.isNone) (c.sign (n < 0))
    (c.precise (n = 0) (Decimal.digitsOf n.natAbs))

/-- What is written for an integer without a sign. -/
def unsigned (c : Conversion) (n : Nat) : Raw :=
  let isHex := c.letter = 'x' || c.letter = 'X'
  let base := if c.letter = 'o' then 8 else if isHex then 16 else 10
  let digits := c.precise (n = 0) (Nat.toDigits base n)
  let digits := if c.letter = 'X' then digits.map Char.toUpper else digits
  let digits := if c.alternate && c.letter = 'o' && digits.head? ≠ some '0' then '0' :: digits
    else digits
  let start : Raw := if c.alternate && isHex && n ≠ 0 then ['0', c.letter] else []
  c.padNumber (c.zeros && c.precision.isNone) start digits

/-- What is written for a fractional number. -/
def fractional (c : Conversion) (x : Float) : Raw :=
  let small := c.letter.toLower
  let upper (cs : Raw) : Raw := if small = c.letter then cs else cs.map Char.toUpper
  match Fraction.ofFloat x with
  | .infinite negative => c.pad (c.sign negative ++ upper "inf".toList)
  | .noNumber negative => c.pad (c.sign negative ++ upper "nan".toList)
  | .finite d =>
    let precision := c.precision.getD 6
    if small = 'a' then
      let digits := upper (Fraction.hexadecimal x c.alternate c.precision)
      c.padNumber c.zeros (c.sign d.negative ++ digits.take 2) (digits.drop 2)
    else
      let digits :=
        if small = 'f' then d.fixed c.alternate precision
        else if small = 'e' then d.scientific c.alternate precision
        else d.general c.alternate precision
      c.padNumber c.zeros (c.sign d.negative) (upper digits)

end Conversion

/-! ## Formats -/

/-- What `printf` has written. -/
structure Printed where
  /-- The pieces so far, the last one first. -/
  pieces : List Raw
  /-- The arguments that are left. -/
  arguments : List Raw
  /-- Whether the output ends here. -/
  ends : Bool
  /-- What was wrong with arguments. -/
  complaints : List Raw
  /-- What is wrong with the format. -/
  failure : Option Raw

namespace Printed

/-- Adds a piece. -/
def add (p : Printed) (piece : Raw) : Printed := { p with pieces := piece :: p.pieces }

/-- The text so far. -/
def text (p : Printed) : Raw := p.pieces.reverse.flatten

/-- Notes that an argument is no proper number. `rest` is what is left of it, and `fits` says that it
is in range. -/
def check (p : Printed) (argument rest : Raw) (fits : Bool) : Printed :=
  let complain (text : String) : Printed :=
    { p with complaints := p.complaints ++ [argument ++ ": ".toList ++ text.toList] }
  if !rest.isEmpty then
    complain (if rest = argument then "expected numeric value" else "not completely converted")
  else if fits then p
  else complain "Numerical result out of range"

/-- Takes an argument that stands for a number: it is read as one, unless it starts with a quotation
mark and stands for the character behind. -/
def takeNumber {α : Type} (p : Printed) (zero : α) (ofChar : Char → α)
    (read : Raw → α × Raw × Bool) : α × Printed :=
  match p.arguments with
  | [] => (zero, p)
  | argument :: rest =>
    let p := { p with arguments := rest }
    match argument with
    | c :: cs =>
      if c = '"' || c = '\'' then (ofChar (cs.headD '\x00'), p)
      else
        let (n, rest, fits) := read argument
        (n, p.check argument rest fits)
    | [] => (zero, p)

/-- Takes an argument that stands for an integer with a sign. -/
def takeSigned (p : Printed) : Int × Printed :=
  p.takeNumber 0 (fun c => (c.toNat : Int)) fun argument =>
    match leadingInteger? true argument with
    | none => (0, argument, true)
    | some (n, rest) =>
      let held := max (-greatestNumber - 1) (min n greatestNumber)
      (held, rest, held = n)

/-- Takes an argument that stands for an integer without a sign. -/
def takeUnsigned (p : Printed) : Nat × Printed :=
  p.takeNumber 0 Char.toNat fun argument =>
    match leadingInteger? true argument with
    | none => (0, argument, true)
    | some (n, rest) =>
      if n.natAbs < wordLimit then ((n % wordLimit).toNat, rest, true)
      else (wordLimit - 1, rest, false)

/-- Takes an argument that stands for a number with a point. -/
def takeFractional (p : Printed) : Float × Printed :=
  p.takeNumber 0 (fun c => Float.ofNat c.toNat) fun argument =>
    match Fraction.read? argument with
    | none => (0, argument, true)
    | some (x, rest) =>
      let digits := argument.takeWhile fun c => c ≠ 'e' && c ≠ 'E'
      let isZero := !digits.any fun c => '1' ≤ c && c ≤ '9'
      let magnitude := x.abs
      let named := argument.any fun c => c = 'n' || c = 'N'
      (x, rest, named || isZero || (magnitude < 1 / 0 && 2.2250738585072014e-308 ≤ magnitude))

/-- Takes an argument that stands for itself. -/
def takeText (p : Printed) : Raw × Printed :=
  (p.arguments.headD [], { p with arguments := p.arguments.drop 1 })

/-- Writes what a conversion stands for. `source` is the conversion as it is written. -/
def convert (p : Printed) (c : Conversion) (source : Raw) : Printed :=
  match c.letter with
  | 's' =>
    let (argument, p) := p.takeText
    p.add (c.text argument)
  | 'c' =>
    let (argument, p) := p.takeText
    p.add (c.pad [argument.headD '\x00'])
  | 'b' =>
    let (argument, p) := p.takeText
    let (value, ends) := unescape argument
    { p.add (c.text value) with ends := ends }
  | 'd' | 'i' =>
    let (n, p) := p.takeSigned
    p.add (c.signed n)
  | 'o' | 'u' | 'x' | 'X' =>
    let (n, p) := p.takeUnsigned
    p.add (c.unsigned n)
  | 'a' | 'A' | 'e' | 'E' | 'f' | 'F' | 'g' | 'G' =>
    let (x, p) := p.takeFractional
    p.add (c.fractional x)
  | _ => { p with ends := true, failure := some (source ++ ": invalid directive".toList) }

/-- The number from which on a width or a precision is too large. -/
def countLimit : Nat := 2147483648

/-- Reads a number of a conversion, which may be an argument, of which the lowest bits count. -/
def readCount (p : Printed) (cs : Raw) : Int × Raw × Printed :=
  match cs with
  | '*' :: rest =>
    let (n, p) := p.takeSigned
    (Int.bmod n (2 * countLimit), rest, p)
  | _ => (Raw.digitsValue (cs.takeWhile Char.isDigit), cs.dropWhile Char.isDigit, p)

/-- Reads a conversion behind its percent sign and writes what it stands for. -/
def directive (p : Printed) (cs : Raw) : Raw × Printed :=
  let isFlag (c : Char) : Bool := ['-', '0', ' ', '+', '#'].contains c
  let flags := cs.takeWhile isFlag
  let (width, behind, p) := p.readCount (cs.dropWhile isFlag)
  let (precision, rest, p) : Option Nat × Raw × Printed := match behind with
    | '.' :: ds =>
      let (n, rest, p) := p.readCount ds
      (if n < 0 then none else some n.toNat, rest, p)
    | ds => (none, ds, p)
  match rest with
  | [] => ([], { p with ends := true, failure := some "missing format character".toList })
  | letter :: rest =>
    let c : Conversion :=
      { left := flags.contains '-' || width < 0
        zeros := flags.contains '0'
        plus := flags.contains '+'
        blank := flags.contains ' '
        alternate := flags.contains '#'
        width := width.natAbs
        precision := precision
        letter := letter }
    let source := '%' :: cs.take (cs.length - rest.length)
    if c.width < countLimit && c.precision.getD 0 < countLimit then (rest, p.convert c source)
    else
      let taken := p.convert { c with width := 0, precision := none } source
      (rest, if taken.failure.isSome then taken
        else { taken with
          pieces := p.pieces
          ends := true
          failure := some "xvsnprintf failed".toList })

/-- Writes a format once. `fuel` bounds the length of the format. -/
def once : Nat → Raw → Printed → Printed
  | 0, _, p => p
  | _, [], p => p
  | fuel + 1, c :: cs, p =>
    if p.ends then p
    else
      match c, cs with
      | '\\', _ =>
        let (c, rest) := readEscape cs
        once fuel rest (p.add [c])
      | '%', '%' :: rest => once fuel rest (p.add ['%'])
      | '%', _ =>
        let (rest, p) := p.directive cs
        once fuel rest p
      | _, _ => once fuel cs (p.add [c])

/-- Writes a format again and again, until the arguments are used up. `fuel` bounds the number of
arguments. -/
def all : Nat → Raw → Printed → Printed
  | 0, _, p => p
  | fuel + 1, format, p =>
    let next := once (format.length + 1) format p
    if next.ends || next.arguments.isEmpty || next.arguments.length = p.arguments.length then next
    else all fuel format next

end Printed

/-- What `printf` makes of a format and arguments. -/
def printed (format : Raw) (arguments : List Raw) : Printed :=
  Printed.all (arguments.length + 1) format ⟨[], arguments, false, [], none⟩

end CommandShell.Script
