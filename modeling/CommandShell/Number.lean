/-!
# Decimal numbers

Reading an unsigned number of at most 64 bits from its decimal digits, which a plus sign may
precede.
-/

namespace CommandShell

/-- The number from which on unsigned numbers do not fit. -/
def wordLimit : Nat := 18446744073709551616

/-- Why a text is no number. -/
inductive NumberFault
  | empty
  | invalidDigit
  | tooLarge
  deriving DecidableEq

/-- The text of a number fault. -/
def NumberFault.message : NumberFault → String
  | empty => "cannot parse integer from empty string"
  | invalidDigit => "invalid digit found in string"
  | tooLarge => "number too large to fit in target type"

/-- The number that decimal digits stand for, after the number `start`. Of two faults, the one that
shows first from the left wins. -/
def readDigits (start : Nat) : List Char → Except NumberFault Nat
  | [] => .ok start
  | c :: cs =>
    if !c.isDigit then .error .invalidDigit
    else
      let n := start * 10 + (c.toNat - '0'.toNat)
      if wordLimit ≤ n then .error .tooLarge else readDigits n cs

/-- The number that a text stands for. -/
def readNumber (s : String) : Except NumberFault Nat :=
  match s.toList with
  | [] => .error .empty
  | ['+'] => .error .invalidDigit
  | '+' :: cs => readDigits 0 cs
  | cs => readDigits 0 cs

end CommandShell
