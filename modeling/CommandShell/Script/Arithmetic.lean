import CommandShell.Script.Scope

/-!
# Arithmetic of scripts

Expressions on numbers of 64 bits, with the operators and precedences of the C language. Evaluating
one may assign variables. What is not needed for the value, behind `&&`, `||` and `?`, is read but
not evaluated.
-/

namespace CommandShell.Script

/-- Why a script cannot go on. -/
inductive Failure
  /-- A message says so. -/
  | message (text : Raw)
  /-- A signal ends it. -/
  | signal (number : Nat)
  deriving DecidableEq

namespace Arithmetic

/-- The signal for a division that has no result. -/
def divisionSignal : Nat := 8

/-- The operators with two operands, with the rank of each: a lower one binds more. -/
def operators : List (String × Nat) :=
  [("*", 0), ("/", 0), ("%", 0), ("+", 1), ("-", 1), ("<<", 2), (">>", 2), ("<=", 3), (">=", 3),
    ("<", 3), (">", 3), ("==", 4), ("!=", 4), ("&", 5), ("^", 6), ("|", 7)]

/-- The rank that binds less than all operators. -/
def lastRank : Nat := 8

/-- The operators that assign, with what they do before. -/
def assigning : List (String × Option String) :=
  [("=", none), ("*=", some "*"), ("/=", some "/"), ("%=", some "%"), ("+=", some "+"),
    ("-=", some "-"), ("<<=", some "<<"), (">>=", some ">>"), ("&=", some "&"), ("^=", some "^"),
    ("|=", some "|")]

/-- All signs, longer ones before those that they start with. -/
def signs : List String :=
  ["<<=", ">>=", "*=", "/=", "%=", "+=", "-=", "&=", "^=", "|=", "==", "!=", "<=", ">=", "<<", ">>",
    "&&", "||", "=", "*", "/", "%", "+", "-", "<", ">", "&", "^", "|", "!", "~", "(", ")", "?", ":"]

/-- A part of an expression. -/
inductive Piece
  | number (n : Int)
  | variable (name : Raw)
  | sign (characters : String)
  | unknown
  deriving DecidableEq

/-- Cuts a text into pieces. `fuel` bounds their number. -/
def piecesFrom : Nat → Raw → List Piece
  | 0, _ => []
  | fuel + 1, cs =>
    match cs.dropWhile fun c => c = ' ' || c = '\t' || c = '\n' with
    | [] => []
    | c :: rest =>
      if c.isDigit then
        match leadingNatural? true (c :: rest) with
        | some (n, rest) => .number (min n greatestNumber) :: piecesFrom fuel rest
        | none => [.unknown]
      else if isNameStart c then
        .variable (c :: rest.takeWhile isNamePart) :: piecesFrom fuel (rest.dropWhile isNamePart)
      else
        match signs.find? fun s => s.toList.isPrefixOf (c :: rest) with
        | some s => .sign s :: piecesFrom fuel ((c :: rest).drop s.length)
        | none => [.unknown]

/-- What evaluating gives: a number, the variables behind it and the pieces that are left. -/
abbrev Outcome := Except Failure (Int × Scope × List Piece)

/-- The failure of an expression. `text` is the whole of it. -/
def fault {α : Type} (text : Raw) (reason : String) : Except Failure α :=
  .error (.message ("arithmetic expression: ".toList ++ reason.toList ++ ": \"".toList ++ text ++
    ['"']))

/-- A truth value as a number. -/
def truth (b : Bool) : Int := if b then 1 else 0

/-- The number of places that an operand shifts by. -/
def shift (n : Int) : Nat := (n % 64).toNat

/-- The bits of a number. -/
def bits (n : Int) : BitVec 64 := BitVec.ofInt 64 n

/-- The value of an operator. -/
def apply (text : Raw) (operator : String) (a b : Int) : Except Failure Int :=
  match operator with
  | "*" => .ok (wrap (a * b))
  | "+" => .ok (wrap (a + b))
  | "-" => .ok (wrap (a - b))
  | "<<" => .ok (wrap (a * Int.pow 2 (shift b)))
  | ">>" => .ok (a / Int.pow 2 (shift b))
  | "<=" => .ok (truth (a ≤ b))
  | ">=" => .ok (truth (b ≤ a))
  | "<" => .ok (truth (a < b))
  | ">" => .ok (truth (b < a))
  | "==" => .ok (truth (a = b))
  | "!=" => .ok (truth (a ≠ b))
  | "&" => .ok (bits a &&& bits b).toInt
  | "^" => .ok (bits a ^^^ bits b).toInt
  | "|" => .ok (bits a ||| bits b).toInt
  | _ =>
    if b = 0 then fault text "division by zero"
    else if b = -1 && a = -greatestNumber - 1 then .error (.signal divisionSignal)
    else .ok (if operator = "/" then a.tdiv b else a.tmod b)

/-- The number that a variable holds; zero if it holds nothing. -/
def valueOf (s : Scope) (name : Raw) : Except Failure Int :=
  let value := (s.value? name).getD []
  let illegal : Except Failure Int := .error (.message ("Illegal number: ".toList ++ value))
  match leadingInteger? true value with
  | some (n, rest) => if rest.all isSpace && fits n then .ok n else illegal
  | none => if value.all isSpace then .ok 0 else illegal

/-- Gives a variable a number. -/
def assign (s : Scope) (name : Raw) (n : Int) : Except Failure Scope :=
  (s.assign name (Raw.ofInt n)).mapError .message

/-- The operator at the start of pieces, with its rank. -/
def operator? : List Piece → Option (String × Nat × List Piece)
  | .sign c :: rest => (operators.lookup c).map fun rank => (c, rank, rest)
  | _ => none

mutual

/-- Evaluates an assignment, or an expression without one. `idle` says that the value is not
needed. -/
def assignment (text : Raw) (fuel : Nat) (idle : Bool) (s : Scope) (ps : List Piece) : Outcome :=
  match fuel with
  | 0 => fault text "expecting primary"
  | fuel + 1 =>
    match ps with
    | .variable name :: .sign c :: rest =>
      match assigning.lookup c with
      | none => condition text fuel idle s ps
      | some before => do
        let (n, s, rest) ← assignment text fuel idle s rest
        if idle then return (n, s, rest)
        let n ← match before with
          | none => pure n
          | some operator => apply text operator (← valueOf s name) n
        return (n, ← assign s name n, rest)
    | _ => condition text fuel idle s ps

/-- Evaluates an expression with a condition, or one without. -/
def condition (text : Raw) (fuel : Nat) (idle : Bool) (s : Scope) (ps : List Piece) : Outcome :=
  match fuel with
  | 0 => fault text "expecting primary"
  | fuel + 1 => do
    let (a, s, rest) ← disjunction text fuel idle s ps
    match rest with
    | .sign "?" :: rest =>
      let (b, s, rest) ← assignment text fuel (idle || a = 0) s rest
      match rest with
      | .sign ":" :: rest =>
        let (c, s, rest) ← condition text fuel (idle || a ≠ 0) s rest
        return (if a ≠ 0 then b else c, s, rest)
      | _ => fault text "expecting ':'"
    | _ => return (a, s, rest)

/-- Evaluates expressions of which one has to hold. -/
def disjunction (text : Raw) (fuel : Nat) (idle : Bool) (s : Scope) (ps : List Piece) : Outcome :=
  match fuel with
  | 0 => fault text "expecting primary"
  | fuel + 1 => do
    let (a, s, rest) ← conjunction text fuel idle s ps
    match rest with
    | .sign "||" :: rest =>
      let (b, s, rest) ← disjunction text fuel (idle || a ≠ 0) s rest
      return (truth (a ≠ 0 || b ≠ 0), s, rest)
    | _ => return (a, s, rest)

/-- Evaluates expressions that all have to hold. -/
def conjunction (text : Raw) (fuel : Nat) (idle : Bool) (s : Scope) (ps : List Piece) : Outcome :=
  match fuel with
  | 0 => fault text "expecting primary"
  | fuel + 1 => do
    let (a, s, rest) ← primary text fuel idle s ps
    let (a, s, rest) ← operation text fuel idle a lastRank s rest
    match rest with
    | .sign "&&" :: rest =>
      let (b, s, rest) ← conjunction text fuel (idle || a = 0) s rest
      return (truth (a ≠ 0 && b ≠ 0), s, rest)
    | _ => return (a, s, rest)

/-- Goes on from a first operand, with the operators that bind more than the given rank. -/
def operation (text : Raw) (fuel : Nat) (idle : Bool) (a : Int) (rank : Nat) (s : Scope)
    (ps : List Piece) : Outcome :=
  match fuel with
  | 0 => fault text "expecting primary"
  | fuel + 1 =>
    match operator? ps with
    | none => .ok (a, s, ps)
    | some (operator, own, rest) =>
      if rank ≤ own then .ok (a, s, ps)
      else do
        let (b, s, rest) ← primary text fuel idle s rest
        let (b, s, rest) ← operation text fuel idle b own s rest
        let n ← if idle then pure b else apply text operator a b
        operation text fuel idle n rank s rest

/-- Evaluates a number, a variable, an expression with a sign before it or one in parentheses. -/
def primary (text : Raw) (fuel : Nat) (idle : Bool) (s : Scope) (ps : List Piece) : Outcome :=
  match fuel with
  | 0 => fault text "expecting primary"
  | fuel + 1 =>
    match ps with
    | .number n :: rest => .ok (n, s, rest)
    | .variable name :: rest => do
      let n ← if idle then pure 0 else valueOf s name
      return (n, s, rest)
    | .sign "+" :: rest => primary text fuel idle s rest
    | .sign "-" :: rest => do
      let (n, s, rest) ← primary text fuel idle s rest
      return (wrap (-n), s, rest)
    | .sign "!" :: rest => do
      let (n, s, rest) ← primary text fuel idle s rest
      return (truth (n = 0), s, rest)
    | .sign "~" :: rest => do
      let (n, s, rest) ← primary text fuel idle s rest
      return (-n - 1, s, rest)
    | .sign "(" :: rest => do
      let (n, s, rest) ← assignment text fuel idle s rest
      match rest with
      | .sign ")" :: rest => return (n, s, rest)
      | _ => fault text "expecting ')'"
    | _ => fault text "expecting primary"

end

/-- The value of an expression, and the variables behind it. -/
def evaluate (s : Scope) (text : Raw) : Except Failure (Int × Scope) := do
  let ps := piecesFrom (text.length + 1) text
  let (n, s, rest) ← assignment text (8 * ps.length + 8) false s ps
  if rest.isEmpty then return (n, s)
  fault text "expecting EOF"

end Arithmetic

end CommandShell.Script
