import CommandShell.File.Lookup
import CommandShell.Script.Scope

/-!
# Conditions in scripts

What `test` decides about texts, numbers and files. Its arguments are read from the left, with
operators that bind as usual; what an argument is depends on the arguments around it, so that texts
which look like operators can be compared too.
-/

namespace CommandShell.Script

namespace Condition

/-- What an argument is. -/
inductive Kind
  | nothing
  | operand
  /-- An operator before one operand. -/
  | unary
  /-- An operator between two operands. -/
  | binary
  | negation
  | conjunction
  | disjunction
  | opening
  | closing
  deriving DecidableEq

/-- The operators before one operand. -/
def unaryOperators : List String :=
  ["-r", "-w", "-x", "-e", "-f", "-d", "-c", "-b", "-p", "-u", "-g", "-k", "-s", "-t", "-z", "-n",
    "-h", "-O", "-G", "-L", "-S"]

/-- The operators between two operands. -/
def binaryOperators : List String :=
  ["=", "!=", "<", ">", "-eq", "-ne", "-ge", "-gt", "-le", "-lt", "-nt", "-ot", "-ef"]

/-- What an argument is by itself. -/
def kindOf (a : Raw) : Kind :=
  let name := String.ofList a
  if unaryOperators.contains name then .unary
  else if binaryOperators.contains name then .binary
  else if name = "!" then .negation
  else if name = "-a" then .conjunction
  else if name = "-o" then .disjunction
  else if name = "(" then .opening
  else if name = ")" then .closing
  else .operand

/-- What the first of some arguments is before the others. -/
def kind : List Raw → Kind
  | [] => .nothing
  | a :: rest =>
    match kindOf a, rest with
    | .unary, [] | .opening, [] => .operand
    | .unary, b :: _ :: _ => if kindOf b = .binary then .operand else .unary
    | k, _ => k

/-- What stands at a path itself, be it a link. -/
def entry? (fs : FileSystem) (directory : Location) (path : String) : Option Node :=
  let route := Route.ofPath path
  match route.slash, route.names.getLast? with
  | false, some name =>
    if name = "." || name = ".." then (fs.lookup directory path).toOption
    else
      match fs.walk false maxLinks (if route.absolute then [] else directory)
        route.names.dropLast true with
      | .ok l => fs.get? (l ++ [name])
      | .error _ => none
  | _, _ => (fs.lookup directory path).toOption

/-- Whether a location belongs to the user. -/
def isOwn (fs : FileSystem) (l : Location) : Bool := fs.isOpen l.dropLast

/-- Whether an operator holds of a file. -/
def holdsOfFile (fs : FileSystem) (directory : Location) (operator : String) (a : Raw) : Bool :=
  let path := Raw.toText a
  if operator = "-h" || operator = "-L" then
    match entry? fs directory path with
    | some (.link _) => true
    | _ => false
  else
    match fs.resolve directory path with
    | .error _ => false
    | .ok l =>
      match fs.get? l with
      | none => false
      | some node =>
        let bits (mask : Nat) : Bool := match node with
          | .file mode _ => mode &&& mask ≠ 0
          | _ => false
        match operator with
        | "-e" => true
        | "-r" => node.mayRead
        | "-w" => if node = .directory then fs.isOpen l else node.mayWrite
        | "-x" => node = .directory || node.mayRun
        | "-f" => node.isRegular
        | "-d" => node = .directory
        | "-c" => match node with
          | .device _ => true
          | _ => false
        | "-s" => match node with
          | .file _ content => !content.isEmpty
          | .device _ => false
          | _ => true
        | "-u" => bits 0o4000
        | "-g" => bits 0o2000
        | "-k" => bits 0o1000 || l = ["tmp"] || l = ["var", "tmp"]
        | "-O" | "-G" => isOwn fs l
        | _ => false

/-- The number that an operand stands for. -/
def number (a : Raw) : Except Raw Int :=
  match integer? a with
  | some n => .ok n
  | none => .error ("Illegal number: ".toList ++ a)

/-- Whether an operator holds of an operand. -/
def holdsOfOne (fs : FileSystem) (directory : Location) (operator : String) (a : Raw) :
    Except Raw Bool :=
  match operator with
  | "-z" => .ok a.isEmpty
  | "-n" => .ok !a.isEmpty
  | "-t" => (number a).map fun _ => false
  | _ => .ok (holdsOfFile fs directory operator a)

/-- Whether an operator holds of two operands. Files have no times here, so that none is newer. -/
def holdsOfTwo (fs : FileSystem) (directory : Location) (operator : String) (a b : Raw) :
    Except Raw Bool := do
  let compare (p : Int → Int → Bool) : Except Raw Bool := do return p (← number a) (← number b)
  match operator with
  | "=" => return a = b
  | "!=" => return a ≠ b
  | "<" => return a < b
  | ">" => return b < a
  | "-eq" => compare (· = ·)
  | "-ne" => compare (· ≠ ·)
  | "-ge" => compare (· ≥ ·)
  | "-gt" => compare (· > ·)
  | "-le" => compare (· ≤ ·)
  | "-lt" => compare (· < ·)
  | "-ef" =>
    match fs.resolve directory (Raw.toText a), fs.resolve directory (Raw.toText b) with
    | .ok l, .ok m => return l = m
    | _, _ => return false
  | _ => return false

/-- What is wrong with an operator at the end. -/
def missingOperand {α : Type} (operator : Raw) : Except Raw α :=
  .error (operator ++ ": argument expected".toList)

mutual

/-- The truth of conditions of which one has to hold, with the last argument that was read and those
behind it. `k` is what the first argument is. `fuel` bounds the number of arguments. -/
def disjunction (fs : FileSystem) (directory : Location) :
    Nat → Kind → List Raw → Except Raw (Bool × List Raw)
  | 0, _, args => .ok (false, args)
  | fuel + 1, k, args => do
    let (first, args) ← conjunction fs directory fuel k args
    if kind (args.drop 1) = .disjunction then
      let (second, rest) ← disjunction fs directory fuel (kind (args.drop 2)) (args.drop 2)
      return (first || second, rest)
    else return (first, args)

/-- The truth of conditions that all have to hold. -/
def conjunction (fs : FileSystem) (directory : Location) :
    Nat → Kind → List Raw → Except Raw (Bool × List Raw)
  | 0, _, args => .ok (false, args)
  | fuel + 1, k, args => do
    let (first, args) ← negation fs directory fuel k args
    if kind (args.drop 1) = .conjunction then
      let (second, rest) ← conjunction fs directory fuel (kind (args.drop 2)) (args.drop 2)
      return (first && second, rest)
    else return (first, args)

/-- The truth of a condition that may have a negation before it. -/
def negation (fs : FileSystem) (directory : Location) :
    Nat → Kind → List Raw → Except Raw (Bool × List Raw)
  | 0, _, args => .ok (false, args)
  | fuel + 1, k, args =>
    if k = .negation then do
      let next := kind (args.drop 1)
      let (holds, rest) ←
        negation fs directory fuel next (if next = .nothing then args else args.drop 1)
      return (!holds, rest)
    else primary fs directory fuel k args

/-- The truth of a single condition. -/
def primary (fs : FileSystem) (directory : Location) :
    Nat → Kind → List Raw → Except Raw (Bool × List Raw)
  | 0, _, args => .ok (false, args)
  | fuel + 1, k, args =>
    match k, args with
    | .nothing, _ | _, [] => .ok (false, args)
    | .opening, _ :: inside =>
      if kind inside = .closing then .ok (false, inside)
      else do
        let (holds, rest) ← disjunction fs directory fuel (kind inside) inside
        if kind (rest.drop 1) = .closing then return (holds, rest.drop 1)
        else .error "closing paren expected".toList
    | .unary, operator :: rest =>
      match rest with
      | [] => missingOperand operator
      | a :: _ => (holdsOfOne fs directory (String.ofList operator) a).map (·, rest)
    | _, a :: rest =>
      match kind rest, rest with
      | .binary, operator :: behind =>
        match behind with
        | [] => missingOperand operator
        | b :: _ => (holdsOfTwo fs directory (String.ofList operator) a b).map (·, behind)
      | _, _ => .ok (!a.isEmpty, args)

end

/-- The truth of some arguments, the first of which is of a kind. -/
def evaluate (fs : FileSystem) (directory : Location) (k : Kind) (args : List Raw) :
    Except Raw Bool := do
  let (holds, rest) ← disjunction fs directory (8 * args.length + 8) k args
  match rest with
  | last :: _ :: _ =>
    throw (if last.isEmpty then "unexpected operator".toList
      else last ++ ": unexpected operator".toList)
  | _ => return holds

/-- The truth of a test, or what is wrong with it. -/
def truth (fs : FileSystem) (directory : Location) : List Raw → Except Raw Bool
  | [] => .ok false
  | first :: rest =>
    let plain := evaluate fs directory (kind (first :: rest)) (first :: rest)
    if rest.length = 2 && kindOf (rest.headD []) = .binary then
      evaluate fs directory .operand (first :: rest)
    else if rest.length ≠ 2 && rest.length ≠ 3 then plain
    else if first = ['('] && rest.getLast? = some [')'] then
      evaluate fs directory (kind rest.dropLast) rest.dropLast
    else if first = ['!'] then (truth fs directory rest).map (!·)
    else plain

end Condition

end CommandShell.Script
