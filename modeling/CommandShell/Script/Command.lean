import CommandShell.Text

/-!
# Commands of scripts

The commands that programs in script files are made of. Scripts work on bytes: their text and the
values of their variables are kept with one character per byte. A word is a list of parts; quotation
marks stay in it, because what lies between them is treated in a way of its own when the word is
expanded.
-/

namespace CommandShell.Script

/-- Text of a script, one character per byte. -/
abbrev Raw := List Char

/-- Bytes as script text. -/
def Raw.ofBytes (b : Bytes) : Raw := b.map fun x => Char.ofNat x.toNat

/-- Script text as bytes. -/
def Raw.toBytes (r : Raw) : Bytes := r.map fun c => c.toNat.toUInt8

/-- The bytes of a text as script text. -/
def Raw.ofText (s : String) : Raw := ofBytes (Text.encode s)

/-- Script text as text, if its bytes are UTF-8; otherwise each byte is a character. -/
def Raw.toText (r : Raw) : String := (Text.decode? r.toBytes).getD (String.ofList r)

/-- A number in decimal digits. -/
def Raw.ofInt (n : Int) : Raw := (toString n).toList

/-- The number that decimal digits stand for. -/
def Raw.digitsValue (r : Raw) : Nat := r.foldl (fun n d => n * 10 + (d.toNat - '0'.toNat)) 0

/-- Whether a name may start with a character. -/
def isNameStart (c : Char) : Bool := c.isAlpha || c = '_'

/-- Whether a name may go on with a character. -/
def isNamePart (c : Char) : Bool := c.isAlphanum || c = '_'

/-- Whether a text is a name. -/
def isName : Raw → Bool
  | [] => false
  | c :: cs => isNameStart c && cs.all isNamePart

/-- What becomes of the value of a parameter. -/
inductive Treatment
  /-- It stands as it is. -/
  | plain
  /-- A word stands for it if there is none. -/
  | fallback
  /-- A word stands for it if there is one. -/
  | alternative
  /-- The script gives up if there is none. -/
  | require
  /-- A word is assigned to the parameter if there is none. -/
  | assign
  /-- What matches a pattern is cut off its end. -/
  | cutEnd (longest : Bool)
  /-- What matches a pattern is cut off its start. -/
  | cutStart (longest : Bool)
  /-- Its length stands for it. -/
  | length
  /-- It is not known what is to be done. -/
  | unknown
  deriving DecidableEq

/-- How a redirection opens a file. -/
inductive Opening
  | input
  | update
  /-- For output, unless a file that is there is to be kept. -/
  | output
  /-- For output, in any case. -/
  | overwrite
  | append
  deriving DecidableEq

mutual

/-- A part of a word. -/
inductive Part
  /-- Characters that stand for themselves. Escaped ones have no meaning in patterns. -/
  | text (characters : Raw) (escaped : Bool)
  /-- A quotation mark. -/
  | mark
  /-- The value of a parameter. With `ifEmpty`, an empty value counts as none. -/
  | parameter (name : Raw) (treatment : Treatment) (ifEmpty : Bool) (word : List Part)
  /-- What a command writes. -/
  | output (command : Option Command)
  /-- The value of an arithmetic expression. -/
  | arithmetic (expression : List Part)

/-- A redirection of a command. -/
inductive Redirect
  | file (descriptor : Nat) (opening : Opening) (path : List Part)
  /-- Makes a descriptor the same as another, or closes it. -/
  | same (descriptor : Nat) (other : Option Nat)
  /-- Makes a descriptor the same as the one that a word names. -/
  | named (descriptor : Nat) (other : List Part)
  /-- Takes input from a document in the script, by its number. -/
  | document (descriptor : Nat) (number : Nat)

/-- A command. -/
inductive Command
  /-- A command without inner commands, with the line that it starts on. -/
  | simple (line : Nat) (assignments words : List (List Part)) (redirects : List Redirect)
  | pipeline (commands : List Command) (background : Bool)
  /-- Commands that a process of their own runs. -/
  | subshell (line : Nat) (body : Command) (redirects : List Redirect) (background : Bool)
  | redirected (line : Nat) (body : Command) (redirects : List Redirect)
  | sequence (first second : Command)
  /-- The second only if the first succeeds. -/
  | both (first second : Command)
  /-- The second only if the first fails. -/
  | either (first second : Command)
  | negate (c : Command)
  | choice (condition consequent : Command) (alternative : Option Command)
  /-- The body as long as the condition succeeds, or fails if `negated`. -/
  | loop (negated : Bool) (condition body : Command)
  /-- The body for each field of the words. -/
  | each (line : Nat) (name : Raw) (words : List (List Part)) (body : Command)
  | select (line : Nat) (word : List Part) (clauses : List Clause)
  | define (line : Nat) (name : Raw) (body : Command)

/-- The commands for words that match one of some patterns. -/
inductive Clause
  | mk (patterns : List (List Part)) (body : Option Command)

end

instance : Inhabited Command := ⟨.pipeline [] false⟩

/-- A word of a script. -/
abbrev Word := List Part

namespace Word

/-- The characters of a word that is written without quotes and parameters. -/
def plain? : Word → Option Raw
  | [] => some []
  | [.text cs false] => some cs
  | _ => none

/-- All the characters of a word that stand for themselves. -/
def characters (w : Word) : Raw :=
  w.flatMap fun
    | .text cs _ => cs
    | _ => []

/-- Whether a word is written as an assignment. -/
def isAssignment : Word → Bool
  | .text cs false :: _ =>
    !(cs.takeWhile isNamePart).isEmpty && isName (cs.takeWhile isNamePart) &&
      (cs.dropWhile isNamePart).head? = some '='
  | _ => false

/-- Joins neighbouring parts that stand for themselves in the same way, of parts in reverse. -/
def ofReversed (parts : List Part) : Word :=
  parts.foldl
    (fun (w : Word) p =>
      match p, w with
      | .text cs e, .text ds f :: rest =>
        if e = f then .text (cs ++ ds) e :: rest else p :: w
      | _, _ => p :: w)
    []

end Word

end CommandShell.Script
