import CommandShell.Builtin.Registry
import CommandShell.Shell

/-!
# Completion

What a typed text can be completed to: the builtins and the programs on the search path whose names
start with it. A single candidate is completed as a whole; several are completed as far as they
agree, and listed once they do not.
-/

namespace CommandShell

/-- What completing a text leads to. -/
inductive Completion
  /-- No name starts with the text. -/
  | none
  /-- What is to be added to the text. -/
  | found (text : String)
  /-- The names that start with the text and do not agree on what follows. -/
  | more (names : List String)
  deriving DecidableEq

/-- Where completion looks for names. -/
structure Completer where
  registry : Registry
  /-- The directories of programs, separated by colons. -/
  searchPath : String

/-! ## Common starts -/

/-- The characters at the start of a text that take up the given number of bytes, unless that would
cut a character. -/
def takeBytes? : Nat → List Char → Option (List Char)
  | 0, _ => some []
  | _ + 1, [] => none
  | n + 1, c :: cs =>
    if c.utf8Size ≤ n + 1 then (takeBytes? (n + 1 - c.utf8Size) cs).map (c :: ·) else none

/-- The number of bytes of a text. -/
def byteLength : List Char → Nat
  | [] => 0
  | c :: cs => c.utf8Size + byteLength cs

/-- The number of bytes in front of the first characters in which two texts differ, if they do so
before one of them ends. -/
def difference? : List Char → List Char → Option Nat
  | a :: as, b :: bs => if a = b then (difference? as bs).map (a.utf8Size + ·) else some 0
  | _, _ => none

/-- The number of bytes at the start of `first` that `item` shares, out of the first `n`. If they do
not differ, the shorter of both is shared as a whole. -/
def narrow (first : List Char) (n : Nat) (item : List Char) : Nat :=
  (difference? ((takeBytes? n first).getD []) item).getD (min n (byteLength item))

/-- The number of bytes at the start of `first` that are left after some more texts. -/
def sharedBytes (first : String) (items : List String) : Nat :=
  (items.map String.toList).foldl (narrow first.toList) (byteLength first.toList)

/-- The largest number of bytes up to the given one that does not cut a character of a text. -/
def wholeBytes (text : List Char) : Nat → Nat
  | 0 => 0
  | n + 1 => if (takeBytes? (n + 1) text).isSome then n + 1 else wholeBytes text n

/-- The longest text that all of the given ones start with. -/
def commonStart : List String → String
  | [] => ""
  | first :: items =>
    let n := wholeBytes first.toList (sharedBytes first items)
    String.ofList ((takeBytes? n first.toList).getD [])

/-! ## Candidates -/

namespace Candidate

/-- Whether a candidate comes before another: shorter ones first, and then by their bytes. -/
def precedes (a b : String) : Bool :=
  a.utf8ByteSize < b.utf8ByteSize || (a.utf8ByteSize = b.utf8ByteSize && a < b)

/-- Puts a candidate in its place among others, unless it is there already. -/
def insert (a : String) : List String → List String
  | [] => [a]
  | b :: bs => if precedes a b then a :: b :: bs else if a = b then b :: bs else b :: insert a bs

/-- Inserting adds the candidate and nothing else. -/
theorem mem_insert {a c : String} {bs : List String} : c ∈ insert a bs ↔ c = a ∨ c ∈ bs := by
  induction bs with
  | nil => simp [insert]
  | cons b bs ih =>
    simp only [insert]
    split
    · simp
    split
    · next h => simp [h]
    · simp only [List.mem_cons, ih]
      exact or_left_comm

end Candidate

/-- What follows `start` in a name that starts with it. -/
def remainder? (start name : String) : Option String :=
  (start.toList.isPrefixOf? name.toList).map String.ofList

/-- The names of the programs in a directory; none if it cannot be listed. -/
def programsIn (fs : FileSystem) (directory : Location) (path : String) : List String :=
  match fs.list directory path with
  | .ok names => names.filter fun name => fs.isProgram directory (Path.join path name)
  | .error _ => []

namespace Completer

/-- The names that can be completed to. -/
def names (c : Completer) (fs : FileSystem) (directory : Location) : List String :=
  c.registry.names ++ (searchDirectories c.searchPath).flatMap (programsIn fs directory)

/-- What can follow a text to make it a name, in order. -/
def candidates (c : Completer) (fs : FileSystem) (directory : Location) (text : String) :
    List String :=
  ((c.names fs directory).filterMap (remainder? text)).foldl (fun cs a => Candidate.insert a cs) []

/-- Completes a text. Nothing is not completed. -/
def complete (c : Completer) (fs : FileSystem) (directory : Location) (text : String) :
    Completion :=
  if text = "" then .none
  else
    match c.candidates fs directory text with
    | [] => .none
    | [only] => .found (only ++ " ")
    | several =>
      let common := commonStart several
      if common = "" then .more (several.map (text ++ ·)) else .found common

end Completer

namespace Shell

/-- Completion with the search path of the shell's environment. -/
def complete (sh : Shell) (registry : Registry) (text : String) : Completion :=
  (Completer.mk registry sh.environment.searchPath).complete sh.host.files sh.process.directory text

end Shell

end CommandShell
