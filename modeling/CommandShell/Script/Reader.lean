import CommandShell.Script.Command

/-!
# Readers of scripts

A reader holds what is left of the text of a script, with what has been found out about it so far:
the last token, which may be read again, the aliases whose text is being read, and the documents
that are still to be read behind the line.
-/

namespace CommandShell.Script

/-- What a script is made of, besides the characters of words. -/
inductive Token
  | endOfFile
  | newline
  | redirection
  | word
  /-- An operator or a word with a meaning of its own. -/
  | sign (characters : String)
  deriving DecidableEq

/-- The name of a token in messages. -/
def Token.name : Token → String
  | endOfFile => "end of file"
  | newline => "newline"
  | redirection => "redirection"
  | word => "word"
  | sign characters => "\"" ++ characters ++ "\""

/-- The words with a meaning of their own, where a command may start. -/
def reservedWords : List String :=
  ["!", "case", "do", "done", "elif", "else", "esac", "fi", "for", "if", "in", "then", "until",
    "while", "\x7b", "\x7d"]

/-- The tokens that end a list of commands. -/
def closingTokens : List Token :=
  .endOfFile :: [")", ";;", "do", "done", "elif", "else", "esac", "fi", "then", "\x7d"].map .sign

/-- Why a text makes no command. -/
structure ReadFault where
  line : Nat
  /-- What is wrong. -/
  reason : String
  deriving DecidableEq

/-- A redirection operator. -/
inductive RedirectOperator
  | file (opening : Opening)
  | same
  /-- A document follows; `indented` says whether tabs before its lines are left out. -/
  | document (indented : Bool)
  deriving DecidableEq

/-- A document that is still to be read. -/
structure Awaited where
  number : Nat
  /-- The line that ends it. -/
  finalLine : Raw
  indented : Bool
  /-- Whether its text is taken as it is. -/
  verbatim : Bool

/-- An alias whose text is being read. -/
structure ActiveAlias where
  name : Raw
  /-- The length of the text behind that of the alias. -/
  behind : Nat
  /-- Whether the text of the alias ends in a blank. -/
  endsInBlank : Bool

/-- What the next token may be. -/
structure Expected where
  aliases : Bool
  reserved : Bool
  /-- Whether line ends are skipped. -/
  skipLines : Bool
  /-- Whether the word ends a document, and so holds no parameters. -/
  final : Bool
  deriving DecidableEq

namespace Expected

/-- Nothing but a plain word. -/
def nothing : Expected := ⟨false, false, false, false⟩

/-- A command, which may be on a later line. -/
def command : Expected := ⟨true, true, true, false⟩

end Expected

/-- A reader of a script. -/
structure Reader where
  text : Raw
  /-- The line that the text starts in. -/
  line : Nat
  /-- Whether the end of the text was met. -/
  short : Bool
  /-- The last token. -/
  token : Token
  /-- Whether the last token is to be read again. -/
  pushedBack : Bool
  /-- The last word, and whether any of it was quoted. -/
  word : Word
  quoted : Bool
  /-- The last redirection operator with its descriptor. -/
  descriptor : Nat
  operator : RedirectOperator
  expected : Expected
  awaited : List Awaited
  documents : List (Nat × Word)
  nextDocument : Nat
  aliases : List (Raw × Raw)
  active : List ActiveAlias

namespace Reader

/-- A reader at the start of a text. -/
def ofText (text : Raw) (line nextDocument : Nat) (aliases : List (Raw × Raw)) : Reader where
  text := text
  line := line
  short := false
  token := .newline
  pushedBack := false
  word := []
  quoted := false
  descriptor := 0
  operator := .same
  expected := .nothing
  awaited := []
  documents := []
  nextDocument := nextDocument
  aliases := aliases
  active := []

/-- The fault of the line that a reader has come to. -/
def fault (r : Reader) (reason : String) : ReadFault := ⟨r.line, "Syntax error: " ++ reason⟩

/-- The fault of a token in the wrong place, with the token that was wanted. -/
def unexpected (r : Reader) (wanted : Option Token) : ReadFault :=
  r.fault (r.token.name ++ " unexpected" ++
    match wanted with
    | some t => " (expecting " ++ t.name ++ ")"
    | none => "")

/-- Lets the last token be read again. -/
def pushBack (r : Reader) : Reader := { r with pushedBack := true }

/-- Says what the next token may be. -/
def expect (r : Reader) (e : Expected) : Reader := { r with expected := e }

/-- Takes a character. -/
def take (r : Reader) : Option Char × Reader :=
  match r.text with
  | [] => (none, { r with short := true })
  | c :: cs => (some c, { r with text := cs })

/-- Drops line ends that a backslash hides, and tells how many and whether the end was met. -/
def dropHidden : Nat → Raw → Nat × Raw × Bool
  | n, '\\' :: '\n' :: cs => dropHidden (n + 1) cs
  | n, cs => (n, cs, cs.drop 1 = [] && (cs = [] || cs = ['\\']))

/-- Takes a character, and the hidden line ends before it. -/
def takeJoined (r : Reader) : Option Char × Reader :=
  match r.text with
  | '\\' :: _ | [] =>
    let (n, cs, short) := dropHidden 0 r.text
    { r with text := cs, line := r.line + n, short := r.short || short }.take
  | c :: cs => (some c, { r with text := cs })

/-- Puts a character back. -/
def putBack (r : Reader) (c : Option Char) : Reader := { r with text := c.toList ++ r.text }

/-- Drops blanks, hidden line ends and a comment. -/
def skipFrom (comment : Bool) (line : Nat) : Raw → Nat × Raw
  | '\n' :: cs => (line, '\n' :: cs)
  | ' ' :: cs | '\t' :: cs => skipFrom comment line cs
  | '#' :: cs => skipFrom true line cs
  | '\\' :: '\n' :: cs =>
    if comment then (line, '\n' :: cs) else skipFrom false (line + 1) cs
  | c :: cs => if comment then skipFrom true line cs else (line, c :: cs)
  | [] => (line, [])

/-- Leaves the aliases whose text has been read. Behind one that ends in a blank another may
follow. -/
def leaveAliases (r : Reader) : Reader :=
  if r.active.isEmpty then r
  else
    let length := r.text.length
    let left := r.active.filter fun a => length ≤ a.behind
    { r with
      active := r.active.filter fun a => a.behind < length
      expected :=
        { r.expected with aliases := r.expected.aliases || left.any ActiveAlias.endsInBlank } }

/-- Skips blanks and comments. -/
def skipBlanks (r : Reader) : Reader :=
  let (line, text) := skipFrom false r.line r.text
  { r with text := text, line := line, short := r.short || text.isEmpty }.leaveAliases

/-- Starts to read the text of the alias that the last word names, if it names one that is not
being read already. -/
def enterAlias? (r : Reader) : Option Reader :=
  match r.word.plain? with
  | none => none
  | some name =>
    if r.active.any (·.name = name) then none
    else
      match r.aliases.lookup name with
      | none => none
      | some value =>
        some { r with
          text := value ++ r.text
          active := ⟨name, r.text.length, value.getLast? = some ' ' || value.getLast? = some '\t'⟩
            :: r.active }

end Reader

end CommandShell.Script
