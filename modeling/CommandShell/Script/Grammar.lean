import CommandShell.Script.Token

/-!
# Reading commands of scripts

Tokens make commands. A script is read one command line at a time, a line going on for as long as a
command in it is unfinished, so that what stands before a mistake is run before the mistake is met.
-/

namespace CommandShell.Script

/-- The word that stands for all parameters, each quoted. -/
def allParameters : Word := [.mark, .parameter ['@'] .plain false [], .mark]

/-- The names that no function may have: the commands that are special in the language. -/
def specialNames : List String :=
  [".", ":", "break", "continue", "eval", "exec", "exit", "export", "local", "readonly", "return",
    "set", "shift", "times", "trap", "unset"]

/-- The command, with nobody waiting for it. -/
def Command.inBackground (c : Command) (line : Nat) : Command :=
  match c with
  | .pipeline cs _ => .pipeline cs true
  | .redirected l body redirects => .subshell l body redirects true
  | c => .subshell line c [] true

/-- The command with redirections. -/
def Command.redirect (c : Command) (line : Nat) (redirects : List Redirect) : Command :=
  if redirects.isEmpty then c
  else
    match c with
    | .subshell l body [] false => .subshell l body redirects false
    | c => .redirected line c redirects

namespace Reader

/-- The redirection that the last word completes. -/
def completeRedirect (r : Reader) : Redirect × Reader :=
  let n := r.descriptor
  match r.operator with
  | .file opening => (.file n opening r.word, r)
  | .same =>
    match r.word.plain? with
    | some ['-'] => (.same n none, r)
    | some [d] =>
      if d.isDigit then (.same n (some (d.toNat - '0'.toNat)), r) else (.named n r.word, r)
    | _ => (.named n r.word, r)
  | .document indented =>
    let number := r.nextDocument
    (.document n number, { r with
      nextDocument := number + 1
      awaited := r.awaited ++ [⟨number, r.word.characters, indented, r.quoted⟩] })

/-- Reads what follows a redirection operator. -/
def readRedirect (r : Reader) (inner : ReadInner) : Except ReadFault (Redirect × Reader) := do
  let final := match r.operator with
    | .document _ => true
    | _ => false
  let r ← (r.expect { Expected.nothing with final := final }).readToken inner
  if r.token = .word then .ok r.completeRedirect else .error (r.unexpected none)

/-- Reads the redirections behind a command. `fuel` bounds their number. -/
def readRedirects (inner : ReadInner) :
    Nat → List Redirect → Reader → Except ReadFault (List Redirect × Reader)
  | 0, rs, r => .ok (rs.reverse, r)
  | fuel + 1, rs, r => do
    let r ← r.readToken inner
    if r.token = .redirection then
      let (redirect, r) ← r.readRedirect inner
      readRedirects inner fuel (redirect :: rs) r
    else .ok (rs.reverse, r.pushBack)

/-- Reads the words up to another token. `fuel` bounds their number. -/
def readWords (inner : ReadInner) : Nat → List Word → Reader → Except ReadFault (List Word × Reader)
  | 0, ws, r => .ok (ws.reverse, r)
  | fuel + 1, ws, r => do
    let r ← r.readToken inner
    if r.token = .word then readWords inner fuel (r.word :: ws) r else .ok (ws.reverse, r)

/-- Reads the patterns of a clause up to the token behind them. `fuel` bounds their number. -/
def readPatterns (inner : ReadInner) :
    Nat → List Word → Reader → Except ReadFault (List Word × Reader)
  | 0, ws, r => .ok (ws.reverse, r)
  | fuel + 1, ws, r => do
    let word := r.word
    let r ← r.readToken inner
    if r.token = .sign "|" then readPatterns inner fuel (word :: ws) (← r.readToken inner)
    else .ok ((word :: ws).reverse, r)

/-- The parts of a simple command that is being read. -/
structure Pieces where
  assignments : List Word
  words : List Word
  redirects : List Redirect

/-- The function that pieces and an opening parenthesis start, if they start one. -/
def Pieces.function? (p : Pieces) : Option Word :=
  match p.words, p.assignments, p.redirects with
  | [name], [], [] => some name
  | _, _, _ => none

/-- Reads the pieces of a simple command up to another token. `fuel` bounds their number. -/
def readPieces (inner : ReadInner) : Nat → Pieces → Reader → Except ReadFault (Pieces × Reader)
  | 0, p, r => .ok (p, r)
  | fuel + 1, p, r => do
    let first := p.words.isEmpty
    let r ← (r.expect { Expected.nothing with aliases := first }).readToken inner
    match r.token with
    | .word =>
      if first && r.word.isAssignment then
        readPieces inner fuel { p with assignments := p.assignments ++ [r.word] } r
      else readPieces inner fuel { p with words := r.word :: p.words } r
    | .redirection =>
      let (redirect, r) ← r.readRedirect inner
      readPieces inner fuel { p with redirects := p.redirects ++ [redirect] } r
    | _ => .ok (p, r)

/-- Wants a token. -/
def demand (r : Reader) (inner : ReadInner) (t : Token) : Except ReadFault Reader := do
  let r ← r.readToken inner
  if r.token = t then .ok r else .error (r.unexpected (some t))

/-- How many pieces there may be in what is left. -/
def pieceFuel (r : Reader) : Nat := r.text.length + aliasLimit

mutual

/-- Reads a list of commands. `closable` says whether the list may end here. -/
def readList (fuel : Nat) (single closable : Bool) (soFar : Option Command) (r : Reader) :
    Except ReadFault (Option Command × Reader) :=
  match fuel with
  | 0 => .error (r.fault "too deep")
  | fuel + 1 => do
    let inner : ReadInner := readList fuel false true none
    let r ← (r.expect ⟨true, true, !single, false⟩).readToken inner
    if r.token = .newline then
      let r ← r.endLine inner
      return (soFar, r)
    if r.token = .endOfFile then
      let r ← r.endLine inner
      return (soFar, r.pushBack)
    let r := r.pushBack
    if closable && closingTokens.contains r.token then return (soFar, r)
    let (c, r) ← readChain fuel r
    let r ← r.readToken inner
    let c := if r.token = .sign "&" then c.inBackground r.line else c
    let all := match soFar with
      | some before => .sequence before c
      | none => c
    match r.token with
    | .endOfFile =>
      let r ← r.endLine inner
      return (some all, r.pushBack)
    | .newline => readList fuel single (!single) (some all) r.pushBack
    | .sign ";" | .sign "&" => readList fuel single (!single) (some all) r
    | _ => if single then .error (r.unexpected none) else return (some all, r.pushBack)

/-- Reads a list of at least one command, up to a word that ends it. -/
def readBody (fuel : Nat) (r : Reader) : Except ReadFault (Command × Reader) :=
  match fuel with
  | 0 => .error (r.fault "too deep")
  | fuel + 1 => do
    let (c, r) ← readList fuel false false none r
    return (c.getD (.pipeline [] false), r)

/-- Reads commands that depend on each other. -/
def readChain (fuel : Nat) (r : Reader) : Except ReadFault (Command × Reader) :=
  match fuel with
  | 0 => .error (r.fault "too deep")
  | fuel + 1 => do
    let (c, r) ← readPipeline fuel r
    readChainFrom fuel c r

/-- Reads the commands that depend on one already read. -/
def readChainFrom (fuel : Nat) (first : Command) (r : Reader) :
    Except ReadFault (Command × Reader) :=
  match fuel with
  | 0 => .error (r.fault "too deep")
  | fuel + 1 => do
    let r ← r.readToken (readList fuel false true none)
    if r.token = .sign "&&" then
      let (second, r) ← readPipeline fuel (r.expect .command)
      readChainFrom fuel (.both first second) r
    else if r.token = .sign "||" then
      let (second, r) ← readPipeline fuel (r.expect .command)
      readChainFrom fuel (.either first second) r
    else return (first, r.pushBack)

/-- Reads a pipeline that an exclamation mark may precede. -/
def readPipeline (fuel : Nat) (r : Reader) : Except ReadFault (Command × Reader) :=
  match fuel with
  | 0 => .error (r.fault "too deep")
  | fuel + 1 => do
    let r ← r.readToken (readList fuel false true none)
    let negated : Bool := r.token = .sign "!"
    let r := if negated then r.expect ⟨true, true, false, false⟩ else r.pushBack
    let (first, r) ← readCommand fuel r
    let (others, r) ← readPiped fuel [] r
    let c := if others.isEmpty then first else .pipeline (first :: others) false
    return (if negated then .negate c else c, r)

/-- Reads the commands that take the output of the one before. -/
def readPiped (fuel : Nat) (soFar : List Command) (r : Reader) :
    Except ReadFault (List Command × Reader) :=
  match fuel with
  | 0 => .error (r.fault "too deep")
  | fuel + 1 => do
    let r ← r.readToken (readList fuel false true none)
    if r.token = .sign "|" then
      let (c, r) ← readCommand fuel (r.expect .command)
      readPiped fuel (c :: soFar) r
    else return (soFar.reverse, r.pushBack)

/-- Reads one command. -/
def readCommand (fuel : Nat) (r : Reader) : Except ReadFault (Command × Reader) :=
  match fuel with
  | 0 => .error (r.fault "too deep")
  | fuel + 1 => do
    let inner : ReadInner := readList fuel false true none
    let line := r.line
    let r ← r.readToken inner
    let ended (c : Command) (r : Reader) : Except ReadFault (Command × Reader) := do
      let (redirects, r) ←
        (r.expect ⟨true, true, false, false⟩).readRedirects inner r.pieceFuel []
      return (c.redirect line redirects, r)
    match r.token with
    | .word | .redirection => readSimple fuel r.pushBack
    | .sign "if" =>
      let (c, r) ← readChoice fuel r
      ended c (← r.demand inner (.sign "fi"))
    | .sign "while" =>
      let (c, r) ← readLoop fuel false r
      ended c (← r.demand inner (.sign "done"))
    | .sign "until" =>
      let (c, r) ← readLoop fuel true r
      ended c (← r.demand inner (.sign "done"))
    | .sign "for" =>
      let (c, r) ← readEach fuel line r
      ended c (← r.demand inner (.sign "done"))
    | .sign "case" =>
      let (c, r) ← readSelect fuel line r
      ended c r
    | .sign "(" =>
      let (body, r) ← readBody fuel r
      ended (.subshell line body [] false) (← r.demand inner (.sign ")"))
    | .sign "\x7b" =>
      let (body, r) ← readBody fuel r
      ended body (← r.demand inner (.sign "\x7d"))
    | _ => .error (r.unexpected none)

/-- Reads a condition and the commands for it, up to the end of the choice. -/
def readChoice (fuel : Nat) (r : Reader) : Except ReadFault (Command × Reader) :=
  match fuel with
  | 0 => .error (r.fault "too deep")
  | fuel + 1 => do
    let inner : ReadInner := readList fuel false true none
    let (condition, r) ← readBody fuel r
    let r ← r.demand inner (.sign "then")
    let (consequent, r) ← readBody fuel r
    let r ← r.readToken inner
    match r.token with
    | .sign "elif" =>
      let (alternative, r) ← readChoice fuel r
      return (.choice condition consequent (some alternative), r)
    | .sign "else" =>
      let (alternative, r) ← readBody fuel r
      return (.choice condition consequent (some alternative), r)
    | _ => return (.choice condition consequent none, r.pushBack)

/-- Reads a condition and the commands to be repeated. -/
def readLoop (fuel : Nat) (negated : Bool) (r : Reader) : Except ReadFault (Command × Reader) :=
  match fuel with
  | 0 => .error (r.fault "too deep")
  | fuel + 1 => do
    let (condition, r) ← readBody fuel r
    let r ← r.demand (readList fuel false true none) (.sign "do")
    let (body, r) ← readBody fuel r
    return (.loop negated condition body, r)

/-- Reads a variable, the words for it and the commands to be repeated. -/
def readEach (fuel : Nat) (line : Nat) (r : Reader) : Except ReadFault (Command × Reader) :=
  match fuel with
  | 0 => .error (r.fault "too deep")
  | fuel + 1 => do
    let inner : ReadInner := readList fuel false true none
    let r ← r.readToken inner
    let name ← match r.token, r.quoted, r.word.plain? with
      | .word, false, some cs =>
        if isName cs then pure cs else .error (r.fault "Bad for loop variable")
      | _, _, _ => .error (r.fault "Bad for loop variable")
    let r ← (r.expect .command).readToken inner
    let (words, r) ←
      if r.token = .sign "in" then do
        let (words, r) ← r.readWords inner r.pieceFuel []
        if r.token = .newline || r.token = .sign ";" then pure (words, r)
        else .error (r.unexpected none)
      else pure ([allParameters], if r.token = .sign ";" then r else r.pushBack)
    let r ← (r.expect .command).demand inner (.sign "do")
    let (body, r) ← readBody fuel r
    return (.each line name words body, r)

/-- Reads a word and the clauses for it. -/
def readSelect (fuel : Nat) (line : Nat) (r : Reader) : Except ReadFault (Command × Reader) :=
  match fuel with
  | 0 => .error (r.fault "too deep")
  | fuel + 1 => do
    let inner : ReadInner := readList fuel false true none
    let r ← r.demand inner .word
    let word := r.word
    let r ← (r.expect .command).demand inner (.sign "in")
    let r ← (r.expect ⟨false, true, true, false⟩).readToken inner
    let (clauses, r) ← readClauses fuel [] r
    return (.select line word clauses, r)

/-- Reads clauses up to the word that ends them. The first token has been read. -/
def readClauses (fuel : Nat) (soFar : List Clause) (r : Reader) :
    Except ReadFault (List Clause × Reader) :=
  match fuel with
  | 0 => .error (r.fault "too deep")
  | fuel + 1 => do
    let inner : ReadInner := readList fuel false true none
    if r.token = .sign "esac" then return (soFar.reverse, r)
    let r ← if r.token = .sign "(" then r.readToken inner else pure r
    let (patterns, r) ← r.readPatterns inner r.pieceFuel []
    if r.token ≠ .sign ")" then throw (r.unexpected (some (.sign ")")))
    let (body, r) ← readList fuel false true none r
    let soFar := .mk patterns body :: soFar
    let more : Expected := ⟨false, true, true, false⟩
    let r ← (r.expect more).readToken inner
    if r.token = .sign "esac" then return (soFar.reverse, r)
    if r.token ≠ .sign ";;" then throw (r.unexpected (some (.sign ";;")))
    readClauses fuel soFar (← (r.expect more).readToken inner)

/-- Reads a simple command or the definition of a function. -/
def readSimple (fuel : Nat) (r : Reader) : Except ReadFault (Command × Reader) :=
  match fuel with
  | 0 => .error (r.fault "too deep")
  | fuel + 1 => do
    let inner : ReadInner := readList fuel false true none
    let line := r.line
    let (p, r) ← r.readPieces inner r.pieceFuel ⟨[], [], []⟩
    match if r.token = .sign "(" then p.function? else none with
    | some word =>
      let r ← r.demand inner (.sign ")")
      match word.plain? with
      | some cs =>
        if !isName cs || specialNames.contains (String.ofList cs) then
          .error (r.fault "Bad function name")
        else
          let (body, r) ← readCommand fuel (r.expect .command)
          return (.define line cs body, r)
      | none => .error (r.fault "Bad function name")
    | none => return (.simple line p.assignments p.words.reverse p.redirects, r.pushBack)

end

/-- How deep commands may stand within commands, for a text of some length. -/
def depthFuel (r : Reader) : Nat := 16 * r.text.length + 4096

/-- Reads the commands of a line. At the end of the text the last token is the end of the file, and
is pushed back. -/
def readCommandLine (r : Reader) : Except ReadFault (Option Command × Reader) :=
  readList r.depthFuel true false none { r with pushedBack := false, awaited := [] }

end Reader

end CommandShell.Script
