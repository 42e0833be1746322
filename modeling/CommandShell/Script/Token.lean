import CommandShell.Script.Reader

/-!
# Words and tokens of scripts

How characters make words and tokens. Within a word, parameters with braces, quotes and arithmetic
stand within each other; each of them is a level with a style of its own, which says what the
characters mean. Commands within words are read by a function that is handed in.
-/

namespace CommandShell.Script

/-- What characters mean at some level of a word. -/
inductive Style
  | base
  | double
  | single
  | arithmetic
  deriving DecidableEq

/-- A level of a word. -/
structure Layer where
  style : Style
  /-- Whether the level is within double quotes. -/
  quoted : Bool
  /-- Whether the level was opened by a parameter. -/
  opened : Bool
  /-- Whether double quotes are open within a parameter. -/
  inner : Bool
  /-- The number of open parameters, and of those within double quotes. -/
  depth : Nat
  quotedDepth : Nat
  /-- The number of open parentheses. -/
  parentheses : Nat

/-- The level of a style. -/
def Layer.ofStyle (style : Style) : Layer := ⟨style, style = .double, false, false, 0, 0, 0⟩

/-- What a closing sign ends. -/
inductive Unfinished
  | parameter (name : Raw) (treatment : Treatment) (ifEmpty : Bool)
  | arithmetic

/-- A word that is being read. -/
structure Draft where
  reader : Reader
  layer : Layer
  outer : List Layer
  /-- The parts so far, the last first. -/
  parts : List Part
  /-- What is open, with the parts before it. -/
  unfinished : List (Unfinished × List Part)
  /-- Whether any of the word was quoted. -/
  quoted : Bool

/-- What a draft goes on with. -/
inductive Onward
  /-- A character. -/
  | next (d : Draft) (c : Option Char)
  /-- The first character of a line. -/
  | line (d : Draft) (c : Option Char)
  /-- The word ends before a character. -/
  | stop (d : Draft) (c : Option Char)

/-- Reads a command within a word: a list of commands, with the reader behind it. -/
abbrev ReadInner := Reader → Except ReadFault (Option Command × Reader)

namespace Draft

/-- The draft of an empty word. -/
def ofReader (r : Reader) (style : Style) : Draft := ⟨r, .ofStyle style, [], [], [], false⟩

/-- Adds a character. -/
def add (d : Draft) (c : Char) (escaped : Bool) : Draft :=
  { d with parts := .text [c] escaped :: d.parts }

/-- Adds a part. -/
def addPart (d : Draft) (p : Part) : Draft := { d with parts := p :: d.parts }

/-- Adds a quotation mark, except in a document. -/
def addMark (d : Draft) (inDocument : Bool) : Draft :=
  if inDocument then d else d.addPart .mark

/-- Opens a level. -/
def pushLayer (d : Draft) (l : Layer) : Draft :=
  { d with layer := l, outer := d.layer :: d.outer }

/-- Goes back to the level outside. -/
def popLayer (d : Draft) : Draft :=
  match d.outer with
  | l :: ls => { d with layer := l, outer := ls }
  | [] => d

/-- Opens something that a closing sign ends. -/
def openPart (d : Draft) (u : Unfinished) : Draft :=
  { d with parts := [], unfinished := (u, d.parts) :: d.unfinished }

/-- Ends what was opened last. -/
def closePart (d : Draft) : Draft :=
  match d.unfinished with
  | [] => d
  | (u, before) :: rest =>
    let word := Word.ofReversed d.parts
    let part := match u with
      | .parameter name treatment ifEmpty => .parameter name treatment ifEmpty word
      | .arithmetic => .arithmetic word
    { d with parts := part :: before, unfinished := rest }

/-- Takes the next character. Only within single quotes hidden line ends are kept. -/
def goOn (d : Draft) : Onward :=
  let (c, r) := if d.layer.style = .single then d.reader.take else d.reader.takeJoined
  .next { d with reader := r } c

/-- Whether a character may have a meaning in patterns or elsewhere when it is not quoted. -/
def isMeaningful (c : Char) : Bool := "!*?[=~:/-]".toList.contains c

/-- Whether a character ends a word. -/
def endsWord (c : Char) : Bool := "<>();&| \t".toList.contains c

/-- Whether a character is the name of a parameter by itself. -/
def isSpecialName (c : Char) : Bool := "!#$*-?@0123456789".toList.contains c

/-- A character that quotes keep from having a meaning. -/
def addQuoted (d : Draft) (c : Char) (inDocument : Bool) : Draft :=
  d.add c (!inDocument || d.layer.quoted || 0 < d.layer.depth)

/-- Takes a backslash and what follows it. -/
def backslash (d : Draft) (inDocument : Bool) : Onward :=
  match d.reader.take with
  | (none, r) => { d with reader := r }.add '\\' true |>.goOn
  | (some '\n', r) => { d with reader := { r with line := r.line + 1 } }.goOn
  | (some c, r) =>
    let d := { d with reader := r }
    let kept := d.layer.quoted && c ≠ '\\' && c ≠ '\x60' && c ≠ '$' &&
      (c ≠ '"' || (inDocument && d.layer.depth = 0)) && (c ≠ '\x7d' || d.layer.depth = 0)
    let d := if kept then d.add '\\' true else d
    { d.add c true with quoted := true }.goOn

/-- Ends quotes. -/
def endQuote (d : Draft) (c : Char) (inDocument : Bool) : Onward :=
  if inDocument && d.layer.depth = 0 then (d.add c false).goOn
  else
    let l := d.layer
    let l := if l.quotedDepth = 0 then { l with style := .base, quoted := false } else l
    let l := if c = '"' && 0 < l.depth then { l with inner := !l.inner } else l
    ({ d with layer := l, quoted := true }.addMark inDocument).goOn

/-- Takes a closing brace. -/
def closeBrace (d : Draft) : Onward :=
  let l := d.layer
  if l.inner || l.depth = 0 then (d.add '\x7d' false).goOn
  else
    let d := d.closePart
    if l.depth = 1 && l.opened then d.popLayer.goOn
    else
      { d with layer := { l with depth := l.depth - 1, quotedDepth := l.quotedDepth - 1 } }.goOn

/-- Takes a closing parenthesis of arithmetic. -/
def closeParenthesis (d : Draft) : Onward :=
  let l := d.layer
  if 0 < l.parentheses then
    { d.add ')' false with layer := { l with parentheses := l.parentheses - 1 } }.goOn
  else
    match d.reader.takeJoined with
    | (some ')', r) => { d with reader := r }.closePart.popLayer.goOn
    | (c, r) => { d with reader := r.putBack c }.add ')' false |>.goOn

/-! ## Parameters -/

/-- Takes the characters of a name, joining lines. `fuel` bounds their number. -/
def takeWhileJoined (p : Char → Bool) : Nat → Raw → Reader → Raw × Reader
  | 0, name, r => (name.reverse, r)
  | fuel + 1, name, r =>
    match r.takeJoined with
    | (some c, after) =>
      if p c then takeWhileJoined p fuel (c :: name) after else (name.reverse, after.putBack c)
    | (none, after) => (name.reverse, after)

/-- The name of a parameter, and what its start says about the treatment: nothing, or that its
length is wanted. -/
structure Named where
  name : Raw
  ofLength : Bool
  /-- Whether there is no such name. -/
  bad : Bool
  reader : Reader

/-- Reads the name of a parameter behind `first`. `braces` says that it stands within braces. -/
def readName (r : Reader) (first : Option Char) (braces ofLength : Bool) : Named :=
  match first with
  | none => ⟨[], ofLength, true, r⟩
  | some c =>
    if isNameStart c then
      let (rest, r) := takeWhileJoined isNamePart (r.text.length + 1) [] r
      ⟨c :: rest, ofLength, false, r⟩
    else if c.isDigit then
      if braces then
        let (rest, r) := takeWhileJoined Char.isDigit (r.text.length + 1) [] r
        ⟨c :: rest, ofLength, false, r⟩
      else ⟨[c], ofLength, false, r⟩
    else if c = '\x7d' then ⟨[], ofLength, true, r.putBack c⟩
    else if isSpecialName c then ⟨[c], ofLength, false, r⟩
    else ⟨[], false, true, r⟩

/-- Reads a name within braces, where a sharp may ask for the length of what follows. -/
def readBracedName (r : Reader) : Named :=
  match r.takeJoined with
  | (some '#', r) =>
    match r.takeJoined with
    | (some c, after) =>
      if c = '_' || c.isAlphanum then readName after (some c) true true
      else
        match after.takeJoined with
        | (some '\x7d', behind) =>
          if c = '\x7d' then ⟨['#'], false, false, after.putBack c⟩
          else if isSpecialName c then ⟨[c], true, false, behind.putBack (some '\x7d')⟩
          else ⟨[], false, true, behind.putBack (some '\x7d')⟩
        | _ => ⟨['#'], false, false, after.putBack c⟩
    | (none, after) => ⟨['#'], false, false, after⟩
  | (c, r) => readName r c true false

/-- Reads the treatment of a parameter within braces. -/
def readTreatment (r : Reader) : Treatment × Bool × Reader :=
  let simple? (c : Option Char) : Option Treatment :=
    match c with
    | some '\x7d' => some .plain
    | some '-' => some .fallback
    | some '+' => some .alternative
    | some '?' => some .require
    | some '=' => some .assign
    | _ => none
  let cut (c : Char) (treatment : Bool → Treatment) (r : Reader) : Treatment × Bool × Reader :=
    match r.takeJoined with
    | (some d, after) =>
      if d = c then (treatment true, false, after) else (treatment false, false, after.putBack d)
    | (none, after) => (treatment false, false, after)
  match r.takeJoined with
  | (some ':', r) =>
    let (c, r) := r.takeJoined
    ((simple? c).getD .unknown, true, r)
  | (some '%', r) => cut '%' .cutEnd r
  | (some '#', r) => cut '#' .cutStart r
  | (c, r) => ((simple? c).getD .unknown, false, r)

/-- Takes a parameter, behind the dollar sign and before `c`, the first character of its name or an
opening brace. -/
def parameter (d : Draft) (c : Char) (r : Reader) : Onward :=
  let (named, braces) :=
    if c = '\x7b' then (readBracedName r, true) else (readName r (some c) false false, false)
  let (treatment, ifEmpty, reader) : Treatment × Bool × Reader :=
    if !braces then (.plain, false, named.reader)
    else if named.bad then (.unknown, false, named.reader)
    else if named.ofLength then
      (if named.reader.text.head? = some '\x7d' then .length else .unknown, false, named.reader)
    else readTreatment named.reader
  let d := { d with reader := reader }
  if treatment = .plain && !ifEmpty then
    (d.addPart (.parameter named.name .plain false [])).goOn
  else
    let style := match treatment with
      | .cutEnd _ | .cutStart _ => Style.base
      | _ => if d.layer.style = .arithmetic then .double else d.layer.style
    let d :=
      if style ≠ d.layer.style || d.layer.inner then
        d.pushLayer { Layer.ofStyle style with opened := true, quoted := style ≠ .base }
      else d
    let l := d.layer
    ({ d with layer := { l with
        depth := l.depth + 1
        quotedDepth := l.quotedDepth + (if l.quoted then 1 else 0) } }.openPart
      (.parameter named.name treatment ifEmpty)).goOn

/-! ## Commands within words -/

/-- The text between backquotes. `fuel` bounds its length. -/
def takeBackquoted (quoted : Bool) : Nat → Raw → Reader → Except ReadFault (Raw × Reader)
  | 0, _, r => .error (r.fault "EOF in backquote substitution")
  | fuel + 1, text, r =>
    match r.takeJoined with
    | (none, r) => .error (r.fault "EOF in backquote substitution")
    | (some '\x60', r) => .ok (text.reverse, r)
    | (some '\\', r) =>
      match r.take with
      | (none, r) => .error (r.fault "EOF in backquote substitution")
      | (some c, r) =>
        let taken := c = '\\' || c = '\x60' || c = '$' || (quoted && c = '"')
        takeBackquoted quoted fuel (if taken then c :: text else c :: '\\' :: text)
          (if c = '\n' then { r with line := r.line + 1 } else r)
    | (some c, r) =>
      takeBackquoted quoted fuel (c :: text)
        (if c = '\n' then { r with line := r.line + 1 } else r)

/-- Takes a command between backquotes, which is read as a text of its own. -/
def backquoted (d : Draft) (inner : ReadInner) : Except ReadFault Onward := do
  let r := d.reader
  let (text, r) ← takeBackquoted d.layer.quoted (r.text.length + 1) [] r
  let own := Reader.ofText text 1 r.nextDocument r.aliases
  let (command, own) ← inner { own with word := r.word }
  let r := { r with
    documents := r.documents ++ own.documents
    nextDocument := own.nextDocument
    word := own.word
    token := own.token }
  .ok ({ d with reader := r }.addPart (.output command)).goOn

/-- Takes a command between parentheses. -/
def parenthesized (d : Draft) (r : Reader) (inner : ReadInner) : Except ReadFault Onward := do
  let (command, after) ← inner { r with awaited := [], pushedBack := false }
  if after.token = .sign ")" then
    let after := { after with awaited := r.awaited, pushedBack := false, expected := r.expected }
    .ok ({ d with reader := after }.addPart (.output command)).goOn
  else .error (after.unexpected (some (.sign ")")))

/-- Takes what follows a dollar sign. -/
def dollar (d : Draft) (inner : ReadInner) : Except ReadFault Onward :=
  let (c, r) := d.reader.takeJoined
  let alone : Onward := ({ d with reader := r.putBack c }.add '$' false).goOn
  match c with
  | none => .ok alone
  | some c =>
    if r.expected.final then .ok alone
    else if c = '(' then
      match r.takeJoined with
      | (some '(', r) =>
        .ok ({ d with reader := r }.openPart .arithmetic
          |>.pushLayer { Layer.ofStyle .arithmetic with quoted := true }).goOn
      | (c, r) => d.parenthesized (r.putBack c) inner
    else if c = '\x7b' || isNameStart c || isSpecialName c then .ok (d.parameter c r)
    else .ok alone

/-! ## Words -/

/-- Takes one character. -/
def step (d : Draft) (inDocument : Bool) (inner : ReadInner) (c : Option Char) :
    Except ReadFault Onward :=
  match c with
  | none => .ok (.stop d none)
  | some c =>
    let l := d.layer
    if c = '\n' then
      if l.style = .base && l.depth = 0 then .ok (.stop d c)
      else
        let d := d.add c false
        let (next, r) := d.reader.take
        .ok (.line { d with reader := { r with line := r.line + 1 } } next)
    else
      match l.style with
      | .single =>
        if c = '\'' then .ok (d.endQuote c inDocument)
        else if c = '\\' || isMeaningful c then .ok (d.addQuoted c inDocument).goOn
        else .ok (d.add c false).goOn
      | _ =>
        if c = '\\' then .ok (d.backslash inDocument)
        else if c = '$' then d.dollar inner
        else if c = '\x60' then
          if d.reader.expected.final then .ok (d.add c false).goOn else d.backquoted inner
        else if c = '\x7d' then .ok d.closeBrace
        else
          match l.style with
          | .arithmetic =>
            if c = '(' then
              .ok { d.add c false with
                layer := { l with parentheses := l.parentheses + 1 } }.goOn
            else if c = ')' then .ok d.closeParenthesis
            else .ok (d.add c false).goOn
          | .double =>
            if c = '"' then .ok (d.endQuote c inDocument)
            else if isMeaningful c then .ok (d.addQuoted c inDocument).goOn
            else .ok (d.add c false).goOn
          | _ =>
            if c = '\'' then
              .ok ({ d with layer := { l with style := .single } }.addMark inDocument).goOn
            else if c = '"' then
              let l := { l with style := .double, quoted := true }
              let l := if 0 < l.depth then { l with inner := !l.inner } else l
              .ok ({ d with layer := l }.addMark inDocument).goOn
            else if endsWord c && l.depth = 0 then .ok (.stop d c)
            else .ok (d.add c false).goOn

/-- What is left of a text behind the line that ends a document, if that line comes first. -/
def behindFinal? (finalLine text : Raw) : Option Raw :=
  match finalLine.isPrefixOf? text with
  | some [] => some []
  | some ('\n' :: rest) => some rest
  | _ => none

/-- Takes the start of a line in a document. -/
def startLine (d : Draft) (a : Awaited) (c : Option Char) : Onward :=
  let text := c.toList ++ d.reader.text
  let text := if a.indented then text.dropWhile (· = '\t') else text
  match behindFinal? a.finalLine text with
  | some rest =>
    .stop { d with reader := { d.reader with
      text := rest
      line := d.reader.line + 1
      short := d.reader.short || rest.isEmpty } } none
  | none =>
    let (c, r) := { d.reader with text := text }.take
    .next { d with reader := r } c

/-- Reads the characters of a word. `fuel` bounds their number. -/
def read (document : Option Awaited) (inner : ReadInner) :
    Nat → Onward → Except ReadFault (Draft × Option Char)
  | 0, .next d c | 0, .line d c | 0, .stop d c => .ok (d, c)
  | _, .stop d c => .ok (d, c)
  | fuel + 1, .line d c =>
    match document with
    | some a => read document inner fuel
        (match d.startLine a c with
          | .line d c => .next d c
          | o => o)
    | none => read document inner fuel (.next d c)
  | fuel + 1, .next d c =>
    match d.step document.isSome inner c with
    | .error e => .error e
    | .ok o => read document inner fuel o

/-- The word of a draft that has come to its end. -/
def finish (d : Draft) (inDocument : Bool) : Except ReadFault Word :=
  if d.layer.style = .arithmetic then .error (d.reader.fault "Missing '))'")
  else if d.layer.style ≠ .base && !inDocument then
    .error (d.reader.fault "Unterminated quoted string")
  else if d.layer.depth ≠ 0 then .error (d.reader.fault "Missing '\x7d'")
  else .ok (Word.ofReversed d.parts)

end Draft

/-! ## Tokens -/

namespace Reader

/-- Reads a redirection operator behind its first character. -/
def readOperator (r : Reader) (first : Char) (descriptor : Option Nat) : Reader :=
  let (c, after) := r.takeJoined
  let back := after.putBack c
  let (standard, operator, r) : Nat × RedirectOperator × Reader :=
    if first = '>' then
      (1, match c with
        | some '>' => (.file .append, after)
        | some '|' => (.file .overwrite, after)
        | some '&' => (.same, after)
        | _ => (.file .output, back))
    else
      (0, match c with
        | some '<' =>
          match after.takeJoined with
          | (some '-', r) => (.document true, r)
          | (c, r) => (.document false, r.putBack c)
        | some '&' => (.same, after)
        | some '>' => (.file .update, after)
        | _ => (.file .input, back))
  { r with token := .redirection, operator := operator, descriptor := descriptor.getD standard }

/-- How many steps reading a word can take. -/
def wordFuel (r : Reader) : Nat := 2 * r.text.length + 8

/-- Reads a word, or the redirection operator that a single digit may precede. -/
def readWord (r : Reader) (inner : ReadInner) (c : Char) : Except ReadFault Reader := do
  let (d, c) ← Draft.read none inner r.wordFuel (.next (.ofReader r .base) (some c))
  let word ← d.finish false
  let operator? : Option (Char × Option Nat) :=
    match c, d.quoted, word.plain? with
    | some c, false, some cs =>
      if c ≠ '>' && c ≠ '<' then none
      else
        match cs with
        | [] => some (c, none)
        | [digit] => if digit.isDigit then some (c, some (digit.toNat - '0'.toNat)) else none
        | _ => none
    | _, _, _ => none
  match operator? with
  | some (first, descriptor) => .ok (d.reader.readOperator first descriptor)
  | none =>
    .ok { d.reader.putBack c with token := .word, word := word, quoted := d.quoted }

/-- Reads a token, of whatever kind. -/
def readAny (r : Reader) (inner : ReadInner) : Except ReadFault Reader :=
  if r.pushedBack then .ok { r with pushedBack := false }
  else
    let r := r.skipBlanks
    let (c, r) := r.takeJoined
    let sign (s : String) : Except ReadFault Reader := .ok { r with token := .sign s }
    let doubled (c : Char) (one two : String) : Except ReadFault Reader :=
      match r.takeJoined with
      | (some d, after) =>
        if d = c then .ok { after with token := .sign two }
        else .ok { after.putBack d with token := .sign one }
      | (none, after) => .ok { after with token := .sign one }
    match c with
    | none => .ok { r with token := .endOfFile }
    | some '\n' => .ok { r with token := .newline, line := r.line + 1 }
    | some '&' => doubled '&' "&" "&&"
    | some '|' => doubled '|' "|" "||"
    | some ';' => doubled ';' ";" ";;"
    | some '(' => sign "("
    | some ')' => sign ")"
    | some c => r.readWord inner c

/-- Reads the documents that are awaited. -/
def readDocuments (inner : ReadInner) : List Awaited → Reader → Except ReadFault Reader
  | [], r => .ok r
  | a :: rest, r => do
    let (c, r) := r.take
    let draft := Draft.ofReader r (if a.verbatim then .single else .double)
    let (d, _) ← Draft.read (some a) inner r.wordFuel (.line draft c)
    let word ← d.finish true
    readDocuments inner rest
      { d.reader with documents := d.reader.documents ++ [(a.number, word)] }

/-- Reads the documents behind a line. -/
def endLine (r : Reader) (inner : ReadInner) : Except ReadFault Reader :=
  readDocuments inner r.awaited { r with awaited := [] }

/-- Reads a token and skips line ends. `fuel` bounds their number. -/
def readPastLines (inner : ReadInner) : Nat → Reader → Except ReadFault Reader
  | 0, r => .ok r
  | fuel + 1, r => do
    if r.token = .newline then
      let r ← r.endLine inner
      readPastLines inner fuel (← { r with expected := .nothing }.readAny inner)
    else .ok r

/-- Reads a token, with the meaning that is expected here. `fuel` bounds the number of aliases. -/
def readTokenFrom (inner : ReadInner) : Nat → Expected → Reader → Except ReadFault Reader
  | 0, _, r => .ok r
  | fuel + 1, expected, r => do
    let r ← r.readAny inner
    let r ← if expected.skipLines then readPastLines inner (r.text.length + 1) r else .ok r
    let expected : Expected := ⟨expected.aliases || r.expected.aliases,
      expected.reserved || r.expected.reserved, expected.skipLines, false⟩
    let r := { r with expected := .nothing }
    if r.token ≠ .word || r.quoted then .ok r
    else
      let reserved? : Option String :=
        if expected.reserved then
          r.word.plain?.bind fun cs => reservedWords.find? (·.toList = cs)
        else none
      match reserved? with
      | some w => .ok { r with token := .sign w }
      | none =>
        match if expected.aliases then r.enterAlias? else none with
        | some r => readTokenFrom inner fuel expected r
        | none => .ok r

/-- The most aliases that may stand for each other at one place. -/
def aliasLimit : Nat := 1000

/-- Reads a token. -/
def readToken (r : Reader) (inner : ReadInner) : Except ReadFault Reader :=
  readTokenFrom inner aliasLimit r.expected r

end Reader

end CommandShell.Script
