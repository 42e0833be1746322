import CommandShell.Script.Arithmetic
import CommandShell.Script.Field
import CommandShell.Script.Pattern

/-!
# Expanding words of scripts

A word becomes fields: parameters, arithmetic and commands are replaced by what they stand for, what
stands outside quotes is split into fields, and fields that are patterns of paths are replaced by the
paths. Commands are not run here: expanding stops at the first whose output is not known yet, and is
done again with the outputs known so far.
-/

namespace CommandShell.Script

/-- What a word is expanded for. -/
inductive Purpose
  /-- For the fields of a command. -/
  | fields
  /-- For one text. -/
  | text
  /-- For the value of an assignment, where tildes may follow colons. -/
  | assignment
  /-- For a pattern. -/
  | pattern
  /-- For the text of a document. -/
  | document
  deriving DecidableEq

/-- How the parts of a word are expanded. -/
structure Manner where
  /-- Whether fields will be split. -/
  splits : Bool
  /-- Whether a tilde may start the word. -/
  tilde : Bool
  /-- Whether tildes may follow an equals sign and colons. -/
  assigns : Bool
  /-- Whether the word is within quotes. -/
  quoted : Bool
  /-- Whether the word stands for a parameter. -/
  inner : Bool
  /-- Whether nothing comes of the word. -/
  idle : Bool

namespace Purpose

/-- How the words for a purpose are expanded. -/
def manner : Purpose → Manner
  | fields => ⟨true, true, false, false, false, false⟩
  | text => ⟨false, true, false, false, false, false⟩
  | assignment => ⟨false, false, true, false, false, false⟩
  | pattern => ⟨false, true, false, false, false, false⟩
  | document => ⟨false, false, false, true, false, false⟩

end Purpose

/-- Why expanding stops. -/
inductive Stop
  | failed (f : Failure)
  /-- The output of a command is wanted. -/
  | wants (c : Command) (s : Scope)

/-- A word as far as it is expanded. -/
structure Expansion where
  cells : Array Cell
  /-- The regions in which fields are split. -/
  regions : List Region
  scope : Scope
  /-- The outputs of the commands ahead, as far as they are known. -/
  outputs : List Raw

namespace Expansion

/-- A word of which nothing is expanded yet. -/
def start (s : Scope) (outputs : List Raw) : Expansion := ⟨#[], [], s, outputs⟩

/-- Adds a cell. -/
def add (e : Expansion) (c : Cell) : Expansion := { e with cells := e.cells.push c }

/-- Adds characters that the word is written with. -/
def addText (e : Expansion) (cs : Raw) (escaped : Bool) : Expansion :=
  { e with cells := cs.foldl (fun cells c => cells.push (.char c escaped)) e.cells }

/-- Adds the characters of a value. In quotes those with a meaning are escaped. -/
def addValue (e : Expansion) (quoted : Bool) (cs : Raw) : Expansion :=
  let special (c : Char) : Bool := c = '\\' || "!*?[=~:/-]".toList.contains c
  let cells := cs.foldl (fun cells c => cells.push (.char c (quoted && special c))) e.cells
  { e with cells := cells }

/-- Adds a region, up to the end. -/
def addRegion (e : Expansion) (first : Nat) (strict : Bool) : Expansion :=
  { e with regions := e.regions ++ [⟨first, e.cells.size, strict⟩] }

/-- Takes back what was added from a place on. -/
def backTo (e : Expansion) (place : Nat) : Expansion :=
  { e with cells := e.cells.take place, regions := Region.before place e.regions }

/-- The characters from a place on. -/
def textFrom (e : Expansion) (place : Nat) : Raw :=
  Cell.characters (e.cells.extract place e.cells.size).toList

/-- The directory of a user, by the name behind a tilde; no name is the user of the script. -/
def home? (s : Scope) : Raw → Option Raw
  | [] => s.value? "HOME".toList
  | name => if name = "root".toList then some "/root".toList else none

/-- Expands a tilde at the start of a text, if it stands for a directory; `last` says that nothing
follows the text. -/
def addTilde? (m : Manner) (last : Bool) (e : Expansion) : Raw → Option (Expansion × Raw)
  | '~' :: cs =>
    let ends (c : Char) : Bool := c = '/' || (m.assigns && c = ':')
    let name := cs.takeWhile fun c => !ends c
    let rest := cs.drop name.length
    if rest.isEmpty && !last then none
    else if m.idle then some (e, rest)
    else (home? e.scope name).map fun home => (e.addValue true home, rest)
  | _ => none

/-- Adds the characters of a text that the word is written with. Where tildes may stand they are
expanded. `fuel` bounds the number of tildes. -/
def addLiteral (m : Manner) (last : Bool) :
    Nat → Bool → Bool → Expansion → Raw → Expansion × Bool
  | 0, _, colons, e, cs => (e.addText cs false, colons)
  | fuel + 1, atTilde, colons, e, cs =>
    match if atTilde then e.addTilde? m last cs else none with
    | some (e, rest) => addLiteral m last fuel false colons e rest
    | none =>
      if !m.assigns then (e.addText cs false, colons)
      else
        let stops (c : Char) : Bool := if colons then c = ':' else c = '=' || c = ':'
        match cs.dropWhile fun c => !stops c with
        | [] => (e.addText cs false, colons)
        | c :: rest =>
          let e := e.addText (cs.take (cs.length - rest.length)) false
          addLiteral m last fuel true (colons || c = '=') e rest

/-- Adds the parameters with separators between them. -/
def addParameters (e : Expansion) (quoted : Bool) (separator : Option Cell) :
    List Raw → Expansion
  | [] => e
  | [p] => e.addValue quoted p
  | p :: ps =>
    let e := e.addValue quoted p
    addParameters (match separator with
      | some c => e.add c
      | none => e) quoted separator ps

/-- Adds the value of a parameter, and gives its length; nothing if it has none. -/
def addParameter (m : Manner) (quoted : Bool) (e : Expansion) (name : Raw) :
    Option Nat × Expansion :=
  let first := e.cells.size
  if name = ['@'] ∨ name = ['*'] then
    let separator : Option Cell :=
      if m.splits && quoted && name = ['@'] then some .fieldEnd
      else
        match e.scope.value? "IFS".toList with
        | none => some (.char ' ' false)
        | some separators =>
          if m.splits && !quoted then some .fieldEnd
          else separators.head?.map fun c => .char c false
    let e := e.addParameters quoted separator e.scope.parameters
    (some (e.cells.size - first), e)
  else
    match e.scope.parameter? name with
    | none => (none, e)
    | some value => (some value.length, e.addValue quoted value)

/-- Marks the region of a value. -/
def closeValue (e : Expansion) (quoted : Bool) (name : Raw) (first : Nat) : Expansion :=
  if !quoted then e.addRegion first false
  else if name = ['@'] ∧ !e.scope.parameters.isEmpty then e.addRegion first true
  else e

/-- The message for a parameter that has no value. -/
def unsetFault (name message : Raw) : Stop :=
  .failed (.message (name ++ ": ".toList ++ message))

/-- The message for a parameter that has no value, if no other is given. -/
def notSet : Raw := "parameter not set".toList

/-- Cuts a value, from one place to another, by the pattern behind it. -/
def cut (e : Expansion) (first behind : Nat) (treatment : Treatment) : Expansion :=
  let value := (e.cells.extract first behind).toList
  let c : Pattern.Cutting := {
    pattern := Cell.pattern (e.cells.extract behind e.cells.size).toList
    value := value.map fun c => (c.char?).getD '\x00'
    copied := (value.takeWhile (· ≠ .fieldEnd)).any Cell.isEscaped }
  let kept : List Cell := match treatment with
    | .cutEnd longest => ((c.endPlace? longest).map value.take).getD value
    | .cutStart longest => ((c.startPlace? longest).map value.drop).getD value
    | _ => value
  { e.backTo first with cells := kept.foldl Array.push (e.backTo first).cells }

/-- Drops the newlines at the end of an output, and characters that no text holds. -/
def trimOutput (cs : Raw) : Raw :=
  ((cs.filter (· ≠ '\x00')).reverse.dropWhile (· = '\n')).reverse

mutual

/-- Expands the parts of a word. `quoted` says that an odd number of marks precedes, `atTilde` that a
tilde may come next, and `colons` that an equals sign precedes. -/
def expandParts (m : Manner) (quoted atTilde colons : Bool) (e : Expansion) (parts : List Part) :
    Except Stop Expansion :=
  match parts with
  | [] => .ok e
  | .text cs true :: rest =>
    expandParts m quoted false colons (if m.idle then e else e.addText cs true) rest
  | .text cs false :: rest =>
    let first := e.cells.size
    let (next, colons) := if m.idle then (e, colons)
      else e.addLiteral m rest.isEmpty (cs.length + 1) (atTilde && !quoted) colons cs
    let next :=
      if m.inner && !m.quoted && !quoted && first < next.cells.size then
        next.addRegion first false
      else next
    expandParts m quoted false colons next rest
  | .mark :: .parameter ['@'] .plain false [] :: .mark :: rest =>
    if quoted then do
      let e := if m.idle then e else e.add .mark
      let e ← expandParameter { m with quoted := m.quoted } e ['@'] .plain false []
      expandParts m true false colons (if m.idle then e else e.add .mark) rest
    else do
      let e ← expandParameter { m with quoted := true } e ['@'] .plain false []
      expandParts m false false colons e rest
  | .mark :: rest => expandParts m (!quoted) false colons (if m.idle then e else e.add .mark) rest
  | .parameter name treatment ifEmpty word :: rest => do
    let e ← expandParameter { m with quoted := m.quoted || quoted } e name treatment ifEmpty word
    expandParts m quoted false colons e rest
  | .output command :: rest => do
    let own := m.quoted || quoted
    let e ← if m.idle then pure e
      else
        match command with
        | none =>
          let first := e.cells.size
          pure (if own then e else e.addRegion first false)
        | some c =>
          match e.outputs with
          | [] => throw (.wants c e.scope)
          | text :: outputs =>
            let first := e.cells.size
            let e := { e with outputs := outputs }.addValue own (trimOutput text)
            pure (if own then e else e.addRegion first false)
    expandParts m quoted false colons e rest
  | .arithmetic expression :: rest => do
    let own := m.quoted || quoted
    let first := e.cells.size
    let inner ← expandParts ⟨false, false, false, false, false, m.idle⟩ false false false e
      expression
    let e ← if m.idle then pure inner
      else
        let text := inner.textFrom first
        match Arithmetic.evaluate inner.scope text with
        | .error f => throw (.failed f)
        | .ok (n, s) =>
          let e := { inner.backTo first with scope := s }.addValue own (Raw.ofInt n)
          pure (if own then e else e.addRegion first false)
    expandParts m quoted false colons e rest
termination_by sizeOf parts

/-- Expands a parameter. -/
def expandParameter (m : Manner) (e : Expansion) (name : Raw) (treatment : Treatment)
    (ifEmpty : Bool) (word : List Part) : Except Stop Expansion :=
  let quoted := m.quoted
  let first := e.cells.size
  let counts : Bool := treatment = .length ∨ treatment = .alternative
  let (length, valued) := e.addParameter { m with splits := m.splits && !counts } quoted name
  let usable : Bool := match length with
    | none => false
    | some n => !ifEmpty || n ≠ 0
  let asWord : Manner := { m with tilde := true, inner := true }
  let alone : Manner := ⟨false, true, false, false, false, m.idle⟩
  let unset : Except Stop Expansion → Except Stop Expansion := fun next =>
    if !usable && !m.idle && e.scope.has "nounset" then .error (unsetFault name notSet) else next
  match treatment with
  | .unknown =>
    if m.idle then .ok e else .error (.failed (.message "Bad substitution".toList))
  | .plain =>
    unset (.ok (if m.idle || !usable then e else valued.closeValue quoted name first))
  | .length =>
    unset (if m.idle then .ok e
      else .ok ((e.addValue quoted (Raw.ofInt (length.getD 0))).closeValue quoted name first))
  | .alternative =>
    if usable then expandParts asWord false true false e word else .ok e
  | .fallback =>
    if usable then .ok (if m.idle then e else valued.closeValue quoted name first)
    else expandParts asWord false true false e word
  | .assign =>
    if usable then .ok (if m.idle then e else valued.closeValue quoted name first)
    else if m.idle then .ok e
    else do
      let worded ← expandParts alone false true false e word
      let text := worded.textFrom first
      match worded.scope.assignNamed name text with
      | .error f => throw (.failed (.message f))
      | .ok s =>
        let e := { worded.backTo first with scope := s }
        let (_, valued) := e.addParameter m quoted name
        .ok (valued.closeValue quoted name first)
  | .require =>
    if usable then .ok (if m.idle then e else valued.closeValue quoted name first)
    else if m.idle then .ok e
    else do
      let worded ← expandParts alone false true false e word
      throw (unsetFault name
        (if word.isEmpty then notSet ++ (if ifEmpty then " or null".toList else [])
          else worded.textFrom first))
  | .cutEnd _ | .cutStart _ =>
    unset (if m.idle || !usable then .ok e
      else do
        let behind := valued.cells.size
        let worded ← expandParts alone false true false valued word
        .ok ((worded.cut first behind treatment).closeValue quoted name first))
termination_by sizeOf word + 1

end

/-- Expands a word for a purpose. -/
def expand (purpose : Purpose) (s : Scope) (outputs : List Raw) (w : Word) :
    Except Stop Expansion :=
  let m := purpose.manner
  expandParts m false m.tilde false (.start s outputs) w

/-- What a field becomes: the paths that it is a pattern of, or its text. -/
def paths (fs : FileSystem) (directory : Location) (s : Scope) (cells : List Cell) : List Raw :=
  let plain := [Cell.characters cells]
  let special (c : Cell) : Bool := (c.char?).any fun c => c = '*' || c = '?' || c = '['
  if s.has "noglob" || !cells.any special then plain
  else
    match Pattern.paths fs directory (Cell.pattern cells) with
    | [] => plain
    | found => found

/-- The texts that an expanded word stands for. -/
def texts (purpose : Purpose) (fs : FileSystem) (directory : Location) (e : Expansion) :
    List Raw :=
  match purpose with
  | .fields =>
    let cells := e.cells
    let fields := if e.regions.isEmpty then (if cells.isEmpty then [] else [cells.toList])
      else splitFields e.scope.separators none cells e.regions
    fields.flatMap (paths fs directory e.scope)
  | .pattern => [Cell.pattern e.cells.toList]
  | _ => [Cell.characters e.cells.toList]

end Expansion

end CommandShell.Script
