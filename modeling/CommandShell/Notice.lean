import CommandShell.Number
import CommandShell.Text
import CommandShell.Text.Alphanumeric

/-!
# Notices

What a shell tells about its own doings on standard error, besides the output of its commands. A
notice comes from a part of the program and has a level; a filter, read from a text, chooses the
notices that are told. Of the directives of a filter that fit a notice the most particular decides.
-/

namespace CommandShell

/-- How important a notice is, the most important first. -/
inductive Level
  | error
  | warn
  | info
  | debug
  | trace
  deriving DecidableEq

namespace Level

/-- The rank of a level: a filter of a rank lets through the levels up to it. -/
def rank : Level → Nat
  | error => 1
  | warn => 2
  | info => 3
  | debug => 4
  | trace => 5

/-- The name that a notice shows. -/
def shown : Level → String
  | error => "ERROR"
  | warn => " WARN"
  | info => " INFO"
  | debug => "DEBUG"
  | trace => "TRACE"

end Level

/-- Something worth telling. -/
structure Notice where
  /-- The part of the program that tells it. -/
  part : String
  level : Level
  message : String
  /-- What is told besides the message, by name and as it is shown. -/
  fields : List (String × String)
  deriving DecidableEq

namespace Notice

/-- A character as it is shown between quotes. -/
def quotedChar (c : Char) : String :=
  if c = '"' then "\\\""
  else if c = '\\' then "\\\\"
  else if c = '\n' then "\\n"
  else if c = '\r' then "\\r"
  else if c = '\t' then "\\t"
  else if c = '\x00' then "\\0"
  else if Text.isPrintable c then String.singleton c
  else "\\u\x7b" ++ String.ofList (Nat.toDigits 16 c.toNat) ++ "\x7d"

/-- A text between quotes. -/
def quoted (s : String) : String := "\"" ++ String.join (s.toList.map quotedChar) ++ "\""

/-- The line that a notice is told by. -/
def text (n : Notice) : String :=
  n.level.shown ++ " " ++ n.message ++
    String.join (n.fields.map fun f => " " ++ f.1 ++ "=" ++ f.2)

end Notice

/-- What a filter says about the notices of some parts of the program. -/
structure Directive where
  /-- What the names of the parts start with; all parts if it is missing. -/
  part : Option String
  /-- The fields that a notice has to have. -/
  fields : List String
  /-- Whether the directive is for what happens within some activity only; no notice does. -/
  within : Bool
  /-- The highest rank of the notices that are told. -/
  rank : Nat
  deriving DecidableEq

namespace Directive

/-- The rank that a text names. -/
def rank? (s : String) : Option Nat :=
  match readNumber s with
  | .ok n => if n ≤ 5 then some n else none
  | .error _ =>
    [("", 1), ("error", 1), ("warn", 2), ("info", 3), ("debug", 4), ("trace", 5), ("off", 0)].lookup
      (String.ofList (s.toList.map Char.toLower))

/-- How far the reading of a directive has come. The numbers say where a name started. -/
inductive Progress
  | start
  | levelOrPart (first : Nat)
  | activity (first : Nat)
  | field (first : Nat)
  | fields
  | behind
  | level (first : Nat)

/-- A directive that says nothing yet. -/
def blank : Directive := ⟨none, [], false, 5⟩

/-- The characters of a list from one place to another. -/
def slice (cs : List Char) (first last : Nat) : String :=
  String.ofList ((cs.take last).drop first)

/-- Adds a field, given by its name or by its name and a value. A value is never met. -/
def addField (d : Directive) (field : String) : Option Directive :=
  if field = "" then none
  else if field.toList.contains '=' then some { d with within := true }
  else some { d with fields := d.fields ++ [field] }

/-- Takes one more character of a directive into account. `cs` is the whole text. -/
def advance (cs : List Char) (place : Nat) (c : Char) (d : Directive) :
    Progress → Option (Directive × Progress)
  | .start =>
    if c = '[' then some (d, .activity (place + 1))
    else if ['-', ':', '_'].contains c || Text.isAlphanumeric c then some (d, .levelOrPart place)
    else none
  | .levelOrPart first =>
    if c = '=' then some ({ d with part := some (slice cs first place) }, .level (place + 1))
    else if c = '[' then
      some ({ d with part := some (slice cs first place) }, .activity (place + 1))
    else some (d, .levelOrPart first)
  | .activity first =>
    if c = ']' then some ({ d with within := true }, .behind)
    else if c = '\x7b' then
      some ({ d with within := d.within || slice cs first place ≠ "" }, .field (place + 1))
    else some (d, .activity first)
  | .field first =>
    if c = '\x7d' then (d.addField (slice cs first place)).map fun d => (d, .fields)
    else some (d, .field first)
  | .fields => if c = ']' then some (d, .behind) else none
  | .behind => if c = '=' then some (d, .level (place + 1)) else none
  | .level first => some (d, .level first)

/-- Takes the end of a directive into account. -/
def finish (cs : List Char) (d : Directive) : Progress → Option Directive
  | .levelOrPart first =>
    let text := slice cs first cs.length
    match rank? text with
    | some rank => some { d with rank := rank }
    | none => some { d with part := some text }
  | .level first =>
    let text := slice cs first cs.length
    if text = "" then some d else (rank? text).map fun rank => { d with rank := rank }
  | .behind => some d
  | _ => none

/-- Reads a directive. Blanks around it are not looked at, and yet belong to the names in it. -/
def parse? (text : String) : Option Directive := do
  let cs := text.toList
  let inner := ((cs.dropWhile Text.isWhiteSpace).reverse.dropWhile Text.isWhiteSpace).reverse
  let (d, progress) ← inner.zipIdx.foldlM
    (fun (d, progress) (c, place) => advance cs place c d progress) (blank, Progress.start)
  finish cs d progress

/-- Whether a directive is for a notice. -/
def fits (d : Directive) (n : Notice) : Bool :=
  !d.within && (d.part.all fun part => part.toList.isPrefixOf n.part.toList) &&
    d.fields.all fun name => name = "message" || (n.fields.lookup name).isSome

/-- The length of a directive's part, which is greater for a more particular one. -/
def reach (d : Directive) : Nat :=
  match d.part with
  | some part => part.utf8ByteSize + 1
  | none => 0

/-- Whether a directive is at least as particular as another. -/
def covers (d other : Directive) : Bool :=
  other.reach < d.reach || (other.reach = d.reach &&
    (other.fields.length < d.fields.length ||
      (other.fields.length = d.fields.length && !(decide (d.fields < other.fields)))))

end Directive

/-- Which notices are told. -/
structure Filter where
  directives : List Directive
  deriving DecidableEq

namespace Filter

/-- Tells nothing. -/
def silent : Filter := ⟨[]⟩

/-- Tells the notices of all parts up to a level. -/
def upTo (level : Level) : Filter := ⟨[{ Directive.blank with rank := level.rank }]⟩

/-- The filter that a text stands for: directives between commas. A text without directives tells
errors. -/
def parse? (text : String) : Option Filter := do
  let directives ← ((Text.splitOn ',' text).filter (· ≠ "")).mapM Directive.parse?
  return if directives.isEmpty then upTo .error else ⟨directives⟩

/-- The directive that decides about a notice: the most particular, of equals the last. -/
def deciding? (f : Filter) (n : Notice) : Option Directive :=
  (f.directives.filter (·.fits n)).foldl
    (fun (best : Option Directive) d =>
      match best with
      | some b => if d.covers b then some d else some b
      | none => some d)
    none

/-- Whether a notice is told. -/
def tells (f : Filter) (n : Notice) : Bool :=
  match f.deciding? n with
  | some d => n.level.rank ≤ d.rank
  | none => false

end Filter

end CommandShell
