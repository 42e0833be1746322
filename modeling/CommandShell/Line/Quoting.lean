/-!
# Quoting

Where a scan of a line stands with respect to quotes and backslashes. Outside quotes a backslash
takes the next character as it is. Single quotes take everything up to the next single quote.
Within double quotes a backslash takes a following backslash or double quote and otherwise stands
for itself.
-/

namespace CommandShell

/-- The state of the scan between two characters. -/
inductive Quoting
  /-- Outside quotes. -/
  | bare
  /-- Outside quotes, after a backslash. -/
  | bareEscape
  /-- Within single quotes. -/
  | single
  /-- Within double quotes. -/
  | double
  /-- Within double quotes, after a backslash. -/
  | doubleEscape
  deriving DecidableEq

namespace Quoting

/-- The state after one more character. -/
def next : Quoting → Char → Quoting
  | bare, c =>
    if c = '\'' then single else if c = '"' then double else if c = '\\' then bareEscape else bare
  | bareEscape, _ => bare
  | single, c => if c = '\'' then bare else single
  | double, c => if c = '"' then bare else if c = '\\' then doubleEscape else double
  | doubleEscape, _ => double

/-- What one more character adds to the word being read. -/
def emits : Quoting → Char → List Char
  | bare, c => if c = '\'' ∨ c = '"' ∨ c = '\\' then [] else [c]
  | bareEscape, c => [c]
  | single, c => if c = '\'' then [] else [c]
  | double, c => if c = '"' ∨ c = '\\' then [] else [c]
  | doubleEscape, c => if c = '"' ∨ c = '\\' then [c] else ['\\', c]

/-- What the end of the line adds: within double quotes, a backslash without a successor. -/
def rest : Quoting → List Char
  | doubleEscape => ['\\']
  | _ => []

/-- The state after a run of characters. -/
def run (q : Quoting) (cs : List Char) : Quoting := cs.foldl next q

/-- What a run of characters adds to the word being read. -/
def output : Quoting → List Char → List Char
  | _, [] => []
  | q, c :: cs => q.emits c ++ (q.next c).output cs

/-- A line part after which the scan stands outside quotes again. -/
def Closed (cs : List Char) : Prop := bare.run cs = bare

instance (cs : List Char) : Decidable (Closed cs) := inferInstanceAs (Decidable (_ = _))

@[simp] theorem run_nil (q : Quoting) : q.run [] = q := rfl

@[simp] theorem run_cons (q : Quoting) (c : Char) (cs : List Char) :
    q.run (c :: cs) = (q.next c).run cs := rfl

/-- Running over two parts is running over one and then the other. -/
theorem run_append (q : Quoting) (as bs : List Char) : q.run (as ++ bs) = (q.run as).run bs := by
  simp [run]

end Quoting

end CommandShell
