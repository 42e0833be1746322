import CommandShell.Completion
import CommandShell.Fault

/-!
# The line editor

An editor turns keys into lines. It takes one key at a time and shows what it does on a screen,
which it flushes after each piece of output. A quiet editor shows nothing, takes tabs as they are
and knows no escape sequences.
-/

namespace CommandShell

/-- What a read of one byte gives. -/
inductive Key
  | byte (b : UInt8)
  /-- The end of the input, behind which more may follow. -/
  | endOfInput
  | failure (f : Fault)
  deriving DecidableEq

/-- How reading a line ended. -/
inductive ReadOutcome
  /-- There are no more lines. -/
  | quit
  /-- A line without text. -/
  | empty
  | line (text : String)
  deriving DecidableEq

/-- What an editor shows. -/
structure Screen where
  /-- The bytes shown so far. -/
  shown : Bytes
  /-- What comes of the flushes ahead; those behind the list succeed. -/
  flushes : List (Option Fault)
  deriving DecidableEq

/-- Shows bytes and flushes the screen. The bytes are shown even if the flush fails. -/
def Screen.emit (s : Screen) (bytes : Bytes) : Except Fault Unit × Screen :=
  let next : Screen := ⟨s.shown ++ bytes, s.flushes.drop 1⟩
  match s.flushes.head? with
  | some (some f) => (.error f, next)
  | _ => (.ok (), next)

/-- A line editor. -/
structure Editor where
  /-- What is shown in front of each line. -/
  prompt : String
  /-- Whether the editor shows what it does. -/
  echo : Bool
  deriving DecidableEq

namespace Editor

/-- An editor that shows nothing. -/
def quiet : Editor := ⟨"", false⟩

/-! ## Bytes with a meaning -/

def endOfTransmission : UInt8 := 0x04
def bell : UInt8 := 0x07
def backspace : UInt8 := 0x08
def tab : UInt8 := 0x09
def lineFeed : UInt8 := 0x0a
def carriageReturn : UInt8 := 0x0d
def escape : UInt8 := 0x1b
def space : UInt8 := 0x20
def delete : UInt8 := 0x7f

/-- Whether a byte stands for a character that is typed into the line. -/
def isPrintable (b : UInt8) : Bool := 0x20 ≤ b && b ≤ 0x7e

/-- The character of a printable byte has the byte as its code. -/
theorem toNat_of_isPrintable {b : UInt8} (h : isPrintable b = true) :
    (Char.ofNat b.toNat).toNat = b.toNat ∧ 0x20 ≤ b.toNat ∧ b.toNat ≤ 0x7e := by
  have hb : 0x20 ≤ b.toNat ∧ b.toNat ≤ 0x7e := by
    simpa [isPrintable, UInt8.le_iff_toNat_le] using h
  refine ⟨?_, hb⟩
  rw [Char.ofNat, dif_pos (.inl (by omega))]
  rfl

/-! ## The line being edited -/

/-- How far into an escape sequence the editor is. -/
inductive Pending
  | nothing
  /-- The next byte is the first after the escape. -/
  | first
  /-- The next byte is the second after the escape; the first may have been the end of the input. -/
  | second (first : Option UInt8)
  deriving DecidableEq

/-- A line being edited. -/
structure LineState where
  /-- The text, all to the left of the cursor. -/
  buffer : List Char
  /-- Whether the last key was a tab that rang the bell for several candidates. -/
  bellRang : Bool
  /-- The history entry that is shown; the number of entries stands for the fresh line. -/
  entry : Nat
  pending : Pending
  deriving DecidableEq

/-- The line at the start. -/
def LineState.fresh (history : List String) : LineState := ⟨[], false, history.length, .nothing⟩

/-- What an editor knows while it reads a line. -/
structure Context where
  history : List String
  complete : String → Completion

/-- What a key leads to. -/
inductive Pressed
  | goOn (line : LineState) (screen : Screen)
  | stop (result : Except Fault ReadOutcome) (screen : Screen)

/-- Shows bytes, unless the editor is quiet. -/
def emit (e : Editor) (screen : Screen) (bytes : Bytes) : Except Fault Unit × Screen :=
  if e.echo then screen.emit bytes else (.ok (), screen)

/-- Shows bytes and goes on with a line. -/
def showAndGoOn (e : Editor) (line : LineState) (screen : Screen) (bytes : Bytes) : Pressed :=
  match e.emit screen bytes with
  | (.ok (), screen) => .goOn line screen
  | (.error f, screen) => .stop (.error f) screen

/-- Ends the line on the screen, with an outcome. -/
def endWith (e : Editor) (screen : Screen) (outcome : ReadOutcome) :
    Except Fault ReadOutcome × Screen :=
  let (shown, screen) := e.emit screen [lineFeed]
  (shown.map fun _ => outcome, screen)

/-- The outcome of a line that a newline ends. -/
def outcomeOf (buffer : List Char) : ReadOutcome :=
  if buffer.isEmpty then .empty else .line (String.ofList buffer)

/-- What shows a text in place of another: the old one is stepped back over, blanked out and stepped
back over again. -/
def replacing (old new : List Char) : Bytes :=
  List.replicate old.length backspace ++ List.replicate old.length space ++
    List.replicate old.length backspace ++ Text.encode (String.ofList new)

/-- Completes the line. Several candidates ring the bell at first, and are listed by a second tab in
a row. -/
def pressTab (e : Editor) (c : Context) (line : LineState) (screen : Screen) : Pressed :=
  match c.complete (String.ofList line.buffer) with
  | .none => e.showAndGoOn { line with bellRang := false } screen [bell]
  | .found text =>
    e.showAndGoOn { line with buffer := line.buffer ++ text.toList, bellRang := false } screen
      (Text.encode text)
  | .more names =>
    if line.bellRang then
      e.showAndGoOn { line with bellRang := false } screen
        (Text.encode ("\n" ++ String.intercalate "  " names ++ "\n" ++ e.prompt ++
          String.ofList line.buffer))
    else e.showAndGoOn { line with bellRang := true } screen [bell]

/-- Shows the history entry of the given number, unless it is shown already. -/
def showEntry (e : Editor) (c : Context) (line : LineState) (screen : Screen) (entry : Nat) :
    Pressed :=
  if entry = line.entry then .goOn line screen
  else
    let text := ((c.history[entry]?).getD "").toList
    e.showAndGoOn { line with entry := entry, buffer := text } screen (replacing line.buffer text)

/-- Completes an escape sequence: the sequences of the arrow keys walk through the history, all
others do nothing. -/
def pressSequence (e : Editor) (c : Context) (line : LineState) (screen : Screen)
    (first second : Option UInt8) : Pressed :=
  let line := { line with pending := .nothing }
  if first = some 0x5b ∧ second = some 0x41 then
    e.showEntry c line screen (line.entry - 1)
  else if first = some 0x5b ∧ second = some 0x42 then
    e.showEntry c line screen (min (line.entry + 1) c.history.length)
  else .goOn line screen

/-- Takes a byte that belongs to no escape sequence. -/
def pressByte (e : Editor) (c : Context) (line : LineState) (screen : Screen) (b : UInt8) :
    Pressed :=
  let line := if b = tab then line else { line with bellRang := false }
  if b = lineFeed ∨ b = carriageReturn then
    let (result, screen) := e.endWith screen (outcomeOf line.buffer)
    .stop result screen
  else if b = endOfTransmission then
    if line.buffer.isEmpty then
      let (result, screen) := e.endWith screen .quit
      .stop result screen
    else .goOn line screen
  else if b = delete ∨ b = backspace then
    if line.buffer.isEmpty then .goOn line screen
    else
      e.showAndGoOn { line with buffer := line.buffer.dropLast } screen
        [backspace, space, backspace]
  else if b = tab then
    if e.echo then e.pressTab c line screen
    else .goOn { line with buffer := line.buffer ++ ['\t'] } screen
  else if b = escape ∧ e.echo then .goOn { line with pending := .first } screen
  else if isPrintable b then
    e.showAndGoOn { line with buffer := line.buffer ++ [Char.ofNat b.toNat] } screen [b]
  else .goOn line screen

/-- Takes the end of the input: a line that has been started is given out. -/
def atEnd (e : Editor) (line : LineState) (screen : Screen) : Except Fault ReadOutcome × Screen :=
  if line.buffer.isEmpty then (.ok .quit, screen) else e.endWith screen (outcomeOf line.buffer)

/-- Takes a byte or the end of the input. -/
def pressRead (e : Editor) (c : Context) (line : LineState) (screen : Screen)
    (read : Option UInt8) : Pressed :=
  match line.pending, read with
  | .nothing, some b => e.pressByte c line screen b
  | .nothing, none =>
    let (result, screen) := e.atEnd line screen
    .stop result screen
  | .first, read => .goOn { line with pending := .second read } screen
  | .second first, read => e.pressSequence c line screen first read

/-- Takes a key. A read that was interrupted is made again. -/
def press (e : Editor) (c : Context) (line : LineState) (screen : Screen) : Key → Pressed
  | .byte b => e.pressRead c line screen (some b)
  | .endOfInput => e.pressRead c line screen none
  | .failure f => if f.kind = .interrupted then .goOn line screen else .stop (.error f) screen

/-! ## Reading lines -/

/-- What reading a line gives: its outcome, the screen after it, and the keys that are left. -/
structure ReadResult where
  outcome : Except Fault ReadOutcome
  screen : Screen
  rest : List Key

/-- Reads on from a line that has been started. Behind the last key, the input is at its end. -/
def readFrom (e : Editor) (c : Context) : LineState → Screen → List Key → ReadResult
  | line, screen, [] =>
    let (result, screen) := e.atEnd line screen
    ⟨result, screen, []⟩
  | line, screen, key :: keys =>
    match e.press c line screen key with
    | .goOn line screen => readFrom e c line screen keys
    | .stop result screen => ⟨result, screen, keys⟩

/-- Reads a line. -/
def readLine (e : Editor) (c : Context) (screen : Screen) (keys : List Key) : ReadResult :=
  match e.emit screen (Text.encode e.prompt) with
  | (.ok (), screen) => e.readFrom c (.fresh c.history) screen keys
  | (.error f, screen) => ⟨.error f, screen, keys⟩

/-! ## What a quiet editor passes over -/

/-- The byte of a key that a quiet editor does nothing about. -/
def ignored? : Key → Option UInt8
  | .byte b =>
    let known := [lineFeed, carriageReturn, endOfTransmission, delete, backspace, tab]
    if isPrintable b || known.contains b then none else some b
  | _ => none

/-- Whether a quiet editor has come to the end of its keys, by the keys that it has read and by what
came of them: nothing else than the end of a line or of all lines stands behind the last of them. -/
def sawEnd (read : List Key) (outcome : Except Fault ReadOutcome) : Bool :=
  let last (b : UInt8) : Bool := read.getLast? = some (.byte b)
  match outcome with
  | .ok .quit => !last endOfTransmission
  | .ok (.line _) => !last lineFeed && !last carriageReturn
  | _ => false

end Editor

end CommandShell
