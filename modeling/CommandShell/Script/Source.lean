import CommandShell.Script.Grammar
import CommandShell.Script.Machine

/-!
# Reading the texts of scripts

The text of a script is read in blocks, as far as its next command line needs it. Commands are read
one line at a time, so that what a line does can change how the next is read.
-/

namespace CommandShell.Script

/-- The most bytes of a text that are read at once. -/
def blockLength : Nat := 8192

/-- What comes of reading a text. -/
inductive Advance
  /-- There is nothing to be read yet. -/
  | waits
  /-- More of the text was read. -/
  | more (s : Source) (h : Host)
  /-- There are no more commands. -/
  | finished
  /-- A line was read; `final` says that the text ends with it. -/
  | line (c : Option Command) (final : Bool) (s : Source) (m : Machine) (taken : Raw)
  /-- A line cannot be read. -/
  | fault (f : ReadFault) (taken : Raw)

namespace Machine

/-- Reads another block of a text. -/
def readBlock (m : Machine) (h : Host) (s : Source) : Advance :=
  let ended : Advance := .more { s with complete := true } h
  match s.descriptor.bind m.process.descriptors.get? with
  | none => ended
  | some handle =>
    if !h.mayRead handle then ended
    else
      match h.read handle blockLength with
      | (.waits, _) => .waits
      | (.bytes [], _) => ended
      | (.bytes bytes, h) =>
        .more { s with text := s.text ++ (Raw.ofBytes bytes).filter (· ≠ '\x00') } h

/-- The lines of a text up to a number of them. -/
def firstLines : Nat → Raw → Raw
  | 0, _ => []
  | n + 1, cs =>
    let line := cs.takeWhile (· ≠ '\n')
    match cs.drop line.length with
    | c :: rest => line ++ c :: firstLines n rest
    | [] => line

/-- Reads the next line of commands of a text. -/
def advance (m : Machine) (h : Host) (s : Source) : Advance :=
  if s.text.isEmpty && !s.complete then m.readBlock h s
  else
    match (Reader.ofText s.text s.line m.nextDocument m.aliases).readCommandLine with
    | .error f =>
      if s.complete then .fault f (firstLines (f.line - s.line + 1) s.text) else m.readBlock h s
    | .ok (c, r) =>
      if r.short && !s.complete then m.readBlock h s
      else
        let atEnd : Bool := r.pushedBack && r.token = .endOfFile
        if c.isNone && atEnd then .finished
        else
          .line c atEnd { s with text := r.text, line := r.line }
            { m with
              documents := r.documents ++ m.documents
              nextDocument := r.nextDocument }
            (s.text.take (s.text.length - r.text.length))

/-- Shows a text as it is read, and asks for it, if that is wanted. -/
def showTaken (m : Machine) (h : Host) (s : Source) (taken : Raw) : Host :=
  let prompt (name : String) : Raw := (m.scope.value? name.toList).getD []
  let h := if m.scope.has "interactive" && s.role = .script then
      let more := (taken.dropLast.filter (· = '\n')).length
      (List.replicate more (prompt "PS2")).foldl m.report (m.report h (prompt "PS1"))
    else h
  if m.scope.has "verbose" && s.descriptor.isSome then m.report h taken else h

end Machine

end CommandShell.Script
