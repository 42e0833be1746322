import CommandShell.Script.Outcome

/-!
# Limits of scripts

What a script may do: the permissions that it withholds from new files, and how much it may take of
what the system has. Permissions are given by an octal number or by letters, which tell whose
permissions are set, added or taken away, and which.
-/

namespace CommandShell.Script

namespace Permissions

/-- The bits of all permissions. -/
def all : Nat := 0o777

/-- The bits that are not set. -/
def complement (mode : Nat) : Nat := all - (all &&& mode)

/-- The mode that octal digits stand for. -/
def ofOctal? (cs : Raw) : Option Nat :=
  if cs.all fun c => '0' ≤ c && c ≤ '7' then some (valueOf 8 cs) else none

/-- Whose permissions a letter names: the first bit of each of theirs. -/
def whose? : Char → Option Nat
  | 'a' => some 0o111
  | 'u' => some 0o100
  | 'g' => some 0o010
  | 'o' => some 0o001
  | _ => none

/-- The permissions that a letter names, given those that there are. -/
def which? (mode : Nat) : Char → Option Nat
  | 'r' => some 4
  | 'w' => some 2
  | 'x' => some 1
  | 'u' => some (mode >>> 6)
  | 'g' => some (mode >>> 3)
  | 'o' => some mode
  | 'X' => some (if mode &&& 0o111 = 0 then 0 else 1)
  | 's' => some 0
  | _ => none

/-- The permissions that letters leave, of those that there are; nothing if the letters make no
sense. `places` tells whose permissions are changed. `fuel` bounds the number of changes. -/
def changed? (mode : Nat) : Nat → Nat → Nat → Raw → Option Nat
  | 0, new, _, _ => some new
  | fuel + 1, new, places, cs =>
    if cs.isEmpty then some new
    else
      let named := cs.takeWhile fun c => (whose? c).isSome
      let places := (named.filterMap whose?).foldl (· ||| ·) places
      let places := if places = 0 then 0o111 else places
      match cs.drop named.length with
      | [] => some new
      | operator :: rest =>
        if !(['=', '+', '-'].contains operator) then none
        else
          let letters := rest.takeWhile fun c => (which? mode c).isSome
          let bits := ((letters.filterMap (which? mode)).foldl (· ||| ·) 0) &&& 7
          let value := bits * places
          let new :=
            if operator = '=' then value ||| (new &&& complement (places * 7))
            else if operator = '+' then new ||| value
            else new &&& complement value
          match rest.drop letters.length with
          | [] => some new
          | ',' :: rest => changed? mode fuel new 0 rest
          | c :: rest =>
            if ['=', '+', '-'].contains c then changed? mode fuel new places (c :: rest) else none

/-- Permissions by letters. -/
def shown (mode : Nat) : Raw :=
  let part (who : String) (place : Nat) : Raw :=
    let bit (n : Nat) (c : Char) : Raw := if mode >>> place &&& n = 0 then [] else [c]
    who.toList ++ ['='] ++ bit 4 'r' ++ bit 2 'w' ++ bit 1 'x'
  part "u" 6 ++ [','] ++ part "g" 3 ++ [','] ++ part "o" 0

/-- Permissions by digits. -/
def digits (mode : Nat) : Raw :=
  let cs := Nat.toDigits 8 mode
  List.replicate (4 - cs.length) '0' ++ cs

end Permissions

namespace Machine

/-- Shows or sets the permissions that are withheld from new files. -/
def runUmask (m : Machine) (h : Host) (arguments : List Raw) : Outcome :=
  m.withOptions h [('S', false)] arguments fun given rest =>
    let mask := m.process.mask
    let set (mask : Nat) : Outcome :=
      { m with process := { m.process with mask := mask &&& Permissions.all } }.done h 0
    match rest with
    | [] =>
      let text := if given.isEmpty then Permissions.digits mask
        else Permissions.shown (Permissions.complement mask)
      m.shows h (text ++ ['\n'])
    | text :: _ =>
      if (text.headD ' ').isDigit then
        match Permissions.ofOctal? text with
        | some mask => set mask
        | none => m.fails h (Scope.numberFault text)
      else
        let mode := Permissions.complement mask
        match Permissions.changed? mode (text.length + 1) mode 0 text with
        | some mode => set (Permissions.complement mode)
        | none => m.fails h ("Illegal mode: ".toList ++ text)

/-- The limits by their letters, with their names and with what they are when a script starts. -/
def limitTable : List (Char × String × Option Nat) :=
  [('t', "time(seconds)", none), ('f', "file(blocks)", none), ('d', "data(kbytes)", none),
    ('s', "stack(kbytes)", some 8192), ('c', "coredump(blocks)", some 0),
    ('m', "memory(kbytes)", none), ('l', "locked memory(kbytes)", some 8192),
    ('p', "process", none), ('n', "nofiles", some 1024), ('v', "vmemory(kbytes)", none),
    ('w', "locks", none), ('r', "rtprio", some 0)]

/-- A limit as it is shown. -/
def limitText : Option Nat → Raw
  | some n => Raw.ofInt n
  | none => "unlimited".toList

/-- Shows a limit, or all. To set one changes nothing that a script could tell. -/
def runUlimit (m : Machine) (h : Host) (arguments : List Raw) : Outcome :=
  let letters := ('H', false) :: ('S', false) :: ('a', false) ::
    limitTable.map fun l => (l.1, false)
  m.withOptions h letters arguments fun given rest =>
    let asked := given.map Prod.fst
    let which := ((asked.filter fun c => c ≠ 'H' && c ≠ 'S' && c ≠ 'a').getLast?).getD 'f'
    match rest with
    | [] =>
      if asked.contains 'a' then
        m.shows h (limitTable.flatMap fun (_, name, value) =>
          name.toList ++ List.replicate (20 - name.length) ' ' ++ [' '] ++ limitText value ++
            ['\n'])
      else m.shows h (limitText ((limitTable.lookup which).bind Prod.snd) ++ ['\n'])
    | text :: more =>
      if asked.contains 'a' || !more.isEmpty then m.fails h "too many arguments".toList
      else if text = "unlimited".toList || (!text.isEmpty && text.all Char.isDigit) then m.done h 0
      else m.fails h "bad number".toList

/-- Shows the time that was taken, which is none. -/
def runTimes (m : Machine) (h : Host) : Outcome :=
  let line := "0m0.000000s 0m0.000000s\n".toList
  m.shows h (line ++ line)

end Machine

end CommandShell.Script
