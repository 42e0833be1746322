import CommandShell.Script.Scope

/-!
# Signals

The signals that programs send each other: their numbers and names, what they are called when they
end a program, and what they do to a program that does nothing about them.
-/

namespace CommandShell.Script

namespace Signal

/-- The signals that have a meaning of their own, by number: their names and what is said of a
program that they end. -/
def named : List (Nat × String × String) :=
  [(1, "HUP", "Hangup"), (2, "INT", "Interrupt"), (3, "QUIT", "Quit"),
    (4, "ILL", "Illegal instruction"), (5, "TRAP", "Trace/breakpoint trap"),
    (6, "ABRT", "Aborted"), (7, "BUS", "Bus error"), (8, "FPE", "Floating point exception"),
    (9, "KILL", "Killed"), (10, "USR1", "User defined signal 1"),
    (11, "SEGV", "Segmentation fault"), (12, "USR2", "User defined signal 2"),
    (13, "PIPE", "Broken pipe"), (14, "ALRM", "Alarm clock"), (15, "TERM", "Terminated"),
    (16, "16", "Stack fault"), (17, "CHLD", "Child exited"), (18, "CONT", "Continued"),
    (19, "STOP", "Stopped (signal)"), (20, "TSTP", "Stopped"), (21, "TTIN", "Stopped (tty input)"),
    (22, "TTOU", "Stopped (tty output)"), (23, "URG", "Urgent I/O condition"),
    (24, "XCPU", "CPU time limit exceeded"), (25, "XFSZ", "File size limit exceeded"),
    (26, "VTALRM", "Virtual timer expired"), (27, "PROF", "Profiling timer expired"),
    (28, "WINCH", "Window changed"), (29, "IO", "I/O possible"), (30, "PWR", "Power failure"),
    (31, "SYS", "Bad system call")]

/-- The greatest number of a signal. -/
def greatest : Nat := 64

/-- The number of the first signal that is free for any use. -/
def firstFree : Nat := 34

/-- The name of a signal. The free ones are named from both ends. -/
def name (n : Nat) : String :=
  match named.lookup n with
  | some (name, _) => name
  | none =>
    if n < firstFree || greatest < n then toString n
    else if n = firstFree then "RTMIN"
    else if n = greatest then "RTMAX"
    else if n < 50 then "RTMIN+" ++ toString (n - firstFree)
    else "RTMAX-" ++ toString (greatest - n)

/-- What is said of a program that a signal ends. -/
def description (n : Nat) : String :=
  match named.lookup n with
  | some (_, text) => text
  | none =>
    if n < firstFree || greatest < n then "Unknown signal " ++ toString n
    else "Real-time signal " ++ toString (n - firstFree)

/-- The signal that ends a process in any case. -/
def kill : Nat := 9

/-- The signal for writing to a pipe that nobody reads. -/
def pipe : Nat := 13

/-- The signal that asks a program to end. -/
def terminate : Nat := 15

/-- The signals that a terminal sends. -/
def interrupt : Nat := 2

/-- The signal that a terminal sends to end a program at once. -/
def quit : Nat := 3

/-- The signal that stops a process in any case. -/
def stop : Nat := 19

/-- Whether a signal leaves a program running that does nothing about it. -/
def isHarmless (n : Nat) : Bool := [0, 17, 18, 19, 20, 21, 22, 23, 28].contains n

/-- The signal that a number stands for; zero stands for the end of a script. -/
def ofNumber? (cs : Raw) : Option Nat :=
  if !cs.isEmpty && cs.all Char.isDigit then
    (number? cs).bind fun n => if n ≤ greatest then some n else none
  else none

/-- The signal that a number or a name stands for. The letters of names may be of either case; the
name of the end of a script counts if `atEnd`. -/
def ofText? (atEnd : Bool) (cs : Raw) : Option Nat :=
  match ofNumber? cs with
  | some n => some n
  | none =>
    let upper := String.ofList (cs.map Char.toUpper)
    if atEnd && upper = "EXIT" then some 0
    else ((List.range (greatest + 1)).drop 1).find? fun n => name n = upper

end Signal

end CommandShell.Script
