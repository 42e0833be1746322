import CommandShell.Host
import CommandShell.Notice

/-!
# Processes

What each process keeps to itself: its working directory, its table of descriptors, the permissions
that it withholds from new files, the signals that it ignores. A process made from another starts
with copies of them.
-/

namespace CommandShell

/-- A table of descriptors: what each number stands for, if it is open. -/
structure Descriptors where
  table : List (Option Handle)
  deriving DecidableEq

namespace Descriptors

/-- The table of a process that holds the three standard streams of the session. -/
def standard : Descriptors := ⟨[some .input, some .output, some .error]⟩

/-- What a number stands for. -/
def get? (d : Descriptors) (n : Nat) : Option Handle := (d.table[n]?).join

/-- The lowest number that is not open. -/
def lowestFree (d : Descriptors) : Nat := d.table.findIdx (· = none)

/-- Makes a number stand for a handle. -/
def put (d : Descriptors) (n : Nat) (handle : Handle) : Descriptors :=
  ⟨(d.table ++ List.replicate (n + 1 - d.table.length) none).set n (some handle)⟩

/-- What a number stands for after one was given a handle. -/
theorem get?_put (d : Descriptors) (n m : Nat) (handle : Handle) :
    (d.put n handle).get? m = if m = n then some handle else d.get? m := by
  simp only [get?, put, List.getElem?_set, List.length_append, List.length_replicate]
  by_cases h : m = n
  · subst h
    simp only [↓reduceIte]
    rw [if_pos (by omega)]
    rfl
  · rw [if_neg (Ne.symm h), if_neg h, List.getElem?_append, List.getElem?_replicate]
    split
    · rfl
    · next hm =>
      rw [List.getElem?_eq_none (by omega)]
      split <;> rfl

/-- Gives a handle the lowest number that is not open. -/
def add (d : Descriptors) (handle : Handle) : Nat × Descriptors :=
  (d.lowestFree, d.put d.lowestFree handle)

/-- Gives a handle the lowest number that is not open, from `least` on. -/
def addFrom (d : Descriptors) (least : Nat) (handle : Handle) : Nat × Descriptors :=
  let n := least + (d.table.drop least).findIdx (· = none)
  (n, d.put n handle)

/-- Closes a number. -/
def close (d : Descriptors) (n : Nat) : Descriptors := ⟨d.table.set n none⟩

/-- What a number stands for after one was closed. -/
theorem get?_close (d : Descriptors) (n m : Nat) :
    (d.close n).get? m = if m = n then none else d.get? m := by
  simp only [get?, close, List.getElem?_set]
  by_cases h : m = n
  · subst h
    simp only [↓reduceIte]
    split <;> rfl
  · rw [if_neg (Ne.symm h), if_neg h]

/-- Makes `new` stand for what `old` stands for. -/
def duplicate (d : Descriptors) (old new : Nat) : Descriptors :=
  match d.get? old with
  | some handle => d.put new handle
  | none => d

/-- The handles in a table. -/
def handles (d : Descriptors) : List Handle := d.table.filterMap id

/-- The descriptors below a number. -/
def below (d : Descriptors) (n : Nat) : Descriptors := ⟨d.table.take n⟩

end Descriptors

/-- What a process keeps to itself. -/
structure Process where
  /-- The number of the process. -/
  number : Nat
  /-- The number of the process that made it. -/
  parent : Nat
  /-- The directory that relative paths start from. -/
  directory : Location
  descriptors : Descriptors
  /-- The permission bits that are withheld from new files. -/
  mask : Nat
  /-- The signals that are ignored. -/
  ignored : List Nat
  /-- The notices that are told. -/
  filter : Filter
  deriving DecidableEq

namespace Process

/-- The permission bits that are usually withheld. -/
def usualMask : Nat := 0o022

/-- The process that a session starts with, which tells no notices. -/
def initial (directory : Location) : Process :=
  ⟨Host.firstProcess, 1, directory, .standard, usualMask, [], .silent⟩

/-- Writes to one of a process's descriptors. -/
def write (p : Process) (n : Nat) (h : Host) (bytes : Bytes) : Except Fault Host :=
  match p.descriptors.get? n with
  | some handle => h.write handle bytes
  | none => .error .badDescriptor

/-- Writes a line to standard error, with nothing to be done about a failure. -/
def complain (p : Process) (h : Host) (line : String) : Host :=
  match p.descriptors.get? 2 with
  | some handle => h.tryWriteLine handle line
  | none => h

/-- Tells a notice, if the process tells such notices. -/
def tell (p : Process) (h : Host) (n : Notice) : Host :=
  if p.filter.tells n then p.complain h n.text else h

/-- A process that tells nothing has nothing to say. -/
@[simp] theorem tell_silent {p : Process} (hp : p.filter = .silent) (h : Host) (n : Notice) :
    p.tell h n = h := by
  simp [tell, hp, Filter.tells, Filter.silent, Filter.deciding?]

end Process

end CommandShell
