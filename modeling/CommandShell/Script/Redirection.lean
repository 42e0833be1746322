import CommandShell.Script.Machine

/-!
# Redirections of scripts

How a descriptor is made to stand for something else for a while. What it stood for before is kept at
a descriptor that no script names, until it is put back.
-/

namespace CommandShell.Script

/-- The text of a fault in scripts, where a file that is missing is told in words of its own. -/
def faultText (missing : String) (e : Fault) : Raw :=
  if e = .noEntry ∨ e = .notDirectory then missing.toList
  else
    match e.system? with
    | some (_, text) => text.toList
    | none => e.ownText.toList

namespace Opening

/-- What a file is opened for. `keep` says that files that are there are kept. -/
def access (o : Opening) (keep : Bool) : Host.Access :=
  match o with
  | input => .read
  | update => .update
  | output => if keep then .create else .replace
  | overwrite => .replace
  | append => .append

/-- Why a file cannot be opened. -/
def failure (o : Opening) (path : Raw) (e : Fault) : Raw :=
  match o with
  | input => "cannot open ".toList ++ path ++ ": ".toList ++ faultText "No such file" e
  | _ => "cannot create ".toList ++ path ++ ": ".toList ++ faultText "Directory nonexistent" e

end Opening

/-- The lowest descriptor that no script names. -/
def firstKept : Nat := 10

/-- The permissions of new files, as far as they are not withheld. -/
def newFileBits : Nat := 0o666

namespace Machine

/-- Opens a file. -/
def openFile (m : Machine) (h : Host) (opening : Opening) (path : Raw) :
    Except Raw (Handle × Host) :=
  let mode := newFileBits - (newFileBits &&& m.process.mask)
  let access := opening.access (m.scope.has "noclobber")
  (h.openFor m.process.directory (Raw.toText path) access mode).mapError (opening.failure path)

/-- Keeps what a descriptor stands for, unless it is kept already. -/
def keepDescriptor (m : Machine) (saved : Saved) (n : Nat) : Machine × Saved :=
  if saved.any (·.1 = n) then (m, saved)
  else
    let d := m.process.descriptors
    match d.get? n with
    | none => (m, saved ++ [(n, none)])
    | some handle =>
      let (place, d) := d.addFrom firstKept handle
      (m.withDescriptors (d.close n), saved ++ [(n, some place)])

/-- Makes a descriptor stand for a handle. -/
def install (m : Machine) (saved : Saved) (n : Nat) (handle : Handle) : Machine × Saved :=
  let (m, saved) := m.keepDescriptor saved n
  (m.withDescriptors (m.process.descriptors.put n handle), saved)

/-- Makes a redirection other than that of a document. Behind a failure the third value says what has
to be put back all the same. -/
def reroute (m : Machine) (h : Host) (saved : Saved) (r : Rerouting) :
    Except Raw Host × Machine × Saved :=
  match r with
  | .file n opening path =>
    match m.openFile h opening path with
    | .error text => (.error text, m, saved)
    | .ok (handle, h) => (.ok h, m.install saved n handle)
  | .same n none =>
    let (m, saved) := m.keepDescriptor saved n
    (.ok h, m.withDescriptors (m.process.descriptors.close n), saved)
  | .same n (some other) =>
    if other = n then (.ok h, m, saved)
    else
      let (m, saved) := m.keepDescriptor saved n
      match m.process.descriptors.get? other with
      | some handle => (.ok h, m.withDescriptors (m.process.descriptors.put n handle), saved)
      | none => (.error (Raw.ofInt other ++ ": Bad file descriptor".toList), m, saved)
  | .document .. => (.ok h, m, saved)

/-- The descriptor that a text names, nothing for a dash, if it names one. -/
def namedDescriptor? (text : Raw) : Option (Option Nat) :=
  match text with
  | ['-'] => some none
  | [c] => if c.isDigit then some (some (c.toNat - '0'.toNat)) else none
  | _ => none

end Machine

end CommandShell.Script
