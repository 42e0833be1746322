import CommandShell.Text

/-!
# Pipes

A pipe holds bytes in pages, of which it has a fixed number. A write goes to the last page if its
odd bytes fit there, and otherwise to new pages, as far as there are any; the rest has to wait. A
page is free again once all of its bytes were read. `bytes_fill` says that no byte is lost, and
`bytes_take` that what is read comes off the front.
-/

namespace CommandShell

/-- The number of bytes that a page has room for. -/
def pageSize : Nat := 4096

/-- The number of pages of a pipe. -/
def pipePages : Nat := 16

/-- A page of a pipe. -/
structure Page where
  bytes : Bytes
  /-- How many more bytes may be added. -/
  room : Nat
  deriving DecidableEq

/-- What was written to a pipe and not yet read. -/
structure Pipe where
  pages : List Page
  deriving DecidableEq

namespace Pipe

/-- A pipe that holds nothing. -/
def empty : Pipe := ⟨[]⟩

/-- The bytes that are there to be read. -/
def bytes (p : Pipe) : Bytes := p.pages.flatMap Page.bytes

/-- Adds bytes to the last of some pages, if it has room for them. -/
def extendLast? : List Page → Bytes → Option (List Page)
  | [], _ => none
  | [page], bs =>
    if bs.length ≤ page.room then some [⟨page.bytes ++ bs, page.room - bs.length⟩] else none
  | page :: pages, bs => (extendLast? pages bs).map (page :: ·)

/-- New pages for bytes, at most the given number of them, and the bytes that are left over. -/
def newPages : Nat → Bytes → List Page × Bytes
  | 0, bs => ([], bs)
  | _ + 1, [] => ([], [])
  | free + 1, b :: bs =>
    let page := (b :: bs).take pageSize
    let rest := newPages free ((b :: bs).drop pageSize)
    (⟨page, pageSize - page.length⟩ :: rest.1, rest.2)

/-- Adds new pages for bytes, as far as the pipe has them. -/
def grow (p : Pipe) (bs : Bytes) : Pipe × Bytes :=
  let new := newPages (pipePages - p.pages.length) bs
  (⟨p.pages ++ new.1⟩, new.2)

/-- Writes bytes as far as there is room, and gives those that have to wait. -/
def fill (p : Pipe) (bs : Bytes) : Pipe × Bytes :=
  let odd := bs.length % pageSize
  match extendLast? p.pages (bs.take odd) with
  | some pages => grow ⟨pages⟩ (bs.drop odd)
  | none => p.grow bs

/-- Writes all of some bytes, whether there is room or not. -/
def push (p : Pipe) (bs : Bytes) : Pipe := ⟨p.pages ++ [⟨bs, 0⟩]⟩

/-- Takes the first `n` bytes off some pages. -/
def dropFrom (n : Nat) : List Page → List Page
  | [] => []
  | page :: pages =>
    if page.bytes.length ≤ n then dropFrom (n - page.bytes.length) pages
    else { page with bytes := page.bytes.drop n } :: pages

/-- Takes the first `n` bytes off. -/
def drop (p : Pipe) (n : Nat) : Pipe := ⟨dropFrom n p.pages⟩

/-- Adding to the last page adds to what is there to be read. -/
theorem flatMap_extendLast? {pages new : List Page} {bs : Bytes}
    (h : extendLast? pages bs = some new) :
    new.flatMap Page.bytes = pages.flatMap Page.bytes ++ bs := by
  induction pages generalizing new with
  | nil => simp [extendLast?] at h
  | cons page pages ih =>
    cases pages with
    | nil =>
      simp only [extendLast?] at h
      split at h <;> simp_all
      subst h
      simp
    | cons next pages =>
      simp only [extendLast?, Option.map_eq_some_iff] at h
      obtain ⟨more, hm, rfl⟩ := h
      simp [ih hm]

/-- New pages hold the bytes that are not left over. -/
theorem flatMap_newPages (free : Nat) (bs : Bytes) :
    (newPages free bs).1.flatMap Page.bytes ++ (newPages free bs).2 = bs := by
  induction free generalizing bs with
  | zero => simp [newPages]
  | succ free ih =>
    cases bs with
    | nil => simp [newPages]
    | cons b bs =>
      simp only [newPages, List.flatMap_cons, List.append_assoc, ih]
      exact List.take_append_drop pageSize (b :: bs)

/-- New pages hold the bytes behind those that were there. -/
theorem bytes_grow (p : Pipe) (bs : Bytes) :
    (p.grow bs).1.bytes ++ (p.grow bs).2 = p.bytes ++ bs := by
  simp [grow, bytes, flatMap_newPages]

/-- What was there, what was written and what has to wait make up all the bytes, in order. -/
theorem bytes_fill (p : Pipe) (bs : Bytes) :
    (p.fill bs).1.bytes ++ (p.fill bs).2 = p.bytes ++ bs := by
  simp only [fill]
  split
  · next pages h =>
    rw [bytes_grow]
    simp only [bytes, flatMap_extendLast? h, List.append_assoc, List.take_append_drop]
  · exact bytes_grow p bs

/-- No more is left over than there was to be written. -/
theorem length_newPages_le (free : Nat) (bs : Bytes) :
    (newPages free bs).2.length ≤ bs.length := by
  have h := congrArg List.length (flatMap_newPages free bs)
  rw [List.length_append] at h
  omega

/-- No more has to wait than there was to be written. -/
theorem length_fill_le (p : Pipe) (bs : Bytes) : (p.fill bs).2.length ≤ bs.length := by
  simp only [fill]
  split
  · refine Nat.le_trans (length_newPages_le _ _) ?_
    rw [List.length_drop]
    omega
  · exact length_newPages_le _ _

/-- What is left after a read. -/
theorem bytes_drop (p : Pipe) (n : Nat) : (p.drop n).bytes = p.bytes.drop n := by
  simp only [drop, bytes]
  induction p.pages generalizing n with
  | nil => simp [dropFrom]
  | cons page pages ih =>
    simp only [dropFrom]
    split
    · next h => simp [ih, List.drop_append, List.drop_eq_nil_of_le h]
    · next h => simp [List.drop_append, Nat.sub_eq_zero_of_le (Nat.le_of_not_le h)]

end Pipe

end CommandShell
