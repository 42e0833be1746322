import CommandShell.History

/-!
# History files

A history file holds its entries line by line. Whatever text it is read from, an entry is a line
that `textOf` writes and `entriesOf` reads back.
-/

namespace CommandShell.History

/-! ## Entries -/

/-- Whether a text is a line of its own that has something on it. -/
structure IsEntry (e : String) : Prop where
  ne_empty : e ≠ ""
  newline_not_mem : '\n' ∉ e.toList
  getLast?_ne : e.toList.getLast? ≠ some '\r'

instance (e : String) : Decidable (IsEntry e) :=
  decidable_of_iff (e ≠ "" ∧ '\n' ∉ e.toList ∧ e.toList.getLast? ≠ some '\r')
    ⟨fun ⟨hne, hn, hr⟩ => ⟨hne, hn, hr⟩, fun ⟨hne, hn, hr⟩ => ⟨hne, hn, hr⟩⟩

/-- The parts of a split do not hold what they were split at. -/
theorem not_mem_of_mem_splitOn {c : Char} {cs part : List Char} (h : part ∈ cs.splitOn c) :
    c ∉ part := by
  induction cs generalizing part with
  | nil => simp_all
  | cons d cs ih =>
    obtain ⟨first, rest, hsplit⟩ := List.exists_cons_of_ne_nil (List.splitOn_ne_nil c cs)
    rw [hsplit] at ih
    rw [List.splitOn_cons_eq_if_modifyHead, hsplit] at h
    split at h
    · rcases List.mem_cons.mp h with rfl | h
      · simp
      · exact ih h
    · next hd =>
      rcases List.mem_cons.mp h with rfl | h
      · refine List.not_mem_cons_of_ne_of_not_mem ?_ (ih (List.mem_cons_self ..))
        rintro rfl
        exact hd BEq.rfl
      · exact ih (List.mem_cons_of_mem _ h)

/-- A line without the carriage returns at its end. -/
def stripped (line : List Char) : List Char := (line.reverse.dropWhile (· = '\r')).reverse

theorem start_stripped (line : List Char) : stripped line <+: line :=
  List.reverse_suffix.mp (by rw [stripped, List.reverse_reverse]; exact List.dropWhile_suffix _)

/-- What is left of a line does not end in a carriage return. -/
theorem getLast?_stripped (line : List Char) : (stripped line).getLast? ≠ some '\r' := by
  rw [stripped, List.getLast?_reverse]
  intro h
  have := List.head?_dropWhile_not (fun c => decide (c = '\r')) line.reverse
  rw [h] at this
  simp at this

/-- A line that does not end in a carriage return is left as it is. -/
theorem stripped_of_getLast? {line : List Char} (h : line.getLast? ≠ some '\r') :
    stripped line = line := by
  rw [stripped, List.reverse_eq_iff]
  cases hr : line.reverse with
  | nil => rfl
  | cons c cs =>
    have hc : line.getLast? = some c := by rw [List.getLast?_eq_head?_reverse, hr]; rfl
    rw [List.dropWhile_cons_of_neg]
    simp_all

/-- What is read from a text are entries. -/
theorem isEntry_of_mem_entriesOf {text e : String} (h : e ∈ entriesOf text) : IsEntry e := by
  obtain ⟨hmem, hne⟩ := List.mem_filter.mp h
  obtain ⟨line, hline, rfl⟩ := List.mem_map.mp hmem
  refine ⟨by simpa using hne, ?_, ?_⟩
  · rw [String.toList_ofList]
    exact fun hn => not_mem_of_mem_splitOn hline ((start_stripped line).subset hn)
  · rw [String.toList_ofList]
    exact getLast?_stripped line

/-! ## Reading back -/

theorem entriesOf_empty : entriesOf "" = [] := by decide

/-- The entries before a newline and those behind it do not depend on each other. -/
theorem entriesOf_newline (before after : String) :
    entriesOf (before ++ "\n" ++ after) = entriesOf before ++ entriesOf after := by
  have hlines : (before ++ "\n" ++ after).toList.splitOn '\n' =
      before.toList.splitOn '\n' ++ after.toList.splitOn '\n' := by
    rw [String.toList_append, String.toList_append, List.append_assoc]
    exact List.splitOn_append_cons_self _ _
  rw [entriesOf, hlines, List.map_append, List.filter_append]
  rfl

/-- A line is read as itself, if there is something on it. -/
theorem entriesOf_line {e : String} (hn : '\n' ∉ e.toList) (hr : e.toList.getLast? ≠ some '\r') :
    entriesOf e = [e].filter (· ≠ "") := by
  rw [entriesOf, List.splitOn_eq_singleton hn, List.map_singleton]
  have hs := stripped_of_getLast? hr
  rw [stripped] at hs
  rw [hs, String.ofList_toList]

/-- An entry is read as itself. -/
theorem entriesOf_entry {e : String} (h : IsEntry e) : entriesOf e = [e] := by
  rw [entriesOf_line h.newline_not_mem h.getLast?_ne,
    List.filter_cons_of_pos (by simpa using h.ne_empty), List.filter_nil]

theorem textOf_cons (e : String) (es : List String) : textOf (e :: es) = e ++ "\n" ++ textOf es := by
  simp [textOf, String.join_cons]

/-- Lines that were written are read back in order, without the empty ones. -/
theorem entriesOf_textOf_eq_filter {es : List String}
    (h : ∀ e ∈ es, '\n' ∉ e.toList ∧ e.toList.getLast? ≠ some '\r') :
    entriesOf (textOf es) = es.filter (· ≠ "") := by
  induction es with
  | nil => exact entriesOf_empty
  | cons e es ih =>
    obtain ⟨hn, hr⟩ := h e List.mem_cons_self
    rw [textOf_cons, entriesOf_newline, entriesOf_line hn hr,
      ih fun d hd => h d (List.mem_cons_of_mem e hd), ← List.filter_append, List.singleton_append]

/-- Entries that were written are read back, each once and in order. -/
theorem entriesOf_textOf {es : List String} (h : ∀ e ∈ es, IsEntry e) :
    entriesOf (textOf es) = es := by
  rw [entriesOf_textOf_eq_filter fun e he => ⟨(h e he).newline_not_mem, (h e he).getLast?_ne⟩,
    List.filter_eq_self]
  intro e he
  simpa using (h e he).ne_empty

/-! ## Faults -/

section

variable {h h' : History} {host host' : Host} {directory : Location} {path : String}
  {fault : HistoryFault}

/-- What fails to read a file is told of that file, as a fault of reading. -/
theorem fault_of_read (hread : h.read host directory path = .error fault) :
    ∃ cause, fault = ⟨.read, path, cause⟩ := by
  rw [read] at hread
  split at hread
  · exact ⟨_, (Except.error.inj hread).symm⟩
  split at hread
  · exact ⟨_, (Except.error.inj hread).symm⟩
  · cases hread

/-- What fails to write a file is told of that file, as a fault of writing. -/
theorem fault_of_write (hwrite : h.write host directory path = (.error fault, host')) :
    ∃ cause, fault = ⟨.write, path, cause⟩ := by
  obtain ⟨hfault, -⟩ := Prod.mk.inj hwrite
  rcases hsave : (save h.entries host directory path false).1 with cause | _
  · rw [hsave] at hfault
    exact ⟨cause, (Except.error.inj hfault).symm⟩
  · rw [hsave] at hfault
    cases hfault

/-- What fails to append to a file is told of that file, as a fault of appending, and leaves the
history as it was. -/
theorem fault_of_append (happend : h.append host directory path = (.error fault, h', host')) :
    h' = h ∧ ∃ cause, fault = ⟨.append, path, cause⟩ := by
  rw [append] at happend
  split at happend
  · cases happend
    exact ⟨rfl, _, rfl⟩
  · cases happend

end

end CommandShell.History
