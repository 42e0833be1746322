import Mathlib
import CommandShell.Proofs.File.Opened
import CommandShell.Proofs.History

/-!
# Appending each entry once

A history goes through operations in any order: lines are added, files are read, written and
appended to, with or without success, and anything may happen to the host in between.
`appends_each_once` says that the successful appends together write the entries up to the mark that
the history keeps, each once and in order, wherever they write them.
-/

namespace CommandShell.History

/-! ## Saving -/

/-- The text of entries is written entry by entry, each with a newline. -/
theorem encode_textOf (es : List String) :
    Text.encode (textOf es) = es.flatMap fun e => Text.encode (e ++ "\n") := by
  induction es with
  | nil => rfl
  | cons e es ih =>
    rw [List.flatMap_cons, ← ih, ← Text.encode_append, textOf, textOf, List.map_cons,
      String.join_cons]

/-- Entries that were saved came behind what the file held once it was opened. -/
theorem opened_of_save {entries : List String} {host host' : Host} {directory : Location}
    {path : String} {append : Bool} (hs : save entries host directory path append = (.ok (), host')) :
    ∃ l fs, host.files.opened directory path append = .ok (l, fs) ∧
      host'.files = fs.extended l (Text.encode (textOf entries)) := by
  rw [save, Host.openFile_eq] at hs
  rcases ho : host.files.opened directory path append with e | ⟨l, fs⟩
  · rw [ho] at hs
    cases hs
  refine ⟨l, fs, rfl, ?_⟩
  simp only [ho, Except.map] at hs
  split at hs
  · cases hs
  next hw =>
  cases hs
  refine Host.files_write hw (List.getElem?_concat_length ..) ?_
  intro mode content hget
  -- What is a regular file now was one before or was made, and was emptied unless it is appended to.
  have hplain : host.files.isPlain l = true := by
    rw [(FileSystem.alike_of_opened ho).isPlain_eq]
    exact FileSystem.isPlain_of_file hget
  obtain ⟨mode', content', hget', -, hcontent⟩ := FileSystem.file_of_opened ho hplain
  obtain ⟨-, rfl⟩ : mode = mode' ∧ content = content' := by
    simpa using (hget.symm.trans hget')
  cases append with
  | true => exact .inl rfl
  | false =>
    right
    rw [hcontent]
    rfl

/-- Saving entries leaves their text in the file, behind what it held if it was appended to. -/
theorem save_stores {entries : List String} {host host' : Host} {directory l : Location}
    {path : String} {append : Bool} (hs : save entries host directory path append = (.ok (), host'))
    (hl : host.files.resolveNew directory path = .ok l) (hp : host.files.isPlain l = true) :
    host.files.Stores host'.files l
      ((if append then host.files.content l else []) ++ Text.encode (textOf entries)) := by
  obtain ⟨m, fs, ho, hfiles⟩ := opened_of_save hs
  obtain rfl : m = l := Except.ok.inj ((FileSystem.resolveNew_of_opened ho).symm.trans hl)
  obtain ⟨mode, content, hget, -, hcontent⟩ := FileSystem.file_of_opened ho hp
  rw [hfiles, ← hcontent]
  refine ⟨⟨mode, FileSystem.get?_extended_self hget _⟩, ?_⟩
  intro n hn
  exact (FileSystem.get?_extended_of_ne hn _).trans (FileSystem.get?_of_opened ho hn)

/-- Entries can be saved wherever a file is opened for them. -/
theorem save_of_opened {entries : List String} {host : Host} {directory l : Location}
    {path : String} {append : Bool} {fs : FileSystem}
    (ho : host.files.opened directory path append = .ok (l, fs))
    (hp : host.files.isPlain l = true) : (save entries host directory path append).1 = .ok () := by
  obtain ⟨mode, content, hget, -, hcontent⟩ := FileSystem.file_of_opened ho hp
  rw [save, Host.openFile_eq, ho]
  simp only [Except.map]
  -- An empty text can be written to any handle.
  by_cases hnil : Text.encode (textOf entries) = []
  · rw [hnil, Host.write_nil]
  have hend : append = true ∨ 0 = content.length := by
    cases append with
    | true => exact .inl rfl
    | false =>
      right
      rw [hcontent]
      rfl
  rw [Host.write_file (List.getElem?_concat_length ..) rfl hget hend hnil]

/-- Entries can be saved in a new file wherever files may be made. -/
theorem save_new {entries : List String} {host : Host} {directory l : Location} {path : String}
    {append : Bool} (hl : host.files.resolveNew directory path = .ok l)
    (hget : host.files.get? l = none) (hopen : host.files.isOpen l.dropLast = true) :
    (save entries host directory path append).1 = .ok () :=
  save_of_opened (FileSystem.opened_of_none hl hget hopen append) (FileSystem.isPlain_of_none hget)

/-- Saving nothing in a file that was just saved succeeds and leaves all files as they are. -/
theorem save_nil_of_save {entries : List String} {host host' : Host} {directory : Location}
    {path : String} {append : Bool} (hs : save entries host directory path append = (.ok (), host')) :
    (save [] host' directory path true).1 = .ok () ∧
      (save [] host' directory path true).2.files = host'.files := by
  obtain ⟨l, fs, ho, hfiles⟩ := opened_of_save hs
  have hagain := FileSystem.opened_again ho (Text.encode (textOf entries))
  rw [← hfiles] at hagain
  rw [save, Host.openFile_eq, hagain]
  exact ⟨rfl, rfl⟩

/-! ## Appending -/

section

variable {h h' : History} {host host' : Host} {directory : Location} {path : String} {n : Nat}

/-- An append that succeeds has saved the pending entries and moved the mark behind the last. -/
theorem save_of_append (ha : h.append host directory path = (.ok n, h', host')) :
    save h.pending host directory path true = (.ok (), host') ∧ n = h.pending.length ∧
      h' = { h with appended := h.entries.length } := by
  rw [append] at ha
  split at ha
  · cases ha
  · next hs =>
    cases ha
    exact ⟨hs, rfl, rfl⟩

/-- An append that is repeated at once writes nothing and leaves all files as they are. -/
theorem append_again (ha : h.append host directory path = (.ok n, h', host')) :
    ∃ host'', h'.append host' directory path = (.ok 0, h', host'') ∧
      host''.files = host'.files := by
  obtain ⟨hs, -, rfl⟩ := save_of_append ha
  obtain ⟨hok, hfiles⟩ := save_nil_of_save hs
  have hpending : ({ h with appended := h.entries.length } : History).pending = [] := by
    simp [pending]
  rw [append, hpending]
  generalize save [] host' directory path true = saved at hok hfiles ⊢
  obtain ⟨result, host''⟩ := saved
  cases hok
  exact ⟨host'', rfl, hfiles⟩

end

/-! ## Operations -/

/-- What can be done to a history, by a process in some directory. -/
inductive Operation
  | add (line : String)
  | read (directory : Location) (path : String)
  | write (directory : Location) (path : String)
  | append (directory : Location) (path : String)
  /-- The history is replaced by a copy of it. -/
  | copy
  /-- Something happens to the host that has nothing to do with the history. -/
  | elsewhere (host : Host)

/-- A history on its way, with the appends that have succeeded, in order: the number that each gave
and the entries that it wrote. -/
structure Course where
  history : History
  host : Host
  appends : List (Nat × List String)

namespace Course

/-- The history of a session that starts on a host. -/
def start (host : Host) : Course := ⟨.empty, host, []⟩

/-- A history after an operation. One that fails may have changed the host. -/
def perform (c : Course) : Operation → Course
  | .add line => { c with history := c.history.add line }
  | .read directory path =>
    match c.history.read c.host directory path with
    | .ok (_, h) => { c with history := h }
    | .error _ => c
  | .write directory path => { c with host := (c.history.write c.host directory path).2 }
  | .append directory path =>
    match c.history.append c.host directory path with
    | (.ok n, h, host) => ⟨h, host, c.appends ++ [(n, c.history.pending)]⟩
    | (.error _, h, host) => { c with history := h, host := host }
  | .copy => { c with history := ⟨c.history.entries, c.history.appended⟩ }
  | .elsewhere host => { c with host := host }

/-- Whether what was appended are the entries up to the mark, and each append has counted what it
wrote. -/
structure Exact (c : Course) : Prop where
  appended_le : c.history.appended ≤ c.history.entries.length
  appends : c.appends.flatMap Prod.snd = c.history.entries.take c.history.appended
  counts : ∀ a ∈ c.appends, a.1 = a.2.length

theorem exact_start (host : Host) : (start host).Exact := ⟨Nat.le_refl 0, rfl, by simp [start]⟩

variable {c : Course}

/-- More entries at the end leave the ones up to the mark as they are. -/
theorem Exact.extend (hc : c.Exact) (more : List String) :
    Exact { c with history := ⟨c.history.entries ++ more, c.history.appended⟩ } where
  appended_le := by
    have hle := hc.appended_le
    simp only [List.length_append]
    omega
  appends := by rw [List.take_append_of_le_length hc.appended_le, hc.appends]
  counts := hc.counts

/-- An append that succeeds writes the entries behind the mark, and the mark comes behind them. -/
theorem Exact.appendAll (hc : c.Exact) (host : Host) :
    Exact ⟨{ c.history with appended := c.history.entries.length }, host,
      c.appends ++ [(c.history.pending.length, c.history.pending)]⟩ where
  appended_le := Nat.le_refl _
  appends := by
    rw [List.flatMap_append, hc.appends, List.flatMap_singleton, pending, List.take_append_drop,
      List.take_length]
  counts := by
    intro a ha
    rcases List.mem_append.mp ha with ha | ha
    · exact hc.counts a ha
    · rw [List.mem_singleton.mp ha]

/-- Every operation keeps the account. -/
theorem Exact.perform (hc : c.Exact) (o : Operation) : (c.perform o).Exact := by
  cases o with
  | add line => exact hc.extend [line]
  | read directory path =>
    -- What is read comes behind the mark, if the file can be read and is text.
    rw [Course.perform, History.read]
    split
    · next hread =>
      split at hread
      · cases hread
      split at hread
      · cases hread
      · cases hread
        exact hc.extend _
    · exact hc
  | append directory path =>
    rw [Course.perform]
    split
    · next ha =>
      obtain ⟨-, rfl, rfl⟩ := save_of_append ha
      exact hc.appendAll _
    · next ha =>
      obtain ⟨rfl, -⟩ := fault_of_append ha
      exact ⟨hc.appended_le, hc.appends, hc.counts⟩
  | write directory path => exact ⟨hc.appended_le, hc.appends, hc.counts⟩
  | copy => exact ⟨hc.appended_le, hc.appends, hc.counts⟩
  | elsewhere host => exact ⟨hc.appended_le, hc.appends, hc.counts⟩

/-- All operations together keep the account. -/
theorem Exact.foldl (hc : c.Exact) (os : List Operation) : (os.foldl Course.perform c).Exact := by
  induction os generalizing c with
  | nil => exact hc
  | cons o os ih => exact ih (hc.perform o)

end Course

/-- What a successful append does: it gives the number of the pending entries, puts them behind what
the regular file held that it is appended to, each with a newline, and leaves no entry pending; done
once more at once, it does nothing. -/
structure AppendsPending (h : History) (host : Host) (directory : Location) (path : String) (n : Nat)
    (h' : History) (host' : Host) : Prop where
  count : n = h.pending.length
  history : h' = ⟨h.entries, h.entries.length⟩
  file : ∀ l, host.files.resolveNew directory path = .ok l → host.files.isPlain l = true →
    host.files.Stores host'.files l
      (host.files.content l ++ h.pending.flatMap fun e => Text.encode (e ++ "\n"))
  again : ∃ host'', h'.append host' directory path = (.ok 0, h', host'') ∧
    host''.files = host'.files

/-- Whatever was done to a history, its mark is within it, the successful appends have written the
entries up to the mark, each once and in order, and have counted what they wrote. The next append
writes the entries behind the mark, or fails and leaves the history as it is. -/
theorem appends_each_once (host : Host) (os : List Operation) :
    let c := os.foldl Course.perform (.start host)
    c.history.appended ≤ c.history.entries.length ∧
      c.appends.flatMap Prod.snd = c.history.entries.take c.history.appended ∧
      (∀ a ∈ c.appends, a.1 = a.2.length) ∧
      ∀ directory path,
        (∀ n h' host', c.history.append c.host directory path = (.ok n, h', host') →
          c.history.AppendsPending c.host directory path n h' host') ∧
        ∀ f h' host', c.history.append c.host directory path = (.error f, h', host') →
          h' = c.history := by
  intro c
  have hc : c.Exact := (Course.exact_start host).foldl os
  refine ⟨hc.appended_le, hc.appends, hc.counts, ?_⟩
  intro directory path
  refine ⟨?_, fun f h' host' ha => (fault_of_append ha).1⟩
  intro n h' host' ha
  obtain ⟨hs, hn, hh⟩ := save_of_append ha
  refine ⟨hn, hh, ?_, append_again ha⟩
  intro l hl hplain
  have hstores := save_stores hs hl hplain
  rwa [if_pos rfl, encode_textOf] at hstores

/-- Two lines that are appended one after the other, to different files, and one that is not yet. -/
theorem appends_each_once_apart :
    let host := Host.start (FileSystem.empty.put ["tmp"] .directory) [] []
    let os : List Operation := [.add "a", .append ["tmp"] "x", .copy, .add "b", .append ["tmp"] "y",
      .append ["tmp"] "y", .add "c"]
    let c := os.foldl Course.perform (.start host)
    c.appends = [(1, ["a"]), (1, ["b"]), (0, [])] ∧
      c.appends.flatMap Prod.snd = c.history.entries.take c.history.appended ∧
      c.host.files.content ["tmp", "y"] = Text.encode "b\n" ∧
      ∃ h' host', c.history.append c.host ["tmp"] "x" = (.ok 1, h', host') ∧
        c.history.AppendsPending c.host ["tmp"] "x" 1 h' host' := by
  intro host os c
  obtain ⟨-, htake, -, hnext⟩ := appends_each_once host os
  have happend : (c.history.append c.host ["tmp"] "x").1 = .ok 1 := by
    simp only [c, os, host]
    cbv
  refine ⟨?_, htake, ?_, ?_⟩
  · simp only [c, os, host]
    cbv
  · simp only [c, os, host]
    cbv
  · rcases hx : c.history.append c.host ["tmp"] "x" with ⟨result, h', host'⟩
    rw [hx] at happend
    obtain rfl : result = .ok 1 := happend
    exact ⟨h', host', rfl, (hnext ["tmp"] "x").1 1 h' host' hx⟩

end CommandShell.History
