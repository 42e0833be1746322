import Mathlib
import CommandShell.Proofs.History
import CommandShell.Proofs.History.Appends

/-!
# Writing histories and reading them back

What a history file holds is read as entries, and entries that were written are read back. So
whatever text a history comes from, it stays as it is from the first reading on, and the file from
the first writing on: this is `round_trip`.
-/

namespace CommandShell

namespace FileSystem

/-- Whether what is written at a location is kept and can be read: a file can be made there, or there
is one that may be written to and read. -/
inductive IsStore (fs : FileSystem) (l : Location) : Prop
  | absent : fs.get? l = none → fs.isOpen l.dropLast = true → IsStore fs l
  | file {mode : Nat} {content : Bytes} : fs.get? l = some (.file mode content) →
      (Node.file mode content).mayWrite = true → (Node.file mode content).mayRead = true →
      IsStore fs l

variable {fs : FileSystem} {directory l : Location} {path : String}

theorem IsStore.isPlain (h : fs.IsStore l) : fs.isPlain l = true := by
  cases h with
  | absent hget => exact isPlain_of_none hget
  | file hget => exact isPlain_of_file hget

/-- A store can be opened, and what comes behind the bytes of the file that is there then leaves it a
store. -/
theorem IsStore.opened (h : fs.IsStore l) (hl : fs.resolveNew directory path = .ok l)
    (keep : Bool) :
    ∃ fs', fs.opened directory path keep = .ok (l, fs') ∧
      ∀ bytes, (fs'.extended l bytes).IsStore l ∧ (fs'.extended l bytes).get? l ≠ none ∧
        (fs'.extended l bytes).content l = (if keep then fs.content l else []) ++ bytes := by
  -- The permissions are those of the file, or of a new one, which may be written to and read.
  have hstore {mode : Nat} {content : Bytes} {fs' : FileSystem}
      (hwrite : (Node.file mode content).mayWrite = true)
      (hread : (Node.file mode content).mayRead = true)
      (hget : fs'.get? l = some (.file mode (if keep then fs.content l else []))) (bytes : Bytes) :
      (fs'.extended l bytes).IsStore l ∧ (fs'.extended l bytes).get? l ≠ none ∧
        (fs'.extended l bytes).content l = (if keep then fs.content l else []) ++ bytes := by
    have hafter := get?_extended_self hget bytes
    exact ⟨.file hafter hwrite hread, by simp [hafter], content_of_file hafter⟩
  cases h with
  | absent hget hopen =>
    refine ⟨_, opened_of_none hl hget hopen keep, ?_⟩
    refine hstore (show (Node.file Host.newFileMode []).mayWrite = true from rfl) rfl ?_
    rw [get?_put _ (ne_nil_of_isPlain (isPlain_of_none hget)), if_pos rfl, content_of_none hget,
      ite_self]
  | file hget hwrite hread =>
    refine ⟨_, opened_of_file hl hget hwrite keep, hstore hwrite hread ?_⟩
    rw [content_of_file hget]
    split
    · exact hget
    · rw [get?_put _ (ne_nil_of_isPlain (isPlain_of_file hget)), if_pos rfl]

/-- What a store holds can be read, if it is there. -/
theorem IsStore.read (h : fs.IsStore l) (hl : fs.resolveNew directory path = .ok l)
    (hthere : fs.get? l ≠ none) : fs.read directory path = .ok (fs.content l) := by
  cases h with
  | absent hget => exact absurd hget hthere
  | file hget _ hread =>
    rw [FileSystem.read, lookup_of_resolveNew hl, content_of_file hget]
    simp only [hget, bind, Except.bind, hread, ↓reduceIte, Node.bytes]

end FileSystem

namespace History

variable {host : Host} {directory l : Location} {path text : String}

/-! ## Stores -/

/-- A text that is in a file is read from it as its entries. -/
theorem read_of_text (h : History) (hread : host.files.read directory path = .ok (Text.encode text)) :
    h.read host directory path =
      .ok ((entriesOf text).length, { h with entries := h.entries ++ entriesOf text }) := by
  rw [read, hread]
  simp only [Text.decode?_encode]

/-- Entries are saved in a store. It is one afterwards too and holds their text, behind what it held
if it was appended to, and this is what is read from it. -/
theorem save_store (hl : host.files.resolveNew directory path = .ok l) (hs : host.files.IsStore l)
    (entries : List String) (append : Bool) :
    ∃ host', save entries host directory path append = (.ok (), host') ∧
      host'.files.resolveNew directory path = .ok l ∧ host'.files.IsStore l ∧
      host'.files.content l =
        (if append then host.files.content l else []) ++ Text.encode (textOf entries) ∧
      host'.files.read directory path = .ok (host'.files.content l) := by
  obtain ⟨fs, ho, hafter⟩ := hs.opened hl append
  have hok : (save entries host directory path append).1 = .ok () :=
    save_of_opened ho hs.isPlain
  rcases hsave : save entries host directory path append with ⟨result, host'⟩
  rw [hsave] at hok
  cases hok
  have hl' := ((save_stores hsave hl hs.isPlain).alike hs.isPlain).resolveNew_ok hl
  obtain ⟨m, fs', ho', hfiles⟩ := opened_of_save hsave
  obtain ⟨rfl, rfl⟩ : l = m ∧ fs = fs' := by simpa using ho.symm.trans ho'
  obtain ⟨hstore, hthere, hcontent⟩ := hafter (Text.encode (textOf entries))
  rw [← hfiles] at hstore hthere hcontent
  exact ⟨host', rfl, hl', hstore, hcontent, hstore.read hl' hthere⟩

/-- A history is written to a store, whatever it held. -/
theorem write_store (hl : host.files.resolveNew directory path = .ok l) (hs : host.files.IsStore l)
    (h : History) :
    ∃ host', h.write host directory path = (.ok (), host') ∧
      host'.files.resolveNew directory path = .ok l ∧ host'.files.IsStore l ∧
      host'.files.content l = Text.encode (textOf h.entries) ∧
      empty.read host' directory path =
        .ok ((entriesOf (textOf h.entries)).length, ⟨entriesOf (textOf h.entries), 0⟩) := by
  obtain ⟨host', hsave, hl', hs', hcontent, hread⟩ := save_store hl hs h.entries false
  have hbytes : host'.files.content l = Text.encode (textOf h.entries) := hcontent
  rw [hbytes] at hread
  refine ⟨host', ?_, hl', hs', hbytes, read_of_text empty hread⟩
  rw [write, hsave]
  rfl

/-! ## There and back -/

/-- Whatever text a file holds, what a new history reads from it are entries; once they were written
to a store, the same history is read from there, and writing it again leaves the same bytes. And
whatever history is written to a store, a new one reads from there its entries that are not empty,
in order, as long as none has a newline in it or a carriage return at its end. -/
theorem round_trip (host : Host) (directory : Location) :
    (∀ source text, host.files.read directory source = .ok (Text.encode text) →
      ∃ n h, empty.read host directory source = .ok (n, h) ∧ (∀ e ∈ h.entries, IsEntry e) ∧
        ∀ path l, host.files.resolveNew directory path = .ok l → host.files.IsStore l →
          ∃ host₁ host₂, h.write host directory path = (.ok (), host₁) ∧
            empty.read host₁ directory path = .ok (n, h) ∧
            h.write host₁ directory path = (.ok (), host₂) ∧
            empty.read host₂ directory path = .ok (n, h) ∧
            host₂.files.content l = host₁.files.content l) ∧
    ∀ h : History, (∀ e ∈ h.entries, '\n' ∉ e.toList ∧ e.toList.getLast? ≠ some '\r') →
      ∀ path l, host.files.resolveNew directory path = .ok l → host.files.IsStore l →
        ∃ host', h.write host directory path = (.ok (), host') ∧
          empty.read host' directory path =
            .ok ((h.entries.filter (· ≠ "")).length, ⟨h.entries.filter (· ≠ ""), 0⟩) := by
  constructor
  · intro source text hsource
    refine ⟨_, _, read_of_text empty hsource, fun e he => isEntry_of_mem_entriesOf he, ?_⟩
    intro path l hl hs
    let h : History := ⟨entriesOf text, 0⟩
    have hback : entriesOf (textOf h.entries) = h.entries :=
      entriesOf_textOf fun e he => isEntry_of_mem_entriesOf he
    obtain ⟨host₁, hwrite₁, hl₁, hs₁, hbytes₁, hread₁⟩ := write_store hl hs h
    obtain ⟨host₂, hwrite₂, -, -, hbytes₂, hread₂⟩ := write_store hl₁ hs₁ h
    rw [hback] at hread₁ hread₂
    exact ⟨host₁, host₂, hwrite₁, hread₁, hwrite₂, hread₂, hbytes₂.trans hbytes₁.symm⟩
  · intro h hentries path l hl hs
    obtain ⟨host', hwrite, -, -, -, hread⟩ := write_store hl hs h
    rw [entriesOf_textOf_eq_filter hentries] at hread
    exact ⟨host', hwrite, hread⟩

/-- A file with all kinds of line ends, from which three entries are read, and a history with an
empty entry that is written to a new file. -/
theorem round_trip_lineEnds :
    let text := "a\r\r\n\r\n\nb\rc\r\nlast"
    let files := (FileSystem.empty.put ["tmp"] .directory).put ["tmp", "h"]
      (.file 0o644 (Text.encode text))
    let host := Host.start files [] []
    let h : History := ⟨["a", "b\rc", "last"], 0⟩
    empty.read host ["tmp"] "h" = .ok (3, h) ∧
      (∃ host₁ host₂, h.write host ["tmp"] "h" = (.ok (), host₁) ∧
        empty.read host₁ ["tmp"] "h" = .ok (3, h) ∧ h.write host₁ ["tmp"] "h" = (.ok (), host₂) ∧
        host₂.files.content ["tmp", "h"] = host₁.files.content ["tmp", "h"]) ∧
      ∃ host', History.write ⟨["x", "", "y"], 0⟩ host ["tmp"] "g" = (.ok (), host') ∧
        empty.read host' ["tmp"] "g" = .ok (2, ⟨["x", "y"], 0⟩) := by
  intro text files host h
  have hl : files.resolveNew ["tmp"] "h" = .ok ["tmp", "h"] := by
    simp only [files]
    cbv
  have hs : files.IsStore ["tmp", "h"] := .file rfl rfl rfl
  have hread : files.read ["tmp"] "h" = .ok (Text.encode text) := by
    simp only [files, text]
    cbv
  have hentries : entriesOf text = h.entries := by
    simp only [text, h]
    cbv
  obtain ⟨hthere, hback⟩ := round_trip host ["tmp"]
  obtain ⟨n, h', hfirst, -, hagain⟩ := hthere "h" text hread
  have hsame : (3, h) = (n, h') := by
    have hdirect : empty.read host ["tmp"] "h" = _ := read_of_text empty hread
    rw [hentries] at hdirect
    exact Except.ok.inj (hdirect.symm.trans hfirst)
  cases hsame
  obtain ⟨host₁, host₂, hwrite₁, hread₁, hwrite₂, -, hbytes⟩ := hagain "h" _ hl hs
  refine ⟨hfirst, ⟨host₁, host₂, hwrite₁, hread₁, hwrite₂, hbytes⟩, ?_⟩
  have hnew : files.resolveNew ["tmp"] "g" = .ok ["tmp", "g"] := by
    simp only [files]
    cbv
  exact hback ⟨["x", "", "y"], 0⟩ (by decide) "g" _ hnew (.absent rfl rfl)

end History

end CommandShell
