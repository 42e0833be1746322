import Mathlib.Data.List.Basic
import CommandShell.Completion

/-!
# What completion gives

What is added to a text makes it one of the names, with a space behind it, or the start of one. What
is listed are names.
-/

namespace CommandShell

/-! ## Parts of names -/

/-- What follows a start in a name is what is left when the start is taken away. -/
theorem remainder?_eq_some {start name rest : String} :
    remainder? start name = some rest ↔ name = start ++ rest := by
  have key (a b : List Char) : a.isPrefixOf? b = some rest.toList ↔ b = a ++ rest.toList := by
    induction a generalizing b with
    | nil => simp [List.isPrefixOf?]
    | cons c a ih =>
      cases b with
      | nil => simp [List.isPrefixOf?]
      | cons d b =>
        by_cases hcd : c = d
        · simp [List.isPrefixOf?, hcd, ih]
        · simp [List.isPrefixOf?, hcd, Ne.symm hcd]
  rw [String.ext_iff, String.toList_append, ← key]
  simp only [remainder?, Option.map_eq_some_iff]
  constructor
  · rintro ⟨cs, hcs, rfl⟩
    simpa using hcs
  · intro h
    exact ⟨rest.toList, h, String.ofList_toList⟩

/-- The characters that take up some bytes at the start of a text are its start. -/
theorem prefix_of_takeBytes? {n : Nat} {text taken : List Char}
    (h : takeBytes? n text = some taken) : taken <+: text := by
  fun_induction takeBytes? n text generalizing taken with
  | case1 => cases h; exact List.nil_prefix
  | case2 => cases h
  | case3 n c cs hle ih =>
    obtain ⟨rest, hrest, rfl⟩ := Option.map_eq_some_iff.mp h
    exact List.cons_prefix_cons.mpr ⟨rfl, ih hrest⟩
  | case4 => cases h

/-- The common start of some texts is a start of the first of them. -/
theorem start_commonStart (first : String) (items : List String) :
    (commonStart (first :: items)).toList <+: first.toList := by
  simp only [commonStart, String.toList_ofList]
  rcases htake : takeBytes? _ first.toList with _ | taken
  · exact List.nil_prefix
  · exact prefix_of_takeBytes? htake

/-- Inserting candidates one after another adds them and nothing else. -/
theorem Candidate.mem_foldl_insert {a : String} (new sofar : List String) :
    a ∈ new.foldl (fun cs c => insert c cs) sofar ↔ a ∈ new ∨ a ∈ sofar := by
  induction new generalizing sofar with
  | nil => simp
  | cons c new ih =>
    rw [List.foldl_cons, ih, mem_insert, List.mem_cons, or_left_comm, or_assoc]

namespace Completer

variable {c : Completer} {fs : FileSystem} {directory : Location} {text : String}

/-! ## Candidates and completions -/

/-- A candidate makes the text a name. -/
theorem mem_candidates {rest : String} :
    rest ∈ c.candidates fs directory text ↔ text ++ rest ∈ c.names fs directory := by
  simp [candidates, Candidate.mem_foldl_insert, remainder?_eq_some]

/-- A text is completed to a name with a space behind it, or to the start of a name. -/
theorem complete_found {added : String} (h : c.complete fs directory text = .found added) :
    (∃ rest, added = rest ++ " " ∧ text ++ rest ∈ c.names fs directory) ∨
      ∃ rest, added.toList <+: rest.toList ∧ text ++ rest ∈ c.names fs directory := by
  simp only [complete] at h
  split at h
  · cases h
  split at h
  · cases h
  · next only heq =>
    cases h
    exact .inl ⟨only, rfl, mem_candidates.mp (by simp [heq])⟩
  · next several _ _ =>
    split at h
    · cases h
    · cases h
      cases hs : c.candidates fs directory text with
      | nil => simp_all
      | cons first items =>
        refine .inr ⟨first, start_commonStart first items, mem_candidates.mp (by simp [hs])⟩

/-- What is listed are names. -/
theorem complete_more {listed : List String} (h : c.complete fs directory text = .more listed) :
    ∀ name ∈ listed, name ∈ c.names fs directory := by
  simp only [complete] at h
  split at h
  · cases h
  split at h
  · cases h
  · cases h
  · split at h
    · cases h
      intro name hname
      obtain ⟨rest, hrest, rfl⟩ := List.mem_map.mp hname
      exact mem_candidates.mp hrest
    · cases h

end Completer

end CommandShell
