/-!
# Tables

A table is a list of keys with their values, each key once. `Table.set` gives a key a value and keeps
the order of the keys; `lookup_set` says what is looked up afterwards.
-/

namespace CommandShell.Table

variable {κ ν : Type} [DecidableEq κ]

/-- Gives a key a value, at the place of the key or else at the end. -/
def set (key : κ) (value : ν) : List (κ × ν) → List (κ × ν)
  | [] => [(key, value)]
  | e :: es => if e.1 = key then (key, value) :: es else e :: set key value es

/-- What is looked up after a key was given a value. -/
theorem lookup_set [BEq κ] [LawfulBEq κ] (key other : κ) (value : ν) (es : List (κ × ν)) :
    (set key value es).lookup other = if other = key then some value else es.lookup other := by
  induction es with
  | nil =>
    by_cases h : other = key
    · simp [set, h]
    · simp [set, List.lookup_cons, h, beq_eq_false_iff_ne.2 h]
  | cons e es ih =>
    obtain ⟨k, v⟩ := e
    by_cases hm : other = k
    · subst hm
      by_cases hk : other = key <;> simp [set, hk]
    · have hmk := beq_eq_false_iff_ne.2 hm
      by_cases hk : k = key
      · simp [set, List.lookup_cons, hk, hk ▸ hm, beq_eq_false_iff_ne.2 (hk ▸ hm)]
      · simp [set, List.lookup_cons, hk, hmk, ih]

end CommandShell.Table
