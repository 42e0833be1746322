import CommandShell.Proofs.Completion
import Mathlib.Data.Set.Basic

/-!
# Common starts

The longest common start of some texts is found in bytes, one text after the other, and is cut off
the first text in the end. `commonStart_isLongest` says that it is the longest one in characters,
in any order of the texts: each of them narrows it to what it shares, and no cut goes through a
character.
-/

namespace CommandShell

/-- Whether a text is the longest that all of the given ones start with. -/
structure IsLongestStart (names : Set String) (start : String) : Prop where
  starts : ∀ name ∈ names, start.toList <+: name.toList
  longest : ∀ other : String, (∀ name ∈ names, other.toList <+: name.toList) →
    other.toList <+: start.toList

/-- Texts have one longest start. -/
theorem IsLongestStart.unique {names : Set String} {start start' : String}
    (h : IsLongestStart names start) (h' : IsLongestStart names start') : start = start' :=
  String.toList_injective
    ((h'.longest start h.starts).eq_of_length_le (h.longest start' h'.starts).length_le)

/-! ## Counting in bytes -/

/-- A start of a text is cut off by its number of bytes. -/
theorem takeBytes?_of_prefix {start text : List Char} (h : start <+: text) :
    takeBytes? (byteLength start) text = some start := by
  induction start generalizing text with
  | nil => simp [byteLength, takeBytes?]
  | cons c start ih =>
    rcases text with _ | ⟨d, text⟩
    · simp at h
    obtain ⟨rfl, htext⟩ := List.cons_prefix_cons.mp h
    obtain ⟨size, hsize⟩ := Nat.exists_eq_succ_of_ne_zero c.utf8Size_pos.ne'
    have hbytes : byteLength (c :: start) = size + byteLength start + 1 := by
      rw [byteLength, hsize]
      omega
    have hrest : size + byteLength start + 1 - c.utf8Size = byteLength start := by omega
    rw [hbytes, takeBytes?, if_pos (by omega), hrest, ih htext]
    rfl

/-- A number of bytes that does not cut a character of a text stays as it is. -/
theorem wholeBytes_eq_self {n : Nat} {text : List Char} (h : (takeBytes? n text).isSome) :
    wholeBytes text n = n := by
  rcases n with _ | n
  · rfl
  · rw [wholeBytes, if_pos h]

/-- The bytes of a text are counted as those of its string. -/
theorem byteLength_eq (text : List Char) :
    byteLength text = (String.ofList text).utf8ByteSize := by
  induction text with
  | nil => rfl
  | cons c text ih =>
    rw [byteLength, ih, String.ofList_cons, String.utf8ByteSize_append, String.utf8ByteSize_singleton]

/-- A start of a text ends between two of its characters. -/
theorem isValid_of_prefix {start : List Char} {text : String} (h : start <+: text.toList) :
    String.Pos.Raw.IsValid text ⟨byteLength start⟩ := by
  obtain ⟨rest, hrest⟩ := h
  refine String.Pos.Raw.isValid_iff_exists_append.mpr
    ⟨String.ofList start, String.ofList rest, String.toList_injective ?_, ?_⟩
  · rw [← hrest, String.toList_append, String.toList_ofList, String.toList_ofList]
  · rw [byteLength_eq]
    rfl

/-- What two texts have in front of their first difference, or the shorter of them if they do not
differ, is their longest common start. -/
theorem difference?_eq (a b : List Char) :
    ∃ shared, (difference? a b).getD (min (byteLength a) (byteLength b)) = byteLength shared ∧
      shared <+: a ∧ shared <+: b ∧
      ∀ other, other <+: a → other <+: b → other <+: shared := by
  fun_induction difference? a b with
  | case1 as c bs ih =>
    obtain ⟨shared, hbytes, ha, hb, hlongest⟩ := ih
    refine ⟨c :: shared, ?_, List.cons_prefix_cons.mpr ⟨rfl, ha⟩,
      List.cons_prefix_cons.mpr ⟨rfl, hb⟩, ?_⟩
    · rw [byteLength, byteLength, byteLength, Nat.add_min_add_left, Option.getD_map, hbytes]
    · intro other hother hother'
      rcases other with _ | ⟨d, other⟩
      · exact List.nil_prefix
      obtain ⟨rfl, hrest⟩ := List.cons_prefix_cons.mp hother
      obtain ⟨-, hrest'⟩ := List.cons_prefix_cons.mp hother'
      exact List.cons_prefix_cons.mpr ⟨rfl, hlongest other hrest hrest'⟩
  | case2 c as d bs hne =>
    refine ⟨[], rfl, List.nil_prefix, List.nil_prefix, ?_⟩
    intro other hother hother'
    rcases other with _ | ⟨e, other⟩
    · exact List.nil_prefix
    · obtain ⟨rfl, -⟩ := List.cons_prefix_cons.mp hother
      exact absurd (List.cons_prefix_cons.mp hother').1 hne
  | case3 a b hempty =>
    refine ⟨[], ?_, List.nil_prefix, List.nil_prefix, ?_⟩
    · rcases a with _ | ⟨c, as⟩
      · exact Nat.zero_min _
      rcases b with _ | ⟨d, bs⟩
      · exact Nat.min_zero _
      · exact absurd rfl (hempty c as d bs rfl)
    · intro other hother hother'
      rcases a with _ | ⟨c, as⟩
      · exact hother
      rcases b with _ | ⟨d, bs⟩
      · exact hother'
      · exact absurd rfl (hempty c as d bs rfl)

/-! ## Narrowing -/

/-- Narrowing a start of a text by further texts leaves the longest part of it that they all start
with. -/
theorem foldl_narrow_eq {first start : List Char} (h : start <+: first) (items : List (List Char)) :
    ∃ common, items.foldl (narrow first) (byteLength start) = byteLength common ∧
      common <+: start ∧ (∀ item ∈ items, common <+: item) ∧
      ∀ other, other <+: start → (∀ item ∈ items, other <+: item) → other <+: common := by
  induction items generalizing start with
  | nil => exact ⟨start, rfl, List.prefix_rfl, by simp, fun _ hother _ => hother⟩
  | cons item items ih =>
    obtain ⟨shared, hbytes, hstart, hitem, hlongest⟩ := difference?_eq start item
    have hnarrow : narrow first (byteLength start) item = byteLength shared := by
      rw [narrow, takeBytes?_of_prefix h]
      exact hbytes
    obtain ⟨common, hfold, hshared, hitems, hrest⟩ := ih (hstart.trans h)
    refine ⟨common, by rw [List.foldl_cons, hnarrow, hfold], hshared.trans hstart, ?_, ?_⟩
    · rw [List.forall_mem_cons]
      exact ⟨hshared.trans hitem, hitems⟩
    · intro other hother hall
      rw [List.forall_mem_cons] at hall
      exact hrest other (hlongest other hother hall.1) hall.2

/-- The common start of some texts is the longest text that all of them start with. -/
theorem isLongestStart_commonStart (first : String) (items : List String) :
    IsLongestStart {name | name ∈ first :: items} (commonStart (first :: items)) := by
  obtain ⟨common, hfold, hfirst, hitems, hlongest⟩ :=
    foldl_narrow_eq (List.prefix_refl first.toList) (items.map String.toList)
  have hcommon : (commonStart (first :: items)).toList = common := by
    have htake := takeBytes?_of_prefix hfirst
    rw [commonStart, sharedBytes, hfold, wholeBytes_eq_self (by rw [htake]; rfl), htake]
    exact String.toList_ofList
  constructor
  · intro name hname
    rw [hcommon]
    rcases List.mem_cons.mp hname with rfl | hname
    · exact hfirst
    · exact hitems _ (List.mem_map_of_mem hname)
  · intro other hother
    rw [hcommon]
    refine hlongest _ (hother first (List.mem_cons_self ..)) ?_
    intro item hitem
    obtain ⟨name, hname, rfl⟩ := List.mem_map.mp hitem
    exact hother name (List.mem_cons_of_mem first hname)

/-! ## In any order, and between characters -/

/-- Texts have the same common start in any order. -/
theorem commonStart_perm {names names' : List String} (h : names.Perm names') :
    commonStart names = commonStart names' := by
  rcases names with _ | ⟨first, items⟩
  · rw [List.nil_perm.mp h]
  rcases names' with _ | ⟨first', items'⟩
  · cases List.perm_nil.mp h
  have hmem : {name | name ∈ first :: items} = {name | name ∈ first' :: items'} :=
    Set.ext fun _ => h.mem_iff
  have hstart := isLongestStart_commonStart first items
  rw [hmem] at hstart
  exact hstart.unique (isLongestStart_commonStart first' items')

/-- The bytes that some texts share with the first one are those of a start of it. -/
theorem exists_takeBytes?_sharedBytes (first : String) (items : List String) :
    ∃ start, takeBytes? (sharedBytes first items) first.toList = some start ∧
      sharedBytes first items = byteLength start := by
  obtain ⟨start, hbytes, hfirst, -, -⟩ :=
    foldl_narrow_eq (List.prefix_refl first.toList) (items.map String.toList)
  have hshared : sharedBytes first items = byteLength start := hbytes
  exact ⟨start, by rw [hshared, takeBytes?_of_prefix hfirst], hshared⟩

/-- The common start of some texts is the longest text that all of them start with, in whatever
order they are given. Whenever another one of them is looked at, the bytes that are left of the
first one end between two of its characters. -/
theorem commonStart_isLongest (first : String) (items : List String) :
    IsLongestStart {name | name ∈ first :: items} (commonStart (first :: items)) ∧
      (∀ names : List String, names.Perm (first :: items) →
        commonStart names = commonStart (first :: items)) ∧
      ∀ n, String.Pos.Raw.IsValid first ⟨sharedBytes first (items.take n)⟩ ∧
        (takeBytes? (sharedBytes first (items.take n)) first.toList).isSome := by
  refine ⟨isLongestStart_commonStart first items, fun names => commonStart_perm, fun n => ?_⟩
  obtain ⟨start, htake, hbytes⟩ := exists_takeBytes?_sharedBytes first (items.take n)
  refine ⟨?_, by rw [htake]; rfl⟩
  rw [hbytes]
  exact isValid_of_prefix (prefix_of_takeBytes? htake)

/-- Letters that differ in their last bytes only have none of their bytes in common. -/
theorem commonStart_accents :
    ["aè", "", "aé"].Perm ["aé", "aè", ""] ∧
      commonStart ["aè", "", "aé"] = commonStart ["aé", "aè", ""] ∧
      sharedBytes "aé" (["aè", ""].take 1) = 1 ∧
      String.Pos.Raw.IsValid "aé" ⟨sharedBytes "aé" (["aè", ""].take 1)⟩ :=
  ⟨by decide, (commonStart_isLongest "aé" ["aè", ""]).2.1 _ (by decide), by decide,
    ((commonStart_isLongest "aé" ["aè", ""]).2.2 1).1⟩

end CommandShell
