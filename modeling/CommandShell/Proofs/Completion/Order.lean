import CommandShell.Completion
import Mathlib.Data.List.Basic
import Mathlib.Data.Prod.Lex
import Mathlib.Data.String.Basic

/-!
# The order of candidates

Candidates are kept in order, each once, so their list does not tell where they were found. The
order is that of the written texts: by the number of bytes, and then byte by byte.
-/

namespace CommandShell

/-! ## Bytes in order -/

namespace Text

/-- A character that comes before another is written with bytes that come first, whatever follows
the two. -/
theorem utf8EncodeChar_append_lt {c d : Char} (h : c < d) (x y : Bytes) :
    String.utf8EncodeChar c ++ x < String.utf8EncodeChar d ++ y := by
  have hlt : c.val.toNat < d.val.toNat := h
  have hd : d.val.toNat < 0x110000 := by
    rcases d.valid with hd | hd
    · exact Nat.lt_trans hd (by decide)
    · exact hd.2
  rw [String.utf8EncodeChar, String.utf8EncodeChar]
  generalize c.val.toNat = m at hlt
  generalize d.val.toNat = n at hlt hd
  have htwo (n : Nat) : n / 4096 = n / 64 / 64 := (Nat.div_div_eq_div_mul n 64 64).symm
  have hthree (n : Nat) : n / 262144 = n / 64 / 64 / 64 := by
    rw [← htwo, Nat.div_div_eq_div_mul]
  -- A first byte tells how many follow, so bytes behind it are compared only for equal numbers.
  split_ifs <;>
    simp only [List.cons_append, List.nil_append, List.cons_lt_cons_iff, UInt8.lt_iff_toNat_lt,
      ← UInt8.toNat_inj, UInt8.toNat_ofNat', htwo, hthree] <;>
    omega

/-- A text that comes before another is written with bytes that come first. -/
theorem encode_lt_encode {s t : String} (h : s < t) : encode s < encode t := by
  rw [String.lt_iff_toList_lt] at h
  rw [encode_eq_flatMap, encode_eq_flatMap]
  generalize s.toList = a at h
  generalize t.toList = b at h
  induction a generalizing b with
  | nil =>
    rcases b with _ | ⟨d, b⟩
    · exact absurd h (List.lt_irrefl _)
    · rw [List.flatMap_cons]
      rcases hd : String.utf8EncodeChar d with _ | ⟨x, y⟩
      · exact absurd hd String.utf8EncodeChar_ne_nil
      · exact List.nil_lt_cons _ _
  | cons c a ih =>
    rcases b with _ | ⟨d, b⟩
    · exact absurd h (List.not_lt_nil _)
    rw [List.flatMap_cons, List.flatMap_cons]
    obtain hcd | ⟨rfl, hab⟩ := List.cons_lt_cons_iff.mp h
    · exact utf8EncodeChar_append_lt hcd _ _
    · exact List.append_left_lt (ih b hab)

/-- A text is as long as it is in bytes. -/
theorem length_encode (s : String) : (encode s).length = s.utf8ByteSize := rfl

end Text

/-- Whether a name is listed before another: names are listed by the number of their bytes, and
those of one length byte by byte. -/
def ListedBefore (a b : String) : Prop :=
  (Text.encode a).length < (Text.encode b).length ∨
    (Text.encode a).length = (Text.encode b).length ∧ Text.encode a < Text.encode b

theorem listedBefore_asymm {a b : String} (h : ListedBefore a b) : ¬ListedBefore b a := by
  rintro (hba | ⟨heq, hba⟩)
  · rcases h with hab | ⟨heq, -⟩ <;> omega
  · rcases h with hab | ⟨-, hab⟩
    · omega
    · exact List.lt_asymm hab hba

instance : Std.Irrefl ListedBefore := ⟨fun _ h => listedBefore_asymm h h⟩

instance : Std.Antisymm ListedBefore := ⟨fun _ _ h h' => absurd h' (listedBefore_asymm h)⟩

/-! ## Candidates in order -/

namespace Candidate

/-- Candidates are in the order of their lengths, and those of one length in that of texts. -/
theorem precedes_iff {a b : String} :
    precedes a b = true ↔ toLex (a.utf8ByteSize, a) < toLex (b.utf8ByteSize, b) := by
  simp [precedes, Prod.Lex.toLex_lt_toLex]

theorem precedes_trans {a b c : String} (hab : precedes a b = true) (hbc : precedes b c = true) :
    precedes a c = true :=
  precedes_iff.mpr ((precedes_iff.mp hab).trans (precedes_iff.mp hbc))

/-- Of two candidates, one comes before the other, unless they are the same. -/
theorem precedes_of_not {a b : String} (h : precedes a b ≠ true) (hne : a ≠ b) :
    precedes b a = true := by
  have hle := not_lt.mp (mt precedes_iff.mpr h)
  refine precedes_iff.mpr (lt_of_le_of_ne hle ?_)
  intro heq
  exact hne (Prod.mk.inj (toLex.injective heq)).2.symm

/-- A candidate is inserted in its place. -/
theorem pairwise_insert (a : String) {bs : List String}
    (h : bs.Pairwise fun a b => precedes a b = true) :
    (insert a bs).Pairwise fun a b => precedes a b = true := by
  induction bs with
  | nil => exact List.pairwise_singleton _ _
  | cons b bs ih =>
    obtain ⟨hb, hbs⟩ := List.pairwise_cons.mp h
    rw [insert]
    split
    · next hab =>
      refine List.pairwise_cons.mpr ⟨?_, h⟩
      intro c hc
      rcases List.mem_cons.mp hc with rfl | hc
      · exact hab
      · exact precedes_trans hab (hb c hc)
    split
    · exact h
    · next hab hne =>
      refine List.pairwise_cons.mpr ⟨?_, ih hbs⟩
      intro c hc
      rcases mem_insert.mp hc with rfl | hc
      · exact precedes_of_not hab hne
      · exact hb c hc

/-- Candidates that are inserted one after another are in order. -/
theorem pairwise_foldl_insert (new : List String) {sofar : List String}
    (h : sofar.Pairwise fun a b => precedes a b = true) :
    (new.foldl (fun cs c => insert c cs) sofar).Pairwise fun a b => precedes a b = true := by
  induction new generalizing sofar with
  | nil => exact h
  | cons c new ih => exact ih (pairwise_insert c h)

/-- Names are listed in the order of what they have behind a common start. -/
theorem listedBefore_append (start : String) {a b : String} (h : precedes a b = true) :
    ListedBefore (start ++ a) (start ++ b) := by
  rw [precedes_iff, Prod.Lex.toLex_lt_toLex, ← Text.length_encode, ← Text.length_encode] at h
  rw [ListedBefore, Text.encode_append, Text.encode_append, List.length_append, List.length_append]
  rcases h with hlength | ⟨hlength, hab⟩
  · exact .inl (Nat.add_lt_add_left hlength _)
  · exact .inr ⟨congrArg _ hlength, List.append_left_lt (Text.encode_lt_encode hab)⟩

end Candidate

end CommandShell
