import CommandShell.Pipeline.Wiring

/-!
# The descriptors of a pipeline

A pipeline can be made from any descriptors, as long as standard input and output are open. The
driver has them all the time, with the read end of the pipe before the next stage besides, and each
child has them but for the ends of the pipes next to its stage, which are its standard input and
output: `Keeps.stages`. Made from the standard streams of the session, it is an `IsPipeline`.
-/

namespace CommandShell

namespace Descriptors

variable {d : Descriptors} {handle : Handle}

/-- A table holds the handles that its numbers stand for. -/
theorem mem_handles : handle ∈ d.handles ↔ ∃ n, d.get? n = some handle := by
  rw [handles, List.mem_filterMap]
  simp only [id_eq, exists_eq_right, get?, List.mem_iff_getElem?]
  constructor
  · rintro ⟨n, hn⟩
    exact ⟨n, by rw [hn, Option.join_some]⟩
  · rintro ⟨n, hn⟩
    exact ⟨n, Option.join_eq_some_iff.mp hn⟩

/-- The lowest number that is not open is not open. -/
theorem get?_lowestFree (d : Descriptors) : d.get? d.lowestFree = none := by
  rw [get?, lowestFree]
  rcases h : d.table[d.table.findIdx (· = none)]? with _ | x
  · rfl
  · obtain ⟨hlt, hx⟩ := List.getElem?_eq_some_iff.mp h
    have hnone := List.findIdx_getElem (w := hlt)
    rw [hx] at hnone
    rw [of_decide_eq_true hnone]
    rfl

/-- What a number stands for after a handle was given the lowest number that is not open. -/
theorem get?_add (d : Descriptors) (handle : Handle) (m : Nat) :
    (d.add handle).2.get? m = if m = (d.add handle).1 then some handle else d.get? m :=
  get?_put d _ m handle

/-- What a number stands for after another one was made to stand for what an open one does. -/
theorem get?_duplicate {old : Nat} (h : d.get? old = some handle) (new m : Nat) :
    (d.duplicate old new).get? m = if m = new then some handle else d.get? m := by
  rw [duplicate, h]
  exact get?_put d new m handle

/-- The standard streams of the session are all that is open among the standard descriptors. -/
theorem get?_standard_eq_none_iff {n : Nat} : standard.get? n = none ↔ 3 ≤ n := by
  rcases n with _ | _ | _ | n
  · exact iff_of_false nofun (by omega)
  · exact iff_of_false nofun (by omega)
  · exact iff_of_false nofun (by omega)
  · exact iff_of_true rfl (by omega)

/-- The standard descriptors stand for the standard streams of the session. -/
theorem eq_of_get?_standard {n : Nat} (h : standard.get? n = some handle) :
    handle = .input ∨ handle = .output ∨ handle = .error := by
  rcases n with _ | _ | _ | n
  · exact .inl (Option.some.inj h).symm
  · exact .inr (.inl (Option.some.inj h).symm)
  · exact .inr (.inr (Option.some.inj h).symm)
  · cases h

end Descriptors

namespace Wired

open Descriptors

variable {base d : Descriptors} {input : Option Nat} {ends : Option (Nat × Nat)} {handle : Handle}
  {n first total i : Nat}

/-- What a number stands for after a descriptor was moved. -/
theorem get?_move (h : d.get? n = some handle) (target m : Nat) :
    (move d (some n) target).get? m =
      if m = n then none else if m = target then some handle else d.get? m := by
  rw [move, get?_close, get?_duplicate h]

theorem get?_closeIf (d : Descriptors) (n : Option Nat) (m : Nat) :
    (closeIf d n).get? m = if some m = n then none else d.get? m := by
  cases n with
  | none => rw [closeIf, if_neg (by simp)]
  | some n =>
    rw [closeIf, get?_close]
    simp only [Option.some.injEq]

/-! ## From any descriptors -/

/-- What a number stands for after a descriptor was moved from a spare number to the place of one
that is open: the spare number is spare again. -/
theorem get?_move_spare {p : Prop} [Decidable p] {f : Nat → Option Handle} {source : Option Nat}
    (target : Nat) {handle : Handle} (hp : source ≠ none ↔ p)
    (hspare : ∀ n, source = some n → f n = none) (htarget : f target ≠ none)
    (hd : ∀ m, d.get? m = if source = some m then some handle else f m) (m : Nat) :
    (move d source target).get? m = if m = target ∧ p then some handle else f m := by
  cases source with
  | none =>
    rw [if_neg (fun h => hp.mpr h.2 rfl)]
    exact (hd m).trans (if_neg nofun)
  | some n =>
    have hn : f n = none := hspare n rfl
    have hne : n ≠ target := fun h => htarget (h ▸ hn)
    rw [get?_move ((hd n).trans (if_pos rfl)), hd]
    by_cases hm : m = n
    · rw [if_pos hm, hm, if_neg (fun h => hne h.1), hn]
    · rw [if_neg hm, if_neg (fun h => hm (Option.some.inj h).symm)]
      simp only [hp.mp nofun, and_true]

/-- Whether a driver has the descriptors that it began with, and besides them, at a number that was
not open, the read end of the pipe before the next stage, if there is one. -/
structure Keeps (base : Descriptors) (first i : Nat) (d : Descriptors) (input : Option Nat) :
    Prop where
  none_iff : input = none ↔ i = 0
  spare : ∀ n, input = some n → base.get? n = none
  table : ∀ m, d.get? m =
    if input = some m then some (.pipeReader (first + i - 1)) else base.get? m

/-- Whether a driver that makes the process of a stage has the two ends of the pipe behind the stage
as well, at numbers that were not open, unless the stage is the last. -/
inductive Offers (base : Descriptors) (first total i : Nat) :
    Descriptors → Option Nat → Option (Nat × Nat) → Prop
  | last {d : Descriptors} {input : Option Nat} :
      i + 1 = total → Keeps base first i d input → Offers base first total i d input none
  | more {d e : Descriptors} {input : Option Nat} {reader writer : Nat} :
      i + 1 < total → Keeps base first i d input →
        d.get? reader = none → d.get? writer = none → writer ≠ reader →
        (∀ m, e.get? m = if m = writer then some (.pipeWriter (first + i))
          else if m = reader then some (.pipeReader (first + i)) else d.get? m) →
        Offers base first total i e input (some (reader, writer))

/-- Whether the process of a stage has the descriptors that the driver began with, but for the ends
of the pipes before and behind the stage, which are its standard input and output. -/
def Begins (base : Descriptors) (first total i : Nat) (d : Descriptors) : Prop :=
  ∀ m, d.get? m =
    if m = 0 ∧ 0 < i then some (.pipeReader (first + i - 1))
    else if m = 1 ∧ i + 1 < total then some (.pipeWriter (first + i))
    else base.get? m

/-- At the start, the driver has what it began with. -/
theorem keeps_start (base : Descriptors) (first : Nat) : Keeps base first 0 base none :=
  ⟨by simp, nofun, fun _ => (if_neg nofun).symm⟩

/-- There is a read end unless the next stage is the first. -/
theorem Keeps.ne_none_iff (h : Keeps base first i d input) : input ≠ none ↔ 0 < i := by
  rw [ne_eq, h.none_iff, Nat.pos_iff_ne_zero]

/-- A number that is not open is spare. -/
theorem Keeps.of_eq_none (h : Keeps base first i d input) {n : Nat} (hn : d.get? n = none) :
    input ≠ some n ∧ base.get? n = none := by
  have hinput : input ≠ some n := by
    intro hin
    rw [h.table, if_pos hin] at hn
    cases hn
  rw [h.table, if_neg hinput] at hn
  exact ⟨hinput, hn⟩

/-- A driver that lets go of the read end has what it began with. -/
theorem Keeps.get?_closeIf (h : Keeps base first i d input) (m : Nat) :
    (closeIf d input).get? m = base.get? m := by
  rw [Wired.get?_closeIf]
  by_cases hm : some m = input
  · rw [if_pos hm, h.spare m hm.symm]
  · rw [if_neg hm, h.table, if_neg (Ne.symm hm)]

/-- A driver that makes a pipe has both of its ends. -/
theorem Keeps.offers (h : Keeps base first i d input) (hmore : i + 1 < total) :
    Offers base first total i
      ((d.add (.pipeReader (first + i))).2.add (.pipeWriter (first + i))).2 input
      (some ((d.add (.pipeReader (first + i))).1,
        ((d.add (.pipeReader (first + i))).2.add (.pipeWriter (first + i))).1)) := by
  have hreader : d.get? (d.add (.pipeReader (first + i))).1 = none := get?_lowestFree d
  have hwriter : (d.add (.pipeReader (first + i))).2.get?
      ((d.add (.pipeReader (first + i))).2.add (.pipeWriter (first + i))).1 = none :=
    get?_lowestFree _
  rw [get?_add] at hwriter
  have hne : ((d.add (.pipeReader (first + i))).2.add (.pipeWriter (first + i))).1 ≠
      (d.add (.pipeReader (first + i))).1 := by
    intro heq
    rw [if_pos heq] at hwriter
    cases hwriter
  rw [if_neg hne] at hwriter
  refine .more hmore h hreader hwriter hne ?_
  intro m
  rw [get?_add, get?_add]

/-- A driver goes on with the read end of the pipe that it has made. -/
theorem Offers.next {reader writer : Nat}
    (h : Offers base first total i d input (some (reader, writer))) :
    i + 1 < total ∧ Keeps base first (i + 1) (closeIf (d.close writer) input) (some reader) := by
  cases h with
  | @more d₀ _ _ _ _ hmore hkeeps hreader hwriter hne htable =>
    obtain ⟨hin, hspare⟩ := hkeeps.of_eq_none hreader
    refine ⟨hmore, by simp, fun n hn => Option.some.inj hn ▸ hspare, ?_⟩
    intro m
    have hclosed := hkeeps.get?_closeIf m
    rw [Wired.get?_closeIf] at hclosed ⊢
    rw [get?_close, htable]
    by_cases hmr : m = reader
    · rw [hmr, if_neg (Ne.symm hin), if_neg (Ne.symm hne), if_neg (Ne.symm hne), if_pos rfl,
        if_pos rfl]
      rfl
    · rw [if_neg (fun h => hmr (Option.some.inj h).symm), ← hclosed, if_neg hmr]
      by_cases hmw : m = writer
      · rw [hmw, hwriter, if_pos rfl]
      · rw [if_neg hmw, if_neg hmw]

/-- A driver that has made the last process has what it began with once it lets go of the read
end. -/
theorem Offers.done (h : Offers base first total i d input none) :
    i + 1 = total ∧ ∀ m, (closeIf d input).get? m = base.get? m := by
  cases h with
  | last hlast hkeeps => exact ⟨hlast, hkeeps.get?_closeIf⟩

/-- A process that was made from the driver comes to begin its stage with the ends in the places of
its standard streams. -/
theorem Offers.begins (hinput : base.get? 0 ≠ none) (houtput : base.get? 1 ≠ none)
    (h : Offers base first total i d input ends) :
    Begins base first total i (child d input (ends.map Prod.fst) (ends.map Prod.snd)) := by
  intro m
  cases h with
  | last hlast hkeeps =>
    rw [if_neg (show ¬(m = 1 ∧ i + 1 < total) by omega)]
    exact get?_move_spare 0 hkeeps.ne_none_iff hkeeps.spare hinput hkeeps.table m
  | @more d₀ _ _ reader writer hmore hkeeps hreader hwriter hne htable =>
    obtain ⟨hwin, hwspare⟩ := hkeeps.of_eq_none hwriter
    have hw0 : 0 ≠ writer := fun h => hinput (h ▸ hwspare)
    -- Without the read end of its own pipe, the process has the write end besides.
    have hclosed (m : Nat) : (closeIf d (some reader)).get? m =
        if input = some m then some (.pipeReader (first + i - 1))
        else if m = writer then some (.pipeWriter (first + i)) else base.get? m := by
      rw [Wired.get?_closeIf, htable]
      by_cases hmw : m = writer
      · rw [hmw, if_neg (fun h => hne (Option.some.inj h)), if_pos rfl, if_neg hwin, if_pos rfl]
      · rw [if_neg hmw, if_neg hmw, ← hkeeps.table]
        by_cases hmr : m = reader
        · rw [hmr, if_pos rfl, hreader]
        · rw [if_neg (fun h => hmr (Option.some.inj h)), if_neg hmr]
    have hmoved (m : Nat) : (move (closeIf d (some reader)) input 0).get? m =
        if some writer = some m then some (.pipeWriter (first + i))
        else if m = 0 ∧ 0 < i then some (.pipeReader (first + i - 1)) else base.get? m := by
      refine (get?_move_spare 0 hkeeps.ne_none_iff ?_ ?_ hclosed m).trans ?_
      · intro n hn
        have hnw : n ≠ writer := fun h => hwin (hn.trans (congrArg some h))
        rw [if_neg hnw]
        exact hkeeps.spare n hn
      · rw [if_neg hw0]
        exact hinput
      · by_cases hmw : m = writer
        · rw [hmw, if_neg (fun h => hw0 h.1.symm), if_pos rfl, if_pos rfl]
        · rw [if_neg hmw, if_neg (fun h => hmw (Option.some.inj h).symm)]
    have hends : some writer ≠ none ↔ i + 1 < total :=
      iff_of_true (Option.some_ne_none writer) hmore
    have hchild := get?_move_spare 1 hends (fun n hn => ?_) ?_ hmoved m
    · refine hchild.trans ?_
      by_cases hm : m = 0
      · have hone : ¬(m = 1 ∧ i + 1 < total) := by omega
        rw [if_neg hone, if_neg hone]
      · have hzero : ¬(m = 0 ∧ 0 < i) := fun h => hm h.1
        rw [if_neg hzero, if_neg hzero]
    · obtain rfl := Option.some.inj hn
      rw [if_neg (fun h => hw0 h.1.symm)]
      exact hwspare
    · rw [if_neg (by omega)]
      exact houtput

/-- The processes of the stages that are left begin with their ends in place, and the driver is left
with what it began with. -/
theorem Keeps.stages (hinput : base.get? 0 ≠ none) (houtput : base.get? 1 ≠ none)
    (hkeeps : Keeps base first i d input) {h : Host} (hpipes : h.pipes.length = first + i)
    {more : Nat} (hmore : i + more + 1 = total) :
    (∀ j e, (Wired.stages d input h more).children[j]? = some e →
      Begins base first total (i + j) e) ∧
      ∀ m, (Wired.stages d input h more).driver.get? m = base.get? m := by
  induction more generalizing i d input h with
  | zero =>
    have hoffers : Offers base first total i d input none := .last (by omega) hkeeps
    have hbegins := hoffers.begins hinput houtput
    refine ⟨?_, hoffers.done.2⟩
    intro j e he
    rcases j with _ | j
    · obtain rfl := Option.some.inj he
      exact hbegins
    · cases he
  | succ more ih =>
    have hbehind : i + 1 < total := by omega
    have hoffers := hkeeps.offers hbehind
    rw [← hpipes] at hoffers
    simp only [Wired.stages, Host.newPipe]
    -- What matters of the two ends is that the driver offers them.
    generalize d.add (.pipeReader h.pipes.length) = reader at hoffers ⊢
    generalize reader.2.add (.pipeWriter h.pipes.length) = writer at hoffers ⊢
    have hlength : (h.pipes ++ [Pipe.empty]).length = first + (i + 1) := by
      rw [List.length_append, hpipes, List.length_singleton, Nat.add_assoc]
    obtain ⟨hchildren, hdriver⟩ := ih (h := { h with pipes := h.pipes ++ [.empty] })
      hoffers.next.2 hlength (by omega)
    have hbegins := hoffers.begins hinput houtput
    refine ⟨?_, hdriver⟩
    intro j e he
    rcases j with _ | j
    · obtain rfl := Option.some.inj he
      exact hbegins
    · rw [← Nat.add_assoc, Nat.add_right_comm]
      exact hchildren j e he

/-! ## From the standard streams -/

/-- Whether a driver has the standard streams of the session and nothing else, except perhaps for
the read end of the pipe before the one that has the number `first`. -/
structure Drives (first : Nat) (d : Descriptors) (input : Option Nat) : Prop where
  zero : d.get? 0 = some .input
  one : d.get? 1 = some .output
  two : d.get? 2 = some .error
  reader : ∀ n, input = some n → 3 ≤ n ∧ ∃ id, id + 1 = first ∧ d.get? n = some (.pipeReader id)
  others : ∀ n, 3 ≤ n → input ≠ some n → d.get? n = none

/-- A driver that has what it began with drives, if it began with the standard streams. -/
theorem Keeps.drives (h : Keeps .standard first i d input) : Drives (first + i) d input := by
  have hstandard (m : Nat) (hm : m < 3) : d.get? m = Descriptors.standard.get? m := by
    rw [h.table, if_neg]
    intro hin
    have := Descriptors.get?_standard_eq_none_iff.mp (h.spare m hin)
    omega
  refine ⟨hstandard 0 (by omega), hstandard 1 (by omega), hstandard 2 (by omega), ?_, ?_⟩
  · intro n hn
    have hpos := h.ne_none_iff.mp (hn ▸ Option.some_ne_none n)
    refine ⟨Descriptors.get?_standard_eq_none_iff.mp (h.spare n hn), first + i - 1, by omega, ?_⟩
    rw [h.table, if_pos hn]
  · intro n hn hin
    rw [h.table, if_neg hin]
    exact Descriptors.get?_standard_eq_none_iff.mpr hn

/-- Whether descriptors are those of a child with `more` children behind the first one, itself being
the one behind the first by `i`, and the pipes having the numbers from `first` on. -/
structure IsChild (first more i : Nat) (d : Descriptors) : Prop where
  output : d.get? 1 = some (if i = more then .output else .pipeWriter (first + i))
  error : d.get? 2 = some .error
  reader : ∀ id, .pipeReader id ∈ d.handles → id + 1 = first + i

/-- A process that begins with its ends in place is a child of the pipeline. -/
theorem Begins.isChild {more : Nat} (h : Begins .standard first (more + 1) i d) (hi : i ≤ more) :
    IsChild first more i d := by
  refine ⟨?_, ?_, ?_⟩
  · rw [h, if_neg (by omega)]
    by_cases hlast : i = more
    · rw [if_neg (by omega), if_pos hlast]
      rfl
    · rw [if_pos ⟨rfl, by omega⟩, if_neg hlast]
  · rw [h, if_neg (by omega), if_neg (by omega)]
    rfl
  · intro id hid
    obtain ⟨m, hm⟩ := mem_handles.mp hid
    rw [h] at hm
    split at hm
    · next hzero =>
      cases hm
      omega
    split at hm
    · cases hm
    · rcases eq_of_get?_standard hm with h | h | h <;> cases h

/-- Whether descriptors are those of a pipeline that has `more` stages behind the first and is made
on a host: each of its children has its pipes, and the driver reads from none. -/
structure IsPipeline (h : Host) (more : Nat) (w : Wired) : Prop where
  length : w.children.length = more + 1
  child : ∀ i d, w.children[i]? = some d → IsChild h.pipes.length more i d
  driver : ∀ id, .pipeReader id ∉ w.driver.handles
  host : w.host = { h with pipes := h.pipes ++ List.replicate more .empty }

/-- There is a child for each stage, and a pipe behind each but the last. -/
theorem stages_made (d : Descriptors) (input : Option Nat) (h : Host) (more : Nat) :
    (stages d input h more).children.length = more + 1 ∧
      (stages d input h more).host =
        { h with pipes := h.pipes ++ List.replicate more .empty } := by
  induction more generalizing d input h with
  | zero => exact ⟨rfl, by simp [stages]⟩
  | succ more ih =>
    simp only [stages, Host.newPipe]
    obtain ⟨hlength, hhost⟩ := ih (closeIf (((d.add (.pipeReader h.pipes.length)).2.add
      (.pipeWriter h.pipes.length)).2.close ((d.add (.pipeReader h.pipes.length)).2.add
        (.pipeWriter h.pipes.length)).1) input) (some (d.add (.pipeReader h.pipes.length)).1)
      { h with pipes := h.pipes ++ [.empty] }
    refine ⟨by rw [List.length_cons, hlength], ?_⟩
    rw [hhost, List.append_assoc, List.singleton_append, ← List.replicate_succ]

/-- A pipeline that is made from the standard streams gets new pipes, and its children are wired to
them. -/
theorem isPipeline_stages (h : Host) (more : Nat) :
    IsPipeline h more (stages .standard none h more) := by
  obtain ⟨hlength, hhost⟩ := stages_made .standard none h more
  have hopen (m : Nat) (hm : m < 3) : standard.get? m ≠ none :=
    mt get?_standard_eq_none_iff.mp (by omega)
  have hpipes : h.pipes.length = h.pipes.length + 0 := rfl
  have hmore : 0 + more + 1 = more + 1 := by omega
  obtain ⟨hchildren, hdriver⟩ :=
    (keeps_start .standard _).stages (hopen 0 (by omega)) (hopen 1 (by omega)) hpipes hmore
  refine ⟨hlength, ?_, ?_, hhost⟩
  · intro i d hd
    have hlt := (List.getElem?_eq_some_iff.mp hd).1
    have hbegins := hchildren i d hd
    rw [Nat.zero_add] at hbegins
    exact hbegins.isChild (by omega)
  · intro id hid
    obtain ⟨m, hm⟩ := mem_handles.mp hid
    rw [hdriver] at hm
    rcases eq_of_get?_standard hm with h | h | h <;> cases h

end Wired

end CommandShell
