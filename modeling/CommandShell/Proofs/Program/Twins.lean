import Mathlib.Data.List.Forall2
import CommandShell.Proofs.Program.Schedule

/-!
# Taking turns in two runs

Two rows of processes that take the same steps leave the same host: `Twins` says what a pair of
processes and a kind of hosts must satisfy at one step, and it is carried through a turn, a round and
all rounds up to `Twins.run_eq`. What the processes of the second row do besides does not matter, as
long as the steps that are taken in the first row are allowed (`AllSteps`).
-/

namespace CommandShell

/-- Whether a step leads to processes and to a host of some kinds. -/
def Turn.Within (P : Running → Prop) (T : Host → Prop) : Turn → Prop
  | goOn r h => P r ∧ T h
  | waits => True
  | forks r child h => P r ∧ P child ∧ T h
  | ended _ h => T h

/-- What is of some kinds is of wider kinds as well. -/
theorem Turn.Within.imp {P Q : Running → Prop} {T : Host → Prop} {t : Turn} (ht : t.Within P T)
    (hPQ : ∀ r, P r → Q r) : t.Within Q T := by
  cases t with
  | goOn r h => exact ⟨hPQ r ht.1, ht.2⟩
  | waits => trivial
  | forks r child h => exact ⟨hPQ r ht.1, hPQ child ht.2.1, ht.2.2⟩
  | ended e h => exact ht

namespace Schedule

/-- Whether related processes look the same from outside and take the same steps on hosts of some
kind, which lead to processes related to themselves and to such hosts again. -/
structure Twins (ok : Running → Host → Prop) (R : Running → Running → Prop)
    (T : Host → Prop) : Prop where
  held : ∀ {h}, T h → ∀ held, T { h with held := held }
  signals : ∀ {h}, T h → ∀ signals, T { h with signals := signals }
  endings : ∀ {h}, T h → ∀ endings, T { h with endings := endings }
  clock : ∀ {h}, T h → ∀ clock, T { h with clock := clock }
  process : ∀ {r r'}, R r r' → r'.process = r.process
  handles : ∀ {r r'}, R r r' → r'.handles = r.handles
  time : ∀ {r r'}, R r r' → r'.time? = r.time?
  receive : ∀ {r r'}, R r r' → ∀ n, R (r.receive n) (r'.receive n)
  step : ∀ {r r' h}, R r r' → T h → ok r h →
    r'.step h = r.step h ∧ (r.step h).Within (fun r => R r r) T

variable {ok : Running → Host → Prop} {R : Running → Running → Prop} {T : Host → Prop}
  {own : List Handle} {wanted : List Nat}

/-- Whether the processes of some numbers come to their end. -/
def Ends (own : List Handle) (wanted : List Nat) (rs : List Running) (h : Host) : Prop :=
  ∃ n, ∀ number ∈ wanted, ((after own n rs h).2.endings.lookup number).isSome

/-- No more rounds follow when all have ended. -/
theorem rounds_of_done {rs : List Running} {h : Host}
    (hdone : ∀ number ∈ wanted, (h.endings.lookup number).isSome) :
    h.rounds own wanted rs = (rs, h) := by
  rw [Host.rounds]
  exact if_pos (List.all_eq_true.mpr hdone)

/-- A round is followed by the rest of them, as long as one has not ended. -/
theorem rounds_of_not_done {rs : List Running} {h : Host}
    (hdone : ¬∀ number ∈ wanted, (h.endings.lookup number).isSome) :
    h.rounds own wanted rs =
      (next own rs h).2.rounds own wanted (next own rs h).1 := by
  rw [Host.rounds]
  exact if_neg fun hall => hdone (List.all_eq_true.mp hall)

namespace Twins

/-! ## Rows of processes -/

theorem flatMap_handles (hR : Twins ok R T) {rs rs' : List Running} (h : List.Forall₂ R rs rs') :
    rs'.flatMap Running.handles = rs.flatMap Running.handles := by
  induction h with
  | nil => rfl
  | cons h _ ih => rw [List.flatMap_cons, List.flatMap_cons, hR.handles h, ih]

theorem filterMap_time (hR : Twins ok R T) {rs rs' : List Running} (h : List.Forall₂ R rs rs') :
    rs'.filterMap Running.time? = rs.filterMap Running.time? := by
  induction h with
  | nil => rfl
  | cons h _ ih => rw [List.filterMap_cons, List.filterMap_cons, hR.time h, ih]

theorem map_number (hR : Twins ok R T) {rs rs' : List Running} (h : List.Forall₂ R rs rs') :
    (rs'.map fun r => r.process.number) = rs.map fun r => r.process.number := by
  induction h with
  | nil => rfl
  | cons h _ ih => rw [List.map_cons, List.map_cons, hR.process h, ih]

/-- Signals come to related processes alike. -/
theorem rel_deliver (hR : Twins ok R T) {rs rs' : List Running} (h : List.Forall₂ R rs rs')
    (signals : List (Nat × Nat)) :
    List.Forall₂ R (deliver signals rs) (deliver signals rs') := by
  have hall {r r' : Running} (h : R r r') : R
      (signals.foldl (fun r s => if s.1 = r.process.number then r.receive s.2 else r) r)
      (signals.foldl (fun r s => if s.1 = r.process.number then r.receive s.2 else r) r') := by
    induction signals generalizing r r' with
    | nil => exact h
    | cons s signals ih =>
      refine ih ?_
      simp only [hR.process h]
      split
      · exact hR.receive h _
      · exact h
  exact List.forall₂_map_left_iff.mpr (List.forall₂_map_right_iff.mpr (h.imp fun _ _ => hall))

/-! ## Turns and rounds -/

/-- A turn of one of two related processes is the turn of the other. -/
theorem rel_turn (hR : Twins ok R T) {n : Nat} (moved : Bool) {made : List Running}
    {r r' : Running} {h : Host} (hr : R r r') (hT : T h) (hmade : List.Forall₂ R made made)
    (hsteps : ∀ s ∈ turnSteps n r h, ok s.1 s.2) :
    ∃ left left' made' more h', turn n moved made r h = (left, made', more, h') ∧
      turn n moved made r' h = (left', made', more, h') ∧
      List.Forall₂ R (made' ++ left.toList) (made' ++ left'.toList) ∧ T h' := by
  have hstays : List.Forall₂ R (made ++ (some r).toList) (made ++ (some r').toList) :=
    List.rel_append hmade (.cons hr .nil)
  induction n generalizing moved made r r' h with
  | zero => exact ⟨_, _, _, _, _, rfl, rfl, hstays, hT⟩
  | succ n ih =>
    rw [turn, turn]
    rw [turnSteps] at hsteps
    split
    · exact ⟨_, _, _, _, _, rfl, rfl, hstays, hT⟩
    next hsignals =>
    rw [if_neg hsignals] at hsteps
    obtain ⟨hok, hsteps⟩ := List.forall_mem_cons.mp hsteps
    obtain ⟨hstep, hwithin⟩ := hR.step hr hT hok
    -- After the first step, both turns are those of one process.
    rw [hstep]
    generalize r.step h = t at hwithin hsteps
    rcases t with ⟨r₁, h₁⟩ | _ | ⟨r₁, child, h₁⟩ | ⟨e, h₁⟩
    · obtain ⟨hr₁, hT₁⟩ := hwithin
      exact ih true hr₁ hT₁ hmade hsteps (List.rel_append hmade (.cons hr₁ .nil))
    · exact ⟨_, _, _, _, _, rfl, rfl, hstays, hT⟩
    · obtain ⟨hr₁, hchild, hT₁⟩ := hwithin
      have hmade₁ := List.Forall₂.cons hchild hmade
      exact ih true hr₁ (hR.held hT₁ _) hmade₁ hsteps
        (List.rel_append hmade₁ (.cons hr₁ .nil))
    · refine ⟨none, none, made, true, _, rfl, ?_, List.rel_append hmade .nil, ?_⟩
      · rw [hR.process hr]
      · exact hR.endings hwithin _

/-- Rounds of related processes leave related processes and the same host. -/
theorem rel_round (hR : Twins ok R T) (moved : Bool) {gone gone' rs rs' : List Running}
    {h : Host} (hgone : List.Forall₂ R gone gone') (hrs : List.Forall₂ R rs rs') (hT : T h)
    (hsteps : ∀ s ∈ roundSteps own gone rs h, ok s.1 s.2) :
    ∃ left left' more h', round own moved gone rs h = (left, more, h') ∧
      round own moved gone' rs' h = (left', more, h') ∧ List.Forall₂ R left left' ∧ T h' := by
  induction hn : rs.length generalizing moved gone gone' rs rs' h with
  | zero =>
    obtain rfl := List.length_eq_zero_iff.mp hn
    cases hrs
    rw [round, round]
    exact ⟨_, _, _, _, rfl, rfl, List.rel_reverse hgone, hT⟩
  | succ n ih =>
    cases hrs with
    | nil => cases hn
    | @cons r r' rs rs' hr hrs =>
      have hheld : (gone' ++ r' :: rs').flatMap Running.handles =
          (gone ++ r :: rs).flatMap Running.handles :=
        hR.flatMap_handles (List.rel_append hgone (.cons hr hrs))
      rw [round, round, hheld]
      rw [roundSteps] at hsteps
      simp only [List.mem_append] at hsteps
      obtain ⟨left, left', made, more, h₁, hturn, hturn', hleft, hT₁⟩ :=
        hR.rel_turn false hr (hR.held hT _) .nil fun s hs => hsteps s (.inl hs)
      simp only [hturn, hturn'] at hsteps ⊢
      refine ih _ (hR.rel_deliver ?_ _) (hR.rel_deliver hrs _) (hR.signals hT₁ _)
        (fun s hs => hsteps s (.inr hs)) ?_
      · exact List.rel_append hleft hgone
      · simpa using hn

/-! ## All rounds -/

/-- Whether two rows of processes, each on its host, are related, and the hosts are one and of some
kind. -/
structure Agree (R : Running → Running → Prop) (T : Host → Prop)
    (x y : List Running × Host) : Prop where
  processes : List.Forall₂ R x.1 y.1
  host : y.2 = x.2
  kind : T x.2

/-- What is done between two looks at the endings leaves related processes related. -/
theorem agree_next (hR : Twins ok R T) {rs rs' : List Running} {h : Host}
    (hrs : List.Forall₂ R rs rs') (hT : T h) (hsteps : AllSteps ok own rs h) :
    Agree R T (next own rs h) (next own rs' h) := by
  obtain ⟨left, left', more, h₁, hround, hround', hleft, hT₁⟩ :=
    hR.rel_round false .nil hrs hT (hsteps 0)
  rw [next, next, hround, hround']
  simp only [hR.filterMap_time hleft]
  split
  · exact ⟨hleft, rfl, hT₁⟩
  split
  · exact ⟨hleft, rfl, hR.clock hT₁ _⟩
  · refine ⟨?_, rfl, hT₁⟩
    exact List.forall₂_map_left_iff.mpr
      (List.forall₂_map_right_iff.mpr (hleft.imp fun _ _ hr => hR.receive hr _))

/-- After any number of rounds, related processes are still related. -/
theorem agree_after (hR : Twins ok R T) {rs rs' : List Running} {h : Host}
    (hrs : List.Forall₂ R rs rs') (hT : T h) (hsteps : AllSteps ok own rs h) (n : Nat) :
    Agree R T (after own n rs h) (after own n rs' h) := by
  induction n generalizing rs rs' h with
  | zero => exact ⟨hrs, rfl, hT⟩
  | succ n ih =>
    obtain ⟨hleft, hhost, hT₁⟩ := hR.agree_next hrs hT hsteps
    have hfirst (rs : List Running) (h : Host) : after own (n + 1) rs h =
        after own n (next own rs h).1 (next own rs h).2 := rfl
    rw [hfirst, hfirst, hhost]
    exact ih hleft hT₁ hsteps.next

/-- Related processes come to their end, or do not, alike. -/
theorem ends_iff (hR : Twins ok R T) {rs rs' : List Running} {h : Host}
    (hrs : List.Forall₂ R rs rs') (hT : T h) (hsteps : AllSteps ok own rs h) :
    Ends own wanted rs' h ↔ Ends own wanted rs h := by
  refine exists_congr fun n => ?_
  rw [(hR.agree_after hrs hT hsteps n).host]

/-- Related processes come to their end alike. -/
theorem agree_rounds (hR : Twins ok R T) {rs rs' : List Running} {h : Host}
    (hrs : List.Forall₂ R rs rs') (hT : T h) (hsteps : AllSteps ok own rs h)
    (hends : Ends own wanted rs h) :
    Agree R T (h.rounds own wanted rs) (h.rounds own wanted rs') ∧
      AllSteps ok own (h.rounds own wanted rs).1 (h.rounds own wanted rs).2 := by
  obtain ⟨n, hdone⟩ := hends
  induction n generalizing rs rs' h with
  | zero =>
    have hnow : ∀ number ∈ wanted, (h.endings.lookup number).isSome := hdone
    rw [rounds_of_done hnow, rounds_of_done hnow]
    exact ⟨⟨hrs, rfl, hT⟩, hsteps⟩
  | succ n ih =>
    by_cases hnow : ∀ number ∈ wanted, (h.endings.lookup number).isSome
    · rw [rounds_of_done hnow, rounds_of_done hnow]
      exact ⟨⟨hrs, rfl, hT⟩, hsteps⟩
    · rw [rounds_of_not_done hnow, rounds_of_not_done hnow]
      obtain ⟨hleft, hhost, hT₁⟩ := hR.agree_next hrs hT hsteps
      rw [hhost]
      exact ih hleft hT₁ hsteps.next hdone

/-- Related processes that nobody waits for leave the same. -/
theorem remaining_eq (hR : Twins ok R T) (limit : Nat) {rs rs' : List Running} {h : Host}
    (hrs : List.Forall₂ R rs rs') (hT : T h) (hsteps : AllSteps ok own rs h) :
    remaining own limit rs' h = remaining own limit rs h ∧ T (remaining own limit rs h) := by
  induction limit generalizing rs rs' h with
  | zero => exact ⟨rfl, hT⟩
  | succ limit ih =>
    have hempty : rs'.isEmpty = rs.isEmpty := by
      cases hrs <;> rfl
    rw [remaining, remaining, hempty]
    split
    · exact ⟨rfl, hT⟩
    obtain ⟨left, left', more, h₁, hround, hround', hleft, hT₁⟩ :=
      hR.rel_round false .nil hrs hT (hsteps 0)
    simp only [hround, hround']
    split
    · next hmoved =>
      have hnext : next own rs h = (left, h₁) := by
        rw [next, hround]
        exact if_pos hmoved
      have hrest := hsteps.next
      rw [hnext] at hrest
      exact ih hleft hT₁ hrest
    · exact ⟨rfl, hT₁⟩

/-- Running related processes to their end leaves the same host, of the kind that every step
leaves. -/
theorem run_eq (hR : Twins ok R T) {rs rs' : List Running} {h : Host}
    (hrs : List.Forall₂ R rs rs') (hT : T h) (hsteps : AllSteps ok own rs h)
    (hends : Ends own wanted rs h) :
    run own wanted rs' h = run own wanted rs h ∧ T (run own wanted rs h) := by
  obtain ⟨⟨hleft, hhost, hT₁⟩, hrest⟩ := hR.agree_rounds hrs hT hsteps hends
  obtain ⟨heq, hT₂⟩ := hR.remaining_eq remainingLimit hleft hT₁ hrest
  rw [run, run]
  simp only [hhost, heq]
  exact ⟨trivial, hR.held hT₂ _⟩

end Twins

end Schedule

end CommandShell
