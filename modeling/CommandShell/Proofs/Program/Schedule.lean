import Mathlib.Logic.Function.Iterate
import Mathlib.Logic.Relation
import Mathlib.Order.OrderIsoNat
import CommandShell.Program.Schedule

/-!
# What taking turns preserves

`turnSteps` and `roundSteps` list the steps that processes take in their turns, and `Moves` are the
steps that they can take in any order. What every step of one process preserves is preserved in any
order, and there is an end of the steps if each makes something smaller. The turns are one of the
orders, and go on until all processes have ended if they cannot all wait: `rounds_of_preserves` says
so.
-/

namespace CommandShell.Schedule

/-! ## Steps -/

/-- The steps of a turn, each as the process that takes it and the host that it takes it on. -/
def turnSteps : Nat → Running → Host → List (Running × Host)
  | 0, _, _ => []
  | steps + 1, r, h =>
    if !h.signals.isEmpty then []
    else
      (r, h) :: match r.step h with
        | .goOn r h => turnSteps steps r h
        | .forks r child h =>
          turnSteps steps r { h with held := r.handles ++ child.handles ++ h.held }
        | .waits | .ended .. => []

/-- The steps of a round. -/
def roundSteps (own : List Handle) (gone : List Running) : List Running → Host →
    List (Running × Host)
  | [], _ => []
  | r :: rs, h =>
    let held := own ++ (gone ++ r :: rs).flatMap Running.handles
    let steps := turnSteps turnLength r { h with held := held }
    let (r, made, _, h) := turn turnLength false [] r { h with held := held }
    let gone := made ++ r.toList ++ gone
    let signals := h.signals
    steps ++ roundSteps own (deliver signals gone) (rs.map fun r =>
      signals.foldl (fun r s => if s.1 = r.process.number then r.receive s.2 else r) r)
      { h with signals := [] }
termination_by rs => rs.length

/-- The processes and the host after some rounds. -/
def after (own : List Handle) (n : Nat) (rs : List Running) (h : Host) : List Running × Host :=
  (fun s => next own s.1 s.2)^[n] (rs, h)

/-- Whether all steps that are taken in all rounds have a property. -/
def AllSteps (ok : Running → Host → Prop) (own : List Handle) (rs : List Running) (h : Host) :
    Prop :=
  ∀ n, ∀ s ∈ roundSteps own [] (after own n rs h).1 (after own n rs h).2, ok s.1 s.2

variable {own : List Handle} {wanted : List Nat} {ok : Running → Host → Prop}

theorem AllSteps.next {rs : List Running} {h : Host} (hs : AllSteps ok own rs h) :
    AllSteps ok own (next own rs h).1 (next own rs h).2 :=
  fun n => hs (n + 1)

/-- Nothing happens when there are no processes. -/
theorem next_nil (own : List Handle) (h : Host) : next own [] h = ([], h) := by
  rw [next, round]
  rfl

/-- When all processes end in the first round, its steps are all that are taken. -/
theorem allSteps_of_next {rs : List Running} {h : Host}
    (hsteps : ∀ s ∈ roundSteps own [] rs h, ok s.1 s.2) (hnext : (next own rs h).1 = []) :
    AllSteps ok own rs h := by
  intro n
  rcases n with _ | n
  · exact hsteps
  have hafter : after own (n + 1) rs h = next own rs h := by
    rw [after, Function.iterate_succ_apply]
    refine Function.iterate_fixed ?_ n
    rw [hnext, next_nil]
    exact Prod.ext hnext.symm rfl
  intro s hs
  rw [hafter, hnext, roundSteps] at hs
  cases hs

/-! ## Invariants -/

/-- Whether something is preserved by the steps of processes that make no others, each step making
the processes smaller, and lets processes that hold nothing but their handles and `own` not all
wait. -/
structure Preserves {α : Type} [Preorder α] (ok : Running → Host → Prop) (own : List Handle)
    (size : List Running → α) (p : List Running → Host → Prop) : Prop where
  held : ∀ {rs h}, p rs h → ∀ held, p rs { h with held := held }
  perm : ∀ {rs rs' h}, rs.Perm rs' → p rs h → p rs' h
  size_perm : ∀ {rs rs'}, rs.Perm rs' → size rs = size rs'
  signals : ∀ {rs h}, p rs h → h.signals = []
  goOn : ∀ {r rs h r' h'}, p (r :: rs) h → ok r h → r.step h = .goOn r' h' →
    p (r' :: rs) h' ∧ size (r' :: rs) < size (r :: rs)
  ended : ∀ {r rs h e h'}, p (r :: rs) h → ok r h → r.step h = .ended e h' →
    p rs (h'.noteEnding r.process.number e) ∧ size rs < size (r :: rs)
  forks : ∀ {r rs h r' child h'}, p (r :: rs) h → r.step h ≠ .forks r' child h'
  waits : ∀ {rs h}, p rs h → (∀ r ∈ rs, ∃ held,
    (∀ x ∈ held, x ∈ own ∨ ∃ r' ∈ rs, x ∈ r'.handles) ∧
      r.step { h with held := held } = .waits) → rs = []

/-! ## Steps in any order -/

/-- One step of any one of the processes, whatever it knows of the handles that the others hold, or
the signals come. Time only passes where no process can take a step. -/
inductive Moves (ok : Running → Host → Prop) : List Running × Host → List Running × Host → Prop
  | goOn (before after : List Running) (held : List Handle) {r r' : Running} (h h' : Host) :
      ok r { h with held := held } → r.step { h with held := held } = .goOn r' h' →
        Moves ok (before ++ r :: after, h) (before ++ r' :: after, { h' with held := h.held })
  | forks (before after : List Running) (held : List Handle) {r r' child : Running}
      (h h' : Host) :
      ok r { h with held := held } → r.step { h with held := held } = .forks r' child h' →
        Moves ok (before ++ r :: after, h)
          (before ++ r' :: child :: after, { h' with held := h.held })
  | ends (before after : List Running) (held : List Handle) {r : Running} {e : Ending}
      (h h' : Host) :
      ok r { h with held := held } → r.step { h with held := held } = .ended e h' →
        Moves ok (before ++ r :: after, h)
          (before ++ after, { h'.noteEnding r.process.number e with held := h.held })
  | delivers (rs : List Running) (h : Host) :
      h.signals ≠ [] → Moves ok (rs, h) (deliver h.signals rs, { h with signals := [] })

/-- Whether processes can come to something, whatever the order of their steps. -/
def Reaches (ok : Running → Host → Prop) : List Running × Host → List Running × Host → Prop :=
  Relation.ReflTransGen (Moves ok)

/-- The handles that are noted to be held make no difference to what processes can do. -/
theorem Moves.withHeld {rs rs' : List Running} {h h' : Host} (hm : Moves ok (rs, h) (rs', h'))
    (held : List Handle) : Moves ok (rs, { h with held := held }) (rs', { h' with held := held }) := by
  cases hm with
  | goOn before after noted _ h' hok hstep =>
    exact .goOn before after noted { h with held := held } h' hok hstep
  | forks before after noted _ h' hok hstep =>
    exact .forks before after noted { h with held := held } h' hok hstep
  | ends before after noted _ h' hok hstep =>
    exact .ends before after noted { h with held := held } h' hok hstep
  | delivers _ _ hsignals => exact .delivers rs { h with held := held } hsignals

theorem Reaches.withHeld {x y : List Running × Host} (hxy : Reaches ok x y) (held : List Handle) :
    Reaches ok (x.1, { x.2 with held := held }) (y.1, { y.2 with held := held }) := by
  induction hxy with
  | refl => exact .refl
  | tail _ hm ih => exact ih.tail (hm.withHeld held)

theorem transGen_withHeld {x y : List Running × Host} (hxy : Relation.TransGen (Moves ok) x y)
    (held : List Handle) :
    Relation.TransGen (Moves ok) (x.1, { x.2 with held := held })
      (y.1, { y.2 with held := held }) := by
  induction hxy with
  | single hm => exact .single (hm.withHeld held)
  | tail _ hm ih => exact ih.tail (hm.withHeld held)

section

variable {α : Type} [Preorder α] {size : List Running → α} {p : List Running → Host → Prop}

/-- A step in any order preserves what the steps of one process preserve. -/
theorem Moves.preserves {x y : List Running × Host} (hm : Moves ok x y)
    (hp : Preserves ok own size p) (hx : p x.1 x.2) : p y.1 y.2 ∧ size y.1 < size x.1 := by
  cases hm with
  | @goOn before after held r r' h h' hok hstep =>
    have hheld := hp.perm List.perm_middle (hp.held hx held)
    obtain ⟨hr', hlt⟩ := hp.goOn hheld hok hstep
    refine ⟨hp.perm List.perm_middle.symm (hp.held hr' h.held), ?_⟩
    rwa [hp.size_perm List.perm_middle, hp.size_perm (List.perm_middle (a := r))]
  | @forks before after held r r' child h h' hok hstep =>
    exact absurd hstep (hp.forks (hp.perm List.perm_middle (hp.held hx held)))
  | @ends before after held r e h h' hok hstep =>
    have hheld := hp.perm List.perm_middle (hp.held hx held)
    obtain ⟨hrest, hlt⟩ := hp.ended hheld hok hstep
    exact ⟨hp.held hrest h.held, by rwa [hp.size_perm List.perm_middle]⟩
  | delivers rs h hsignals => exact absurd (hp.signals hx) hsignals

/-- Steps in any order preserve what the steps of one process preserve. -/
theorem Reaches.preserves {x y : List Running × Host} (hxy : Reaches ok x y)
    (hp : Preserves ok own size p) (hx : p x.1 x.2) : p y.1 y.2 := by
  induction hxy with
  | refl => exact hx
  | tail _ hm ih => exact (hm.preserves hp ih).1

/-- Some steps make the processes smaller. -/
theorem size_lt_of_transGen {x y : List Running × Host} (hxy : Relation.TransGen (Moves ok) x y)
    (hp : Preserves ok own size p) (hx : p x.1 x.2) : size y.1 < size x.1 := by
  induction hxy with
  | single hm => exact (hm.preserves hp hx).2
  | tail hxy hm ih =>
    exact (hm.preserves hp (Reaches.preserves hxy.to_reflTransGen hp hx)).2.trans ih

/-- There is an end of the steps in any order. -/
theorem not_forall_moves [WellFoundedLT α] (hp : Preserves ok own size p)
    {x : ℕ → List Running × Host} (hx : p (x 0).1 (x 0).2) :
    ¬∀ n, Moves ok (x n) (x (n + 1)) := by
  intro hmoves
  have hall (n : ℕ) : p (x n).1 (x n).2 := by
    induction n with
    | zero => exact hx
    | succ n ih => exact ((hmoves n).preserves hp ih).1
  have hlt (n : ℕ) : size (x (n + 1)).1 < size (x n).1 := ((hmoves n).preserves hp (hall n)).2
  exact not_strictAnti_of_wellFoundedLT (fun n => size (x n).1) (strictAnti_nat_of_succ_lt hlt)

/-- In whatever order the steps were taken, some process does not wait, unless there are none. -/
theorem Reaches.exists_ne_waits {x : List Running × Host} {rs : List Running} {h : Host}
    (hxy : Reaches ok x (rs, h)) (hp : Preserves ok own size p) (hx : p x.1 x.2) (hne : rs ≠ []) :
    ∃ r ∈ rs, r.step { h with held := own ++ rs.flatMap Running.handles } ≠ .waits := by
  by_contra! hall
  refine hne (hp.waits (hxy.preserves hp hx) fun r hr => ⟨_, ?_, hall r hr⟩)
  intro handle hhandle
  exact (List.mem_append.mp hhandle).imp_right List.mem_flatMap.mp

/-! ## Rounds -/

/-- In a turn, a process either waits at once, or takes some steps. -/
theorem turn_of_preserves (hp : Preserves ok own size p) {n : Nat} {r : Running}
    {before after : List Running} {h : Host} (hr : p (before ++ r :: after) h)
    (hsteps : ∀ s ∈ turnSteps n r h, ok s.1 s.2) {moved moved' : Bool} {r' : Option Running}
    {made : List Running} {h' : Host} (ht : turn n moved [] r h = (r', made, moved', h')) :
    made = [] ∧
      ((r' = some r ∧ h' = h ∧ moved' = moved ∧ (n ≠ 0 → r.step h = .waits)) ∨
        (moved' = true ∧ Relation.TransGen (Moves ok) (before ++ r :: after, h)
          (before ++ (r'.toList ++ after), { h' with held := h.held }))) := by
  induction n generalizing r h moved with
  | zero =>
    cases ht
    exact ⟨rfl, .inl ⟨rfl, rfl, rfl, fun h => absurd rfl h⟩⟩
  | succ n ih =>
    have hsignals : (!h.signals.isEmpty) = false := by simp [hp.signals hr]
    rw [turn, hsignals] at ht
    rw [turnSteps, hsignals] at hsteps
    simp only [Bool.false_eq_true, ↓reduceIte, List.mem_cons, forall_eq_or_imp] at ht hsteps
    obtain ⟨hok, hsteps⟩ := hsteps
    -- A turn that goes on moves even when it waits afterwards.
    rcases hstep : r.step h with ⟨r₁, h₁⟩ | _ | ⟨r₁, child, h₁⟩ | ⟨e, h₁⟩
    · rw [hstep] at ht hsteps
      have hmove : Moves ok (before ++ r :: after, h)
          (before ++ r₁ :: after, { h₁ with held := h.held }) :=
        .goOn before after h.held h h₁ hok hstep
      have hr₁ := hp.held (hmove.preserves hp hr).1 h₁.held
      obtain ⟨hmade, ⟨rfl, rfl, hmoved, -⟩ | ⟨hmoved, hmoves⟩⟩ := ih hr₁ hsteps ht
      · exact ⟨hmade, .inr ⟨hmoved, .single hmove⟩⟩
      · refine ⟨hmade, .inr ⟨hmoved, .head hmove ?_⟩⟩
        exact transGen_withHeld hmoves h.held
    · rw [hstep] at ht
      cases ht
      exact ⟨rfl, .inl ⟨rfl, rfl, rfl, fun _ => rfl⟩⟩
    · exact absurd hstep (hp.forks (hp.perm List.perm_middle hr))
    · rw [hstep] at ht
      cases ht
      exact ⟨rfl, .inr ⟨rfl, .single (.ends before after h.held h h₁ hok hstep)⟩⟩

/-- Without signals and new processes, a round goes on with the process as its turn left it. -/
theorem round_cons (moved : Bool) {more : Bool} {gone rs : List Running} {r : Running}
    {r' : Option Running} {h h' : Host} (hsignals : h'.signals = [])
    (ht : turn turnLength false [] r
      { h with held := own ++ (gone ++ r :: rs).flatMap Running.handles } = (r', [], more, h')) :
    round own moved gone (r :: rs) h = round own (moved || more) (r'.toList ++ gone) rs h' ∧
      roundSteps own gone (r :: rs) h =
        turnSteps turnLength r
          { h with held := own ++ (gone ++ r :: rs).flatMap Running.handles } ++
            roundSteps own (r'.toList ++ gone) rs h' := by
  have hh : { h' with signals := [] } = h' := by rw [← hsignals]
  rw [round, roundSteps, ht]
  simp only [hsignals, deliver, List.foldl_nil, List.map_id', List.nil_append, hh, and_self]

/-- When the only process ends in its first turn, none is left for the next. -/
theorem next_of_turn {r : Running} {h h' : Host} (hsignals : h'.signals = [])
    (ht : turn turnLength false [] r { h with held := own ++ [r].flatMap Running.handles } =
      (none, [], true, h')) : next own [r] h = ([], h') := by
  rw [next, (round_cons false hsignals ht).1, round]
  rfl

/-- In a round, either all processes wait, or some take some steps. -/
theorem round_of_preserves (hp : Preserves ok own size p) {gone rs : List Running} {h : Host}
    (hr : p (gone.reverse ++ rs) h) (hsteps : ∀ s ∈ roundSteps own gone rs h, ok s.1 s.2)
    {moved moved' : Bool} {rs' : List Running} {h' : Host}
    (ht : round own moved gone rs h = (rs', moved', h')) :
    (rs' = gone.reverse ++ rs ∧ moved' = moved ∧ { h' with held := h.held } = h ∧
        ∀ r ∈ rs, ∃ held, (∀ x ∈ held, x ∈ own ∨ ∃ r' ∈ gone.reverse ++ rs, x ∈ r'.handles) ∧
          r.step { h with held := held } = .waits) ∨
      (moved' = true ∧ Relation.TransGen (Moves ok) (gone.reverse ++ rs, h)
        (rs', { h' with held := h.held })) := by
  induction rs generalizing gone h moved with
  | nil =>
    rw [round] at ht
    cases ht
    rw [List.append_nil]
    exact .inl ⟨rfl, rfl, rfl, fun r hmem => absurd hmem List.not_mem_nil⟩
  | cons r rs ih =>
    rcases hturn : turn turnLength false [] r
      { h with held := own ++ (gone ++ r :: rs).flatMap Running.handles }
      with ⟨r', made, more, h₁⟩
    have hheld := hp.held hr (own ++ (gone ++ r :: rs).flatMap Running.handles)
    have hturnSteps : ∀ s ∈ turnSteps turnLength r
        { h with held := own ++ (gone ++ r :: rs).flatMap Running.handles }, ok s.1 s.2 := by
      intro s hs
      rw [roundSteps] at hsteps
      exact hsteps s (List.mem_append_left _ hs)
    obtain ⟨rfl, hcase⟩ := turn_of_preserves hp hheld hturnSteps hturn
    -- What is left of the process takes its place.
    have hlist : gone.reverse ++ (r'.toList ++ rs) = (r'.toList ++ gone).reverse ++ rs := by
      cases r' <;> simp
    have hafter : p ((r'.toList ++ gone).reverse ++ rs) h₁ := by
      rcases hcase with ⟨rfl, rfl, -⟩ | ⟨-, hmoves⟩
      · rwa [← hlist]
      · rw [← hlist]
        exact hp.held (Reaches.preserves hmoves.to_reflTransGen hp hheld) h₁.held
    obtain ⟨hround, hroundSteps⟩ := round_cons moved (hp.signals hafter) hturn
    have hrest : ∀ s ∈ roundSteps own (r'.toList ++ gone) rs h₁, ok s.1 s.2 := by
      intro s hs
      rw [hroundSteps] at hsteps
      exact hsteps s (List.mem_append_right _ hs)
    rw [hround] at ht
    have hih := ih hafter hrest ht
    rcases hcase with ⟨rfl, rfl, rfl, hwaits⟩ | ⟨rfl, hmoves⟩
    · rw [← hlist, Bool.or_false] at hih
      rcases hih with ⟨hrs', hmoved, hh', hwaits'⟩ | ⟨hmoved, hmoves⟩
      · refine .inl ⟨hrs', hmoved, congrArg (fun g : Host => { g with held := h.held }) hh', ?_⟩
        refine List.forall_mem_cons.mpr ⟨⟨_, ?_, hwaits (by decide)⟩, hwaits'⟩
        intro x hx
        rcases List.mem_append.mp hx with hx | hx
        · exact .inl hx
        · obtain ⟨r', hr', hx⟩ := List.mem_flatMap.mp hx
          exact .inr ⟨r', by simpa using hr', hx⟩
      · exact .inr ⟨hmoved, transGen_withHeld hmoves h.held⟩
    · have hfirst := transGen_withHeld hmoves h.held
      rw [hlist] at hfirst
      rw [Bool.or_true] at hih
      right
      rcases hih with ⟨rfl, hmoved, hh', -⟩ | ⟨hmoved, hrest⟩
      · have hlast := congrArg (fun g : Host => { g with held := h.held }) hh'
        simp only at hlast
        rw [hlast]
        exact ⟨hmoved, hfirst⟩
      · exact ⟨hmoved, hfirst.trans (transGen_withHeld hrest h.held)⟩

/-- In a round, the processes take some steps, unless there are none. -/
theorem next_of_preserves (hp : Preserves ok own size p) {rs : List Running} {h : Host}
    (hr : p rs h) (hsteps : ∀ s ∈ roundSteps own [] rs h, ok s.1 s.2) (hne : rs ≠ []) :
    Relation.TransGen (Moves ok) (rs, h)
      ((next own rs h).1, { (next own rs h).2 with held := h.held }) := by
  rcases hround : round own false [] rs h with ⟨rs', moved, h'⟩
  obtain ⟨-, -, -, hwaits⟩ | ⟨rfl, hmoves⟩ :=
    round_of_preserves hp (show p ([].reverse ++ rs) h from hr) hsteps hround
  · exact absurd (hp.waits hr hwaits) hne
  · rw [next, hround]
    exact hmoves

/-- The rounds come to an end, and take the steps in one of the possible orders. -/
theorem rounds_of_preserves [WellFoundedLT α] (hp : Preserves ok own size p)
    (hdone : ∀ {rs h}, p rs h →
      ((wanted.all fun n => (h.endings.lookup n).isSome) = true ↔ rs = []))
    {rs : List Running} {h : Host} (hr : p rs h) (hsteps : AllSteps ok own rs h) :
    ∃ h', h.rounds own wanted rs = ([], h') ∧
      Reaches ok (rs, h) ([], { h' with held := h.held }) := by
  induction hs : size rs using WellFoundedLT.induction generalizing rs h with
  | ind s ih =>
    subst hs
    rw [Host.rounds]
    by_cases hne : rs = []
    · subst hne
      rw [if_pos ((hdone hr).mpr rfl)]
      exact ⟨h, rfl, .refl⟩
    · have hmoves := next_of_preserves hp hr (hsteps 0) hne
      have hr' := Reaches.preserves hmoves.to_reflTransGen hp hr
      have hlt := size_lt_of_transGen hmoves hp hr
      rw [if_neg (fun hall => hne ((hdone hr).mp hall))]
      obtain ⟨h', hrounds, hreaches⟩ := ih _ hlt (hp.held hr' _) hsteps.next rfl
      exact ⟨h', hrounds, hmoves.to_reflTransGen.trans (hreaches.withHeld h.held)⟩

end

end CommandShell.Schedule
