import Mathlib.Data.Prod.Lex
import Mathlib.Algebra.Order.BigOperators.Group.List
import Mathlib.Algebra.Order.Group.Nat
import Mathlib.Data.List.Nodup
import CommandShell.Pipeline.Run
import CommandShell.Proofs.Program.Schedule
import CommandShell.Proofs.Pipeline.Writing

/-!
# The course of a pipeline

Each process of a pipeline has come as far as its stage would have come at some time, had it been
alone. `Course` says so of all processes at once, and is kept by each step that one of them takes:
what the process does shows in the files that its stage touches, and the others do not notice.
-/

namespace CommandShell.Pipeline

/-- A stage of a pipeline, with the process that it starts as. -/
structure Task where
  stage : Stage
  process : Process

namespace Task

/-- The number of the process. -/
def number (t : Task) : Nat := t.process.number

/-- Where standard output goes. -/
def out (t : Task) : Handle := (t.process.descriptors.get? 1).getD .output

end Task

/-- The status that a stage ends with when it is alone, and the host that it leaves. -/
def alone (sh : Shell) (registry : Registry) (stage : Stage) : Status × Host :=
  ((sh.runStage registry stage).1, (sh.runStage registry stage).2.host)

/-- Whether tasks are those of a pipeline: their processes are like that of the shell, each sends
its output to the next one or, if it is the last, to the standard output of the session, they run no
programs, and they touch different files. -/
structure Arranged (sh : Shell) (registry : Registry) (pipes : Nat) (tasks : List Task) : Prop where
  process : ∀ t ∈ tasks, sh.process.Twins sh.process.filter t.out t.process
  out : ∀ t ∈ tasks, t.out = .output ∨ ∃ id, t.out = .pipeWriter id ∧ id < pipes ∧
    ∀ t' ∈ tasks, .pipeReader id ∈ t'.process.descriptors.handles → t'.number = t.number + 1
  last : ∀ t ∈ tasks, ∀ t' ∈ tasks, t.out = .output → t'.out = .output → t = t'
  unique : ∀ t ∈ tasks, ∀ t' ∈ tasks, t.number = t'.number → t = t'
  noProgram : ∀ t ∈ tasks, sh.RunsNoProgram registry t.stage
  disjoint : ∀ t ∈ tasks, ∀ t' ∈ tasks, t ≠ t' →
    ∀ l ∈ sh.touched registry t.stage, l ∉ sh.touched registry t'.stage

/-- A record of who opened each open file, and of what each told on standard error in the order in
which it was told. -/
structure Ledger where
  owners : List Nat
  told : List (Nat × Bytes)

namespace Ledger

/-- What one told. -/
def toldBy (ledger : Ledger) (number : Nat) : Bytes :=
  (ledger.told.filter (·.1 = number)).flatMap Prod.snd

/-- Records what one told, and that it opened some files. -/
def add (ledger : Ledger) (number opened : Nat) (told : Bytes) : Ledger :=
  ⟨ledger.owners ++ List.replicate opened number, ledger.told ++ [(number, told)]⟩

theorem toldBy_add (ledger : Ledger) (number opened : Nat) (told : Bytes) (n : Nat) :
    (ledger.add number opened told).toldBy n =
      ledger.toldBy n ++ if number = n then told else [] := by
  simp only [toldBy, add, List.filter_append, List.flatMap_append]
  by_cases h : number = n
  · simp [h]
  · simp [h]

theorem getElem?_owners_add {ledger : Ledger} {id owner : Nat}
    (h : ledger.owners[id]? = some owner) (number opened : Nat) (told : Bytes) :
    (ledger.add number opened told).owners[id]? = some owner := by
  obtain ⟨hlt, -⟩ := List.getElem?_eq_some_iff.mp h
  rw [add, List.getElem?_append_left hlt, h]

theorem getElem?_owners_add_new (ledger : Ledger) (number : Nat) {opened k : Nat} (told : Bytes)
    (hk : k < opened) :
    (ledger.add number opened told).owners[ledger.owners.length + k]? = some number := by
  rw [add, List.getElem?_append_right (by omega), Nat.add_sub_cancel_left,
    List.getElem?_replicate, if_pos hk]

end Ledger

variable (sh : Shell) (registry : Registry)

/-! ## How far a task has come -/

/-- Whether the stage of a task, had it been alone, would have left the host as `g` when things are
as they are. -/
structure Sees (t : Task) (ledger : Ledger) (g h : Host) : Prop where
  akin : g.files.CloselyAkin h.files
  files : ∀ l ∈ sh.touched registry t.stage, g.files.get? l = h.files.get? l
  acts : ∃ shown, Host.Acts (· ∈ sh.touched registry t.stage) (sh.host.openFiles.length ≤ ·)
    (ledger.toldBy t.number) shown sh.host g
  output : t.out = .output → g.output.bytes = h.output.bytes

/-- What the process of a task can be doing when its stage, had it been alone, would have left the
host as it is given. -/
inductive Phase (t : Task) (owners : List Nat) (h : Host) : Running → Host → Prop
  /-- It has not begun. -/
  | idle : Phase t owners h (child sh registry t.stage t.process) sh.host
  /-- It writes what the stage has to write, on open files of its own. -/
  | writing {w : Writer} {b n : Nat} {p : Process} {error : Option Handle} {es : List Emission}
      {status : Status} {g : Host} :
      w.process = t.process →
      w.Follows (· ∈ sh.touched registry t.stage) sh.host.openFiles.length b n t.out p error es
        status g h →
      Emission.outcome p error es status g = alone sh registry t.stage →
      (∀ k < n, owners[b + k]? = some t.number) → Phase t owners h (.writer w) g
  /-- It is about to end as the stage did. -/
  | ending : Phase t owners h
      (.ending t.process (.exited (alone sh registry t.stage).1.lowByte.toNat))
      (alone sh registry t.stage).2

/-- Whether a task has come as far as its stage, had it been alone and left the host as `g`: its
process is under way, or it has ended. -/
def IsAt (t : Task) (ledger : Ledger) (live : List Running) (h g : Host) : Prop :=
  (∃ r ∈ live, r.process.number = t.number ∧ Phase sh registry t ledger.owners h r g) ∨
    ((∀ r ∈ live, r.process.number ≠ t.number) ∧ g = (alone sh registry t.stage).2 ∧
      h.endings.lookup t.number =
        some (.exited (alone sh registry t.stage).1.lowByte.toNat))

/-- How far a pipeline has come, by the processes that have not ended. -/
structure Course (pipes : Nat) (tasks : List Task) (ledger : Ledger) (live : List Running)
    (h : Host) : Prop where
  owners : ledger.owners.length = h.openFiles.length
  error : h.error.bytes = sh.host.error.bytes ++ ledger.told.flatMap Prod.snd
  settled : h.IsSettled
  numbered : ∀ t ∈ tasks, t.number < h.nextProcess
  labels : ∀ e ∈ ledger.told, ∃ t ∈ tasks, e.1 = t.number
  pipes : h.pipes.length = pipes
  akin : sh.host.files.CloselyAkin h.files
  untouched : ∀ l, (∀ t ∈ tasks, l ∉ sh.touched registry t.stage) →
    h.files.get? l = sh.host.files.get? l
  numbers : (live.map fun r => r.process.number).Nodup
  known : ∀ r ∈ live, ∃ t ∈ tasks, r.process.number = t.number
  alive : ∀ r ∈ live, h.endings.lookup r.process.number = none
  tasks : ∀ t ∈ tasks, ∃ g, Sees sh registry t ledger g h ∧ IsAt sh registry t ledger live h g

variable {sh registry}

/-- What a task has done shows in files and on standard output only. -/
theorem Sees.host {t : Task} {ledger : Ledger} {g h h' : Host}
    (hsees : Sees sh registry t ledger g h) (hfiles : h'.files = h.files)
    (houtput : h'.output = h.output) : Sees sh registry t ledger g h' := by
  refine ⟨?_, ?_, hsees.acts, ?_⟩
  · rw [hfiles]
    exact hsees.akin
  · rw [hfiles]
    exact hsees.files
  · rw [houtput]
    exact hsees.output

/-- How far a process has come shows in files and open files only. -/
theorem Phase.host {t : Task} {owners : List Nat} {h h' g : Host} {r : Running}
    (hphase : Phase sh registry t owners h r g) (hfiles : h'.files = h.files)
    (hopen : h'.openFiles = h.openFiles) : Phase sh registry t owners h' r g := by
  cases hphase with
  | idle => exact .idle
  | ending => exact .ending
  | writing hprocess hf hout hmine =>
    have hseen := hf.seen.of_eq rfl rfl hfiles hopen
    exact .writing hprocess { hf with seen := hseen } hout hmine

/-! ## Steps -/

/-- Whether the process of a task may have made a host out of another, opening some files and
telling something. -/
def Steps (sh : Shell) (registry : Registry) (t : Task) (ledger : Ledger) (opened : Nat)
    (told : Bytes) (h h' : Host) : Prop :=
  h'.openFiles.length = h.openFiles.length + opened ∧
    ∃ own shown, Host.Acts (· ∈ sh.touched registry t.stage) own told shown h h' ∧
      (∀ id, own id → h.openFiles.length ≤ id ∨ ledger.owners[id]? = some t.number) ∧
      (t.out ≠ .output → shown = [])

variable {pipes : Nat} {tasks : List Task} {ledger : Ledger} {live : List Running} {h h' g : Host}
  {t t' : Task} {opened : Nat} {told : Bytes} {r r' : Running}

/-- A task does not notice what another does. -/
theorem Sees.frame (ha : Arranged sh registry pipes tasks) (ht : t ∈ tasks) (ht' : t' ∈ tasks)
    (hne : t ≠ t') (hs : Steps sh registry t ledger opened told h h')
    (hsees : Sees sh registry t' ledger g h) :
    Sees sh registry t' (ledger.add t.number opened told) g h' := by
  obtain ⟨-, own, shown, hacts, -, hshown⟩ := hs
  refine ⟨hsees.akin.trans hacts.akin, ?_, ?_, ?_⟩
  · intro l hl
    rw [hsees.files l hl, hacts.files l fun h => ha.disjoint t ht t' ht' hne l h hl]
  · rw [Ledger.toldBy_add, if_neg fun h => hne (ha.unique t ht t' ht' h), List.append_nil]
    exact hsees.acts
  · intro hout
    have hother : t.out ≠ .output := fun h => hne (ha.last t ht t' ht' h hout)
    rw [hsees.output hout, hacts.output, hshown hother, List.append_nil]

/-- A task goes on from where it was when another did something. -/
theorem Phase.frame (ha : Arranged sh registry pipes tasks) (ht : t ∈ tasks) (ht' : t' ∈ tasks)
    (hne : t ≠ t') (howners : ledger.owners.length = h.openFiles.length)
    (hs : Steps sh registry t ledger opened told h h')
    (hphase : Phase sh registry t' ledger.owners h r g) :
    Phase sh registry t' (ledger.add t.number opened told).owners h' r g := by
  obtain ⟨-, own, shown, hacts, hown, -⟩ := hs
  cases hphase with
  | idle => exact .idle
  | ending => exact .ending
  | @writing w b n p error es status _ hprocess hfollows hout hmine =>
    refine .writing (n := n) (b := b) hprocess { hfollows with seen := ⟨?_, ?_, ?_, ?_⟩ } hout
      fun k hk => Ledger.getElem?_owners_add (hmine k hk) ..
    · exact hfollows.seen.akin.trans hacts.akin
    · intro l hl
      rw [hfollows.seen.files l hl, hacts.files l fun h => ha.disjoint t ht t' ht' hne l h hl]
    · intro k hk
      rw [hfollows.seen.openFiles k hk, hacts.openFiles]
      intro hid
      obtain ⟨hlt, -⟩ := List.getElem?_eq_some_iff.mp (hmine k hk)
      rcases hown _ hid with hge | howner
      · omega
      · rw [hmine k hk, Option.some.injEq] at howner
        exact hne (ha.unique t ht t' ht' howner.symm)
    · exact hfollows.seen.locations

/-- A task is where it is by its own process, not by those of others. -/
theorem IsAt.of_cons (hat : IsAt sh registry t ledger (r :: live) h g)
    (hr : r.process.number ≠ t.number) : IsAt sh registry t ledger live h g := by
  rcases hat with ⟨r', hmem, hr', hphase⟩ | ⟨hgone, hends⟩
  · rcases List.mem_cons.mp hmem with rfl | hmem
    · exact absurd hr' hr
    · exact .inl ⟨r', hmem, hr', hphase⟩
  · exact .inr ⟨(List.forall_mem_cons.mp hgone).2, hends⟩

/-- A pipeline goes on when one of its processes does. -/
theorem Course.goOn {rs : List Running} (ha : Arranged sh registry pipes tasks)
    (hc : Course sh registry pipes tasks ledger (r :: rs) h) (ht : t ∈ tasks)
    (hr : r.process.number = t.number) (hr' : r'.process.number = t.number)
    (hs : Steps sh registry t ledger opened told h h')
    (hsees : Sees sh registry t (ledger.add t.number opened told) g h')
    (hphase : Phase sh registry t (ledger.add t.number opened told).owners h' r' g) :
    Course sh registry pipes tasks (ledger.add t.number opened told) (r' :: rs) h' := by
  obtain ⟨hlength, own, shown, hacts, -⟩ := id hs
  exact {
    owners := by
      rw [Ledger.add, List.length_append, List.length_replicate, hc.owners, hlength]
    error := by
      rw [hacts.error, hc.error, Ledger.add, List.flatMap_append, List.flatMap_singleton,
        List.append_assoc]
    settled := hacts.isSettled hc.settled
    numbered := by
      rw [hacts.nextProcess]
      exact hc.numbered
    labels := List.forall_mem_append.mpr ⟨hc.labels, List.forall_mem_singleton.mpr ⟨t, ht, rfl⟩⟩
    pipes := by rw [hacts.pipes, hc.pipes]
    akin := hc.akin.trans hacts.akin
    untouched := by
      intro l hl
      rw [hacts.files l (hl t ht), hc.untouched l hl]
    numbers := by
      rw [List.map_cons, hr', ← hr]
      exact hc.numbers
    known := List.forall_mem_cons.mpr ⟨⟨t, ht, hr'⟩, (List.forall_mem_cons.mp hc.known).2⟩
    alive := by
      obtain ⟨halive, hothers⟩ := List.forall_mem_cons.mp hc.alive
      rw [hacts.endings]
      refine List.forall_mem_cons.mpr ⟨?_, hothers⟩
      rw [hr', ← hr]
      exact halive
    tasks := by
      intro t' ht'
      by_cases hne : t = t'
      · subst hne
        exact ⟨g, hsees, .inl ⟨r', List.mem_cons_self, hr', hphase⟩⟩
      -- Any other task is where it was, and does not notice.
      have hnumber : t.number ≠ t'.number := fun h => hne (ha.unique t ht t' ht' h)
      obtain ⟨g', hsees', hat⟩ := hc.tasks t' ht'
      refine ⟨g', hsees'.frame ha ht ht' hne hs, ?_⟩
      obtain ⟨r'', hmem, hr'', hphase'⟩ | ⟨hgone, hg', hended⟩ := hat.of_cons (hr.trans_ne hnumber)
      · have hphase' := hphase'.frame ha ht ht' hne hc.owners hs
        exact .inl ⟨r'', List.mem_cons_of_mem _ hmem, hr'', hphase'⟩
      · refine .inr ⟨List.forall_mem_cons.mpr ⟨hr'.trans_ne hnumber, hgone⟩, hg', ?_⟩
        rw [hacts.endings]
        exact hended }

/-- A pipeline goes on when one of its processes ends. -/
theorem Course.ended {rs : List Running} (ha : Arranged sh registry pipes tasks)
    (hc : Course sh registry pipes tasks ledger (r :: rs) h) (ht : t ∈ tasks)
    (hr : r.process.number = t.number)
    (hsees : Sees sh registry t ledger (alone sh registry t.stage).2 h) :
    Course sh registry pipes tasks ledger rs (h.noteEnding r.process.number
      (.exited (alone sh registry t.stage).1.lowByte.toNat)) := by
  obtain ⟨hnotin, hnodup⟩ := List.nodup_cons.mp hc.numbers
  have hothers : ∀ r' ∈ rs, r'.process.number ≠ r.process.number := fun r' hr' h =>
    hnotin (List.mem_map.mpr ⟨r', hr', h⟩)
  -- How a process ended is known for good: a later note makes no difference.
  have hlookup (n : Nat) (e : Ending) : (h.noteEnding r.process.number e).endings.lookup n =
      (h.endings.lookup n).or (if n = r.process.number then some e else none) := by
    rw [Host.noteEnding, List.lookup_append]
    by_cases hn : n = r.process.number
    · simp [hn]
    · simp [List.lookup_cons, hn, beq_eq_false_iff_ne.mpr hn]
  have hfresh : ∀ e ∈ h.endings ++ [(r.process.number,
      Ending.exited (alone sh registry t.stage).1.lowByte.toNat)], e.1 < h.nextProcess := by
    refine List.forall_mem_append.mpr ⟨hc.settled.fresh, List.forall_mem_singleton.mpr ?_⟩
    rw [hr]
    exact hc.numbered t ht
  exact {
    owners := hc.owners
    error := hc.error
    settled := ⟨hc.settled.signals, hfresh⟩
    numbered := hc.numbered
    labels := hc.labels
    pipes := hc.pipes
    akin := hc.akin
    untouched := hc.untouched
    numbers := hnodup
    known := (List.forall_mem_cons.mp hc.known).2
    alive := by
      intro r' hr'
      rw [hlookup, if_neg (hothers r' hr'), hc.alive r' (List.mem_cons_of_mem _ hr')]
      rfl
    tasks := by
      intro t' ht'
      by_cases hne : t = t'
      · subst hne
        refine ⟨_, hsees.host rfl rfl, .inr ⟨fun r' hr' => hr ▸ hothers r' hr', rfl, ?_⟩⟩
        rw [hlookup, ← hr, hc.alive r List.mem_cons_self, if_pos rfl]
        rfl
      have hnumber : t.number ≠ t'.number := fun h => hne (ha.unique t ht t' ht' h)
      obtain ⟨g', hsees', hat⟩ := hc.tasks t' ht'
      refine ⟨g', hsees'.host rfl rfl, ?_⟩
      obtain ⟨r', hmem, hr', hphase⟩ | ⟨hgone, hg', hended⟩ := hat.of_cons (hr.trans_ne hnumber)
      · exact .inl ⟨r', hmem, hr', hphase.host rfl rfl⟩
      · refine .inr ⟨hgone, hg', ?_⟩
        rw [hlookup, hended]
        rfl }

/-! ## What each process does -/

/-- A stage that ends when it begins. -/
theorem alone_of_ended {stage : Stage} {status : Status} {own : Shell}
    (hbegin : sh.beginStage registry .spawn stage = (.ended status, own)) :
    alone sh registry stage = (status, own.host) := by
  simp only [alone, Shell.runStage, hbegin]

/-- A stage that has something to write when it has begun. -/
theorem alone_of_writing {stage : Stage} {es : List Emission} {error : Option Handle}
    {status : Status} {own : Shell}
    (hbegin : sh.beginStage registry .spawn stage = (.writing es error status, own)) :
    alone sh registry stage = Emission.outcome own.process error es status own.host := by
  simp only [alone, Shell.runStage, hbegin]
  rfl

/-- A task that has done nothing has told nothing. -/
theorem Sees.toldBy_eq_nil (hsees : Sees sh registry t ledger sh.host h) :
    ledger.toldBy t.number = [] := by
  obtain ⟨shown, hacts⟩ := hsees.acts
  have herror := hacts.error
  rwa [List.self_eq_append_right] at herror

/-- A process begins with a twin of the shell that its stage begins with alone. -/
theorem twins_child (ha : Arranged sh registry pipes tasks) (ht : t ∈ tasks)
    (hsees : Sees sh registry t ledger sh.host h) :
    sh.Twins (· ∈ sh.touched registry t.stage) sh.host h sh.process.filter t.out 0
      { sh with process := t.process, host := h } :=
  ⟨rfl, rfl, ha.process t ht, Host.twins_refl hsees.akin hsees.files⟩

/-- A process that begins does what its stage does when it begins alone. -/
theorem step_child (ha : Arranged sh registry pipes tasks) (ht : t ∈ tasks)
    (howners : ledger.owners.length = h.openFiles.length)
    (hsees : Sees sh registry t ledger sh.host h) :
    ∃ opened told r' h' g', (child sh registry t.stage t.process).step h = .goOn r' h' ∧
      r'.process = t.process ∧ (∀ p begin, r' ≠ .idle p begin) ∧
      Steps sh registry t ledger opened told h h' ∧
      Sees sh registry t (ledger.add t.number opened told) g' h' ∧
      Phase sh registry t (ledger.add t.number opened told).owners h' r' g' := by
  have hprocess := ha.process t ht
  obtain ⟨n, hprogress, hst'⟩ :=
    Shell.beginStage_twins (t := { sh with process := t.process, host := h })
      (twins_child ha ht hsees) (ha.noProgram t ht) (fun l hl => hl) .spawn .replace
  obtain ⟨told, hg, hh⟩ := hst'.host.changes
  have hsteps : Steps sh registry t ledger n told h
      (Shell.beginStage { sh with process := t.process, host := h } registry .replace
        t.stage).2.host :=
    ⟨hst'.host.right, _, [], hh.acts, fun id hid => .inl hid, fun _ => rfl⟩
  have hsees' : Sees sh registry t (ledger.add t.number n told)
      (sh.beginStage registry .spawn t.stage).2.host
      (Shell.beginStage { sh with process := t.process, host := h } registry .replace
        t.stage).2.host := by
    refine ⟨hst'.host.seen.akin, hst'.host.seen.files, ?_, ?_⟩
    · rw [Ledger.toldBy_add, if_pos rfl, hsees.toldBy_eq_nil, List.nil_append]
      exact ⟨[], hg.acts⟩
    · intro hout
      rw [hg.rest, hh.rest]
      exact hsees.output hout
  have hmine : ∀ k < n,
      (ledger.add t.number n told).owners[h.openFiles.length + k]? = some t.number := by
    intro k hk
    rw [← howners]
    exact ledger.getElem?_owners_add_new _ _ hk
  simp only [child, Running.step]
  rcases hleft : sh.beginStage registry .spawn t.stage with ⟨progress, own⟩
  rcases hright : Shell.beginStage { sh with process := t.process, host := h } registry .replace
    t.stage with ⟨progress', own'⟩
  rw [hleft, hright] at hprogress hst' hsees'
  rw [hright] at hsteps
  cases hprogress with
  | ended status =>
    refine ⟨n, told, _, _, _, rfl, rfl, by simp, hsteps, hsees', ?_⟩
    have hending : Phase sh registry t (ledger.add t.number n told).owners own'.host _ _ := .ending
    rw [alone_of_ended hleft] at hending
    exact hending
  | @writing es es' error error' status hes herror =>
    refine ⟨n, told, _, _, _, rfl, rfl, by simp, hsteps, hsees', ?_⟩
    refine .writing rfl ⟨hst'.host.seen, ?_, herror, ?_, hst'.process.error.1, hprocess.error.2,
      rfl⟩ (alone_of_writing hleft).symm hmine
    · exact hes.imp fun e e' he => he.rest
    · exact hprocess.filter.2.trans hst'.process.filter.1.symm

/-- A process that writes does what its stage does when it is alone. -/
theorem step_writer (ha : Arranged sh registry pipes tasks) (ht : t ∈ tasks)
    (hpipes : h.pipes.length = pipes) {w : Writer}
    (hsees : Sees sh registry t ledger g h)
    (hphase : Phase sh registry t ledger.owners h (.writer w) g)
    (hok : (Running.writer w).isRefused h = false) :
    (w.step h = .ended (.exited (alone sh registry t.stage).1.lowByte.toNat) h ∧
        g = (alone sh registry t.stage).2) ∨
      (w.step h = .waits ∧ ∃ id, t.out = .pipeWriter id ∧ h.hasReader id = true) ∨
      ∃ told w' h' g', w.step h = .goOn (.writer w') h' ∧ w'.process = w.process ∧
        w'.size < w.size ∧ Steps sh registry t ledger 0 told h h' ∧
        Sees sh registry t (ledger.add t.number 0 told) g' h' ∧
        Phase sh registry t (ledger.add t.number 0 told).owners h' (.writer w') g' := by
  have hout : t.out = .output ∨ ∃ id, t.out = .pipeWriter id ∧ id < h.pipes.length := by
    refine (ha.out t ht).imp_right ?_
    rintro ⟨id, hid, hlt, -⟩
    exact ⟨id, hid, hpipes ▸ hlt⟩
  cases hphase with
  | @writing w b n p error es status g hprocess hf houtcome hmine =>
  obtain ⟨rfl, hstep⟩ | hwaits | ⟨w', h', hstep, hp, hsize, hlength, es', status', g', told, shown,
    shown', hf', houtcome', hdone, hacts, hshow, hnothing⟩ := hf.step hout hok
  · left
    rw [← houtcome]
    exact ⟨hstep, rfl⟩
  · exact .inr (.inl hwaits)
  refine .inr (.inr ⟨told, w', h', g', hstep, hp, hsize, ⟨hlength, _, shown', hacts, ?_, hnothing⟩,
    ⟨hf'.seen.akin, hf'.seen.files, ?_, ?_⟩, ?_⟩)
  · rintro id ⟨hle, hlt⟩
    obtain ⟨k, rfl⟩ := Nat.exists_eq_add_of_le hle
    exact .inr (hmine k (by omega))
  · obtain ⟨before, hbefore⟩ := hsees.acts
    rw [Ledger.toldBy_add, if_pos rfl]
    exact ⟨before ++ shown, hbefore.trans (hdone.mono fun id hid => hid.1)⟩
  · intro hout
    rw [hdone.output, hsees.output hout, hacts.output, hshow hout]
  · exact .writing (hp.trans hprocess) hf' (houtcome'.trans houtcome) fun k hk =>
      Ledger.getElem?_owners_add (hmine k hk) ..

/-! ## What taking turns preserves -/

/-- Each process that has not ended runs the stage of a task. -/
theorem Course.of_mem (hc : Course sh registry pipes tasks ledger live h) (hr : r ∈ live) :
    ∃ t ∈ tasks, r.process.number = t.number ∧
      ∃ g, Sees sh registry t ledger g h ∧ Phase sh registry t ledger.owners h r g := by
  obtain ⟨t, ht, hnumber⟩ := hc.known r hr
  obtain ⟨g, hsees, ⟨r', hr', hnumber', hphase⟩ | ⟨hgone, -⟩⟩ := hc.tasks t ht
  · obtain rfl := List.inj_on_of_nodup_map hc.numbers hr' hr (hnumber'.trans hnumber.symm)
    exact ⟨t, ht, hnumber, g, hsees, hphase⟩
  · exact absurd hnumber (hgone r hr)

/-- The order of the processes makes no difference. -/
theorem Course.perm {rs rs' : List Running} (hp : rs.Perm rs')
    (hc : Course sh registry pipes tasks ledger rs h) :
    Course sh registry pipes tasks ledger rs' h := by
  refine ⟨hc.owners, hc.error, hc.settled, hc.numbered, hc.labels, hc.pipes, hc.akin, hc.untouched,
    (hp.map _).nodup_iff.mp hc.numbers, fun r hr => hc.known r (hp.mem_iff.mpr hr),
    fun r hr => hc.alive r (hp.mem_iff.mpr hr), ?_⟩
  intro t ht
  obtain ⟨g, hsees, ⟨r, hr, hphase⟩ | ⟨hgone, hended⟩⟩ := hc.tasks t ht
  · exact ⟨g, hsees, .inl ⟨r, hp.mem_iff.mp hr, hphase⟩⟩
  · exact ⟨g, hsees, .inr ⟨fun r hr => hgone r (hp.mem_iff.mpr hr), hended⟩⟩

/-- The handles that are known to be held make no difference. -/
theorem Course.withHeld {rs : List Running} (hc : Course sh registry pipes tasks ledger rs h)
    (held : List Handle) : Course sh registry pipes tasks ledger rs { h with held := held } := by
  refine ⟨hc.owners, hc.error, ⟨hc.settled.signals, hc.settled.fresh⟩, hc.numbered, hc.labels,
    hc.pipes, hc.akin, hc.untouched, hc.numbers, hc.known, hc.alive, ?_⟩
  intro t ht
  obtain ⟨g, hsees, ⟨r, hr, hnumber, hphase⟩ | hended⟩ := hc.tasks t ht
  · exact ⟨g, hsees.host rfl rfl, .inl ⟨r, hr, hnumber, hphase.host rfl rfl⟩⟩
  · exact ⟨g, hsees.host rfl rfl, .inr hended⟩

/-- A pipeline is done when none of its processes is left. -/
theorem Course.done_iff (hc : Course sh registry pipes tasks ledger live h) :
    ((tasks.map Task.number).all fun n => (h.endings.lookup n).isSome) = true ↔ live = [] := by
  rw [List.all_map, List.all_eq_true]
  constructor
  · intro hall
    by_contra hne
    obtain ⟨r, hr⟩ := List.exists_mem_of_ne_nil live hne
    obtain ⟨t, ht, hnumber⟩ := hc.known r hr
    have hsome := hall t ht
    rw [Function.comp, ← hnumber, hc.alive r hr] at hsome
    cases hsome
  · rintro rfl t ht
    obtain ⟨g, -, ⟨r, hr, -⟩ | ⟨-, -, hended⟩⟩ := hc.tasks t ht
    · cases hr
    · rw [Function.comp, hended, Option.isSome_some]

/-- When a pipeline is done, all its stages have done what they do alone. -/
theorem Course.of_done (hc : Course sh registry pipes tasks ledger [] h) (ht : t ∈ tasks) :
    Sees sh registry t ledger (alone sh registry t.stage).2 h ∧
      h.endings.lookup t.number = some (.exited (alone sh registry t.stage).1.lowByte.toNat) := by
  obtain ⟨g, hsees, ⟨r, hr, -⟩ | ⟨-, rfl, hended⟩⟩ := hc.tasks t ht
  · cases hr
  · exact ⟨hsees, hended⟩

/-- How far a process is from its end: whether it has to begin, and how much it has to write. -/
def weight : Running → Nat × Nat
  | .idle .. => (1, 0)
  | .writer w => (0, w.size + 1)
  | _ => (0, 1)

/-- How far processes are from their end. -/
def size (rs : List Running) : Nat ×ₗ Nat :=
  toLex ((rs.map fun r => (weight r).1).sum, (rs.map fun r => (weight r).2).sum)

theorem size_perm {rs rs' : List Running} (hp : rs.Perm rs') : size rs = size rs' := by
  rw [size, size, (hp.map _).sum_eq, (hp.map _).sum_eq]

/-- Processes are nearer to their end when one of them is. -/
theorem size_cons_lt {rs : List Running} (hlt : toLex (weight r') < toLex (weight r)) :
    size (r' :: rs) < size (r :: rs) := by
  rw [Prod.Lex.toLex_lt_toLex] at hlt
  rw [size, size, Prod.Lex.toLex_lt_toLex]
  simp only [List.map_cons, List.sum_cons]
  omega

/-- Processes are nearer to their end when one of them has ended. -/
theorem size_lt_cons {rs : List Running} (hlt : toLex (0, 0) < toLex (weight r)) :
    size rs < size (r :: rs) := by
  rw [Prod.Lex.toLex_lt_toLex] at hlt
  rw [size, size, Prod.Lex.toLex_lt_toLex]
  simp only [List.map_cons, List.sum_cons]
  simp only at hlt
  omega

/-- A process that writes makes no others. -/
theorem step_writer_ne_forks (w : Writer) (h : Host) (r child : Running) (h' : Host) :
    w.step h ≠ .forks r child h' := by
  have hfail (h : Host) (f : Fault) (e : Emission) (left : List Emission) :
      w.fail h f e left ≠ .forks r child h' := by
    rw [Writer.fail]
    split <;> simp [Writer.goOn]
  rw [Writer.step]
  split
  · simp
  split
  · split
    · simp [Writer.goOn]
    · exact hfail h _ _ _
  split
  · exact hfail h _ _ _
  split
  · simp [Writer.goOn]
  split <;> simp [Writer.goOn]

/-- A process whose write is refused does not wait. -/
theorem step_writer_ne_waits {w : Writer} (hrefused : (Running.writer w).isRefused h = true) :
    w.step h ≠ .waits := by
  obtain ⟨process, error, emissions, status⟩ := w
  rcases emissions with _ | ⟨⟨_ | handle, bytes, care, keeper⟩, left⟩
  · cases hrefused
  · cases hrefused
  simp only [Running.isRefused] at hrefused
  rw [Writer.step_cons rfl rfl]
  split at hrefused
  · next f hsend =>
    simp only [hsend, Writer.fail]
    split <;> simp [Writer.goOn]
  · cases hrefused

/-- What a process holds to read from a pipe was there from its start. -/
theorem Phase.mem_handles (ha : Arranged sh registry pipes tasks) (ht : t ∈ tasks)
    (hphase : Phase sh registry t ledger.owners h r g) {id : Nat}
    (hid : .pipeReader id ∈ r.handles) : .pipeReader id ∈ t.process.descriptors.handles := by
  cases hphase with
  | idle => exact hid
  | ending => cases hid
  | @writing w b n p error es status g hprocess hf houtcome hmine =>
    rw [Running.handles, List.mem_append, hprocess] at hid
    refine hid.resolve_right ?_
    intro hmem
    obtain ⟨e', he', hhandle⟩ := List.mem_filterMap.mp hmem
    obtain ⟨e, he⟩ := hf.exists_rest he'
    obtain ⟨x, y, -, hy, hxy⟩ := he.handle
    obtain rfl := Option.some.inj (hy.symm.trans hhandle)
    generalize hout : t.out = out at hxy
    cases hxy
    rcases ha.out t ht with hout' | ⟨id', hout', -⟩ <;> cases hout.symm.trans hout'

/-- A process that waits has a process with the next number. -/
theorem Course.exists_next (ha : Arranged sh registry pipes tasks)
    (hc : Course sh registry pipes tasks ledger live h) {own : List Handle}
    (hown : ∀ id, .pipeReader id ∉ own) (hr : r ∈ live)
    (hwaits : ∃ held, (∀ x ∈ held, x ∈ own ∨ ∃ r' ∈ live, x ∈ r'.handles) ∧
      r.step { h with held := held } = .waits) :
    ∃ r' ∈ live, r'.process.number = r.process.number + 1 := by
  obtain ⟨held, hheld, hstep⟩ := hwaits
  have hheldc := hc.withHeld held
  generalize hh : { h with held := held } = h₀ at hstep hheldc
  obtain ⟨t, ht, hnumber, g, hsees, hphase⟩ := hheldc.of_mem hr
  cases hphase with
  | idle => cases hstep
  | ending => cases hstep
  | @writing w b n p error es status g hprocess hf houtcome hmine =>
    have hok : (Running.writer w).isRefused h₀ = false := by
      rw [Bool.eq_false_iff]
      exact fun hrefused => step_writer_ne_waits hrefused hstep
    obtain ⟨hended, -⟩ | ⟨-, id, hout, hreader⟩ | ⟨told, w', h₁, g₁, hstep₁, -⟩ :=
      step_writer ha ht hheldc.pipes hsees (.writing hprocess hf houtcome hmine) hok
    · cases hstep.symm.trans hended
    · -- Somebody holds the read end of its pipe, which only the next process was given.
      have hid : .pipeReader id ∈ held := by
        rw [← hh] at hreader
        exact List.contains_iff_mem.mp hreader
      obtain ⟨r', hr', hid'⟩ := (hheld _ hid).resolve_left (hown id)
      obtain ⟨t', ht', hnumber', g', -, hphase'⟩ := hc.of_mem hr'
      have hreads := hphase'.mem_handles ha ht' hid'
      rcases ha.out t ht with hout' | ⟨id', hout', -, hnext⟩
      · cases hout.symm.trans hout'
      · obtain rfl := Handle.pipeWriter.inj (hout.symm.trans hout')
        exact ⟨r', hr', by rw [hnumber', hnumber, hnext t' ht' hreads]⟩
    · cases hstep.symm.trans hstep₁

/-- A pipeline keeps its course when one of its processes goes on, and that process is nearer to its
end. -/
theorem Course.of_goOn {rs : List Running} (ha : Arranged sh registry pipes tasks)
    (hc : Course sh registry pipes tasks ledger (r :: rs) h) (hok : r.isRefused h = false)
    (hstep : r.step h = .goOn r' h') :
    (∃ ledger', Course sh registry pipes tasks ledger' (r' :: rs) h') ∧
      toLex (weight r') < toLex (weight r) := by
  obtain ⟨t, ht, hr, g, hsees, hphase⟩ := hc.of_mem List.mem_cons_self
  rw [Prod.Lex.toLex_lt_toLex]
  cases hphase with
  | idle =>
    obtain ⟨opened, told, r₁, h₁, g₁, hstep₁, hp, hbegun, hs, hsees₁, hphase₁⟩ :=
      step_child ha ht hc.owners hsees
    obtain ⟨rfl, rfl⟩ := Turn.goOn.inj (hstep.symm.trans hstep₁)
    refine ⟨⟨_, hc.goOn ha ht rfl (congrArg Process.number hp) hs hsees₁ hphase₁⟩, .inl ?_⟩
    cases r' with
    | idle p begin => exact absurd rfl (hbegun p begin)
    | _ => exact Nat.zero_lt_one
  | ending => cases hstep
  | @writing w b n p error es status g hprocess hf houtcome hmine =>
    obtain ⟨hended, -⟩ | ⟨hwaits, -⟩ | ⟨told, w', h₁, g₁, hstep₁, hp, hsize, hs, hsees₁, hphase₁⟩ :=
      step_writer ha ht hc.pipes hsees (.writing hprocess hf houtcome hmine) hok
    · cases hstep.symm.trans hended
    · cases hstep.symm.trans hwaits
    · obtain ⟨rfl, rfl⟩ := Turn.goOn.inj (hstep.symm.trans hstep₁)
      have hnumber := (congrArg Process.number hp).trans hr
      exact ⟨⟨_, hc.goOn ha ht hr hnumber hs hsees₁ hphase₁⟩, .inr ⟨rfl, Nat.succ_lt_succ hsize⟩⟩

/-- A pipeline keeps its course when one of its processes ends, which has come to its end only
then. -/
theorem Course.of_ended {rs : List Running} {e : Ending} (ha : Arranged sh registry pipes tasks)
    (hc : Course sh registry pipes tasks ledger (r :: rs) h) (hok : r.isRefused h = false)
    (hstep : r.step h = .ended e h') :
    Course sh registry pipes tasks ledger rs (h'.noteEnding r.process.number e) ∧
      toLex (0, 0) < toLex (weight r) := by
  obtain ⟨t, ht, hr, g, hsees, hphase⟩ := hc.of_mem List.mem_cons_self
  rw [Prod.Lex.toLex_lt_toLex]
  cases hphase with
  | idle => cases hstep
  | ending =>
    cases hstep
    exact ⟨hc.ended ha ht hr hsees, .inr ⟨rfl, Nat.one_pos⟩⟩
  | @writing w b n p error es status g hprocess hf houtcome hmine =>
    obtain ⟨hended, rfl⟩ | ⟨hwaits, -⟩ | ⟨told, w', h₁, g₁, hstep₁, -⟩ :=
      step_writer ha ht hc.pipes hsees (.writing hprocess hf houtcome hmine) hok
    · obtain ⟨rfl, rfl⟩ := Turn.ended.inj (hstep.symm.trans hended)
      exact ⟨hc.ended ha ht hr hsees, .inr ⟨rfl, Nat.succ_pos _⟩⟩
    · cases hstep.symm.trans hwaits
    · cases hstep.symm.trans hstep₁

/-- Processes of a pipeline make no others. -/
theorem Course.ne_forks (hc : Course sh registry pipes tasks ledger live h) (hr : r ∈ live)
    (r' child : Running) (h' : Host) : r.step h ≠ .forks r' child h' := by
  obtain ⟨t, ht, hnumber, g, hsees, hphase⟩ := hc.of_mem hr
  cases hphase with
  | writing => exact step_writer_ne_forks _ _ _ _ _
  | _ => simp [Running.step, Pipeline.child]

/-- The processes of a pipeline do not all wait, unless there are none. -/
theorem Course.nil_of_waits (ha : Arranged sh registry pipes tasks)
    (hc : Course sh registry pipes tasks ledger live h) {own : List Handle}
    (hown : ∀ id, .pipeReader id ∉ own)
    (hwaits : ∀ r ∈ live, ∃ held, (∀ x ∈ held, x ∈ own ∨ ∃ r' ∈ live, x ∈ r'.handles) ∧
      r.step { h with held := held } = .waits) : live = [] := by
  by_contra hne
  obtain ⟨r, hr⟩ := List.exists_mem_of_ne_nil live hne
  -- Who waits for a reader has one with the next number, so there is no end of processes.
  have hall (k : Nat) : ∃ r' ∈ live, r'.process.number = r.process.number + k := by
    induction k with
    | zero => exact ⟨r, hr, rfl⟩
    | succ k ih =>
      obtain ⟨r', hr', hk⟩ := ih
      obtain ⟨r'', hr'', hnext⟩ := hc.exists_next ha hown hr' (hwaits r' hr')
      exact ⟨r'', hr'', by omega⟩
  obtain ⟨r', hr', hnumber⟩ := hall ((live.map fun r => r.process.number).sum + 1)
  have hle : r'.process.number ≤ (live.map fun r => r.process.number).sum :=
    List.le_sum_of_mem (List.mem_map.mpr ⟨r', hr', rfl⟩)
  omega

/-- The processes of a pipeline preserve its course. -/
theorem preserves (ha : Arranged sh registry pipes tasks) {own : List Handle}
    (hown : ∀ id, .pipeReader id ∉ own) :
    Schedule.Preserves (fun r h => r.isRefused h = false) own size
      fun rs h => ∃ ledger, Course sh registry pipes tasks ledger rs h := by
  refine ⟨?_, ?_, size_perm, ?_, ?_, ?_, ?_, ?_⟩
  · rintro rs h ⟨ledger, hc⟩ held
    exact ⟨ledger, hc.withHeld held⟩
  · rintro rs rs' h hp ⟨ledger, hc⟩
    exact ⟨ledger, hc.perm hp⟩
  · rintro rs h ⟨ledger, hc⟩
    exact hc.settled.signals
  · rintro r rs h r' h' ⟨ledger, hc⟩ hok hstep
    obtain ⟨hc', hlt⟩ := hc.of_goOn ha hok hstep
    exact ⟨hc', size_cons_lt hlt⟩
  · rintro r rs h e h' ⟨ledger, hc⟩ hok hstep
    obtain ⟨hc', hlt⟩ := hc.of_ended ha hok hstep
    exact ⟨⟨ledger, hc'⟩, size_lt_cons hlt⟩
  · rintro r rs h r' child h' ⟨ledger, hc⟩
    exact hc.ne_forks List.mem_cons_self _ _ _
  · rintro rs h ⟨ledger, hc⟩ hwaits
    exact hc.nil_of_waits ha hown hwaits

end CommandShell.Pipeline
