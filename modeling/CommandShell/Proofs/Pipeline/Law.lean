import Mathlib
import CommandShell.Proofs.Pipeline.Course
import CommandShell.Proofs.Pipeline.Wiring

/-!
# Pipelines and their stages

A pipeline of builtins does what its stages do alone, each from the shell as it was, and leaves the
shell alone. `run_pipeline` says so for stages that touch different files and write to no pipe that
nobody reads from any more, in whatever order they take their steps.
-/

namespace CommandShell

namespace Pipeline

variable {sh : Shell} {registry : Registry} {stages : List Stage}

/-! ## How a pipeline starts -/

/-- The tasks for stages with their descriptors, the first of which has the number `first`. -/
def tasksFrom (sh : Shell) (driver first : Nat) : List (Stage × Descriptors) → List Task
  | [] => []
  | (stage, d) :: rest =>
    ⟨stage, { sh.process with number := first, parent := driver, descriptors := d }⟩ ::
      tasksFrom sh driver (first + 1) rest

theorem getElem?_tasksFrom (sh : Shell) (driver first : Nat) (ps : List (Stage × Descriptors))
    (i : Nat) :
    (tasksFrom sh driver first ps)[i]? = ps[i]?.map fun p =>
      ⟨p.1, { sh.process with number := first + i, parent := driver, descriptors := p.2 }⟩ := by
  induction ps generalizing first i with
  | nil => rfl
  | cons p ps ih =>
    cases i with
    | zero => rfl
    | succ i =>
      rw [tasksFrom, List.getElem?_cons_succ, List.getElem?_cons_succ, ih]
      simp only [Nat.add_assoc, Nat.add_comm 1 i]

theorem map_number_tasksFrom (sh : Shell) (driver first : Nat) (ps : List (Stage × Descriptors)) :
    (tasksFrom sh driver first ps).map Task.number = List.range' first ps.length := by
  induction ps generalizing first with
  | nil => rfl
  | cons p ps ih =>
    rw [tasksFrom, List.map_cons, ih, List.length_cons, List.range'_succ]
    rfl

/-- The processes of a pipeline are those of its tasks, and have new numbers. -/
theorem children_eq (sh : Shell) (registry : Registry) (driver : Nat)
    (ps : List (Stage × Descriptors)) (h : Host) :
    ∃ alive, children sh registry driver ps h =
      ((tasksFrom sh driver h.nextProcess ps).map fun t => child sh registry t.stage t.process,
        { h with nextProcess := h.nextProcess + ps.length, alive := alive }) := by
  induction ps generalizing h with
  | nil => exact ⟨h.alive, rfl⟩
  | cons p ps ih =>
    obtain ⟨alive, hrest⟩ := ih h.newProcess.2
    refine ⟨alive, ?_⟩
    rw [children]
    simp only
    rw [hrest]
    simp only [Host.newProcess, tasksFrom, List.map_cons, List.length_cons, Nat.add_assoc,
      Nat.add_comm 1]

/-- The tasks of a pipeline. -/
def tasksOf (sh : Shell) (stages : List Stage) : List Task :=
  tasksFrom sh sh.host.nextProcess (sh.host.nextProcess + 1)
    (stages.zip (Wired.ofStages sh.process.descriptors sh.host.newProcess.2
      (stages.length - 1)).children)

section

variable (hstandard : sh.process.descriptors = .standard)

include hstandard

theorem isPipeline_ofStages (h : Host) (more : Nat) :
    Wired.IsPipeline h more (Wired.ofStages sh.process.descriptors h more) := by
  rw [hstandard]
  exact Wired.isPipeline_stages h more

theorem length_zip_children (hne : stages ≠ []) (h : Host) :
    (stages.zip (Wired.ofStages sh.process.descriptors h (stages.length - 1)).children).length =
      stages.length := by
  have hpos := List.length_pos_iff.mpr hne
  rw [List.length_zip, (isPipeline_ofStages hstandard h _).length]
  omega

/-- What a pipeline starts with. -/
theorem start_eq (registry : Registry) (hne : stages ≠ []) :
    ∃ alive, start sh registry stages =
      ⟨(Wired.ofStages sh.process.descriptors sh.host.newProcess.2
          (stages.length - 1)).driver.handles,
        (tasksOf sh stages).map fun t => child sh registry t.stage t.process,
        { sh.host with
          pipes := sh.host.pipes ++ List.replicate (stages.length - 1) .empty
          nextProcess := sh.host.nextProcess + 1 + stages.length
          alive := alive }⟩ := by
  have hhost := (isPipeline_ofStages hstandard sh.host.newProcess.2 (stages.length - 1)).host
  have hlength := length_zip_children hstandard hne sh.host.newProcess.2
  simp only [start, tasksOf, Host.newProcess] at hhost hlength ⊢
  generalize Wired.ofStages sh.process.descriptors _ (stages.length - 1) = wired at *
  obtain ⟨alive, hchildren⟩ :=
    children_eq sh registry sh.host.nextProcess (stages.zip wired.children) wired.host
  rw [hhost, hlength] at hchildren
  exact ⟨alive, by rw [hhost, hchildren]⟩

/-! ## The tasks of a pipeline -/

/-- Whether a task is that of the stage at some place in a pipeline. -/
structure IsTask (sh : Shell) (stages : List Stage) (i : Nat) (t : Task) : Prop where
  task : (tasksOf sh stages)[i]? = some t
  stage : stages[i]? = some t.stage
  wired : Wired.IsChild sh.host.pipes.length (stages.length - 1) i t.process.descriptors
  process : t.process = { sh.process with
    number := sh.host.nextProcess + 1 + i
    parent := sh.host.nextProcess
    descriptors := t.process.descriptors }

/-- Each stage has a task. -/
theorem isTask_of_getElem? {i : Nat} {t : Task} (ht : (tasksOf sh stages)[i]? = some t) :
    IsTask sh stages i t := by
  have htask := ht
  rw [tasksOf, getElem?_tasksFrom, Option.map_eq_some_iff] at ht
  obtain ⟨⟨stage, d⟩, hp, rfl⟩ := ht
  obtain ⟨hstage, hd⟩ := List.getElem?_zip_eq_some.mp hp
  exact ⟨htask, hstage, (isPipeline_ofStages hstandard sh.host.newProcess.2 _).child i d hd, rfl⟩

theorem isTask_of_mem {t : Task} (ht : t ∈ tasksOf sh stages) : ∃ i, IsTask sh stages i t := by
  obtain ⟨i, hi⟩ := List.mem_iff_getElem?.mp ht
  exact ⟨i, isTask_of_getElem? hstandard hi⟩

theorem exists_isTask {i : Nat} (hi : i < stages.length) :
    ∃ t ∈ tasksOf sh stages, IsTask sh stages i t := by
  have hne : stages ≠ [] := List.ne_nil_of_length_pos (Nat.zero_lt_of_lt hi)
  have hlt : i < (tasksOf sh stages).length := by
    rw [← List.length_map (f := Task.number), tasksOf, map_number_tasksFrom, List.length_range',
      length_zip_children hstandard hne]
    exact hi
  exact ⟨_, List.getElem_mem hlt, isTask_of_getElem? hstandard (List.getElem?_eq_getElem hlt)⟩

theorem map_number_tasksOf (hne : stages ≠ []) :
    (tasksOf sh stages).map Task.number =
      List.range' (sh.host.nextProcess + 1) stages.length := by
  rw [tasksOf, map_number_tasksFrom, length_zip_children hstandard hne]

end

namespace IsTask

variable {i j : Nat} {t t' : Task}

theorem number_eq (h : IsTask sh stages i t) : t.number = sh.host.nextProcess + 1 + i := by
  rw [Task.number, h.process]

theorem out_eq (h : IsTask sh stages i t) : t.out =
    if i = stages.length - 1 then .output else .pipeWriter (sh.host.pipes.length + i) := by
  rw [Task.out, h.wired.output, Option.getD_some]

theorem eq_of_eq (h : IsTask sh stages i t) (h' : IsTask sh stages j t') (hij : i = j) :
    t = t' := by
  subst hij
  exact Option.some.inj (h.task.symm.trans h'.task)

end IsTask

/-- The stages of a pipeline are arranged as they should be. -/
theorem arranged_tasksOf (hstandard : sh.process.descriptors = .standard)
    (hprogram : ∀ stage ∈ stages, sh.RunsNoProgram registry stage)
    (hdisjoint : stages.Pairwise fun a b =>
      (sh.touched registry a).Disjoint (sh.touched registry b)) :
    Arranged sh registry (sh.host.pipes.length + (stages.length - 1)) (tasksOf sh stages) where
  process t ht := by
    obtain ⟨i, hi⟩ := isTask_of_mem hstandard ht
    refine ⟨?_, ⟨rfl, ?_⟩, ⟨?_, ?_⟩, ?_, hi.wired.error⟩
    · rw [hi.process]
    · rw [hi.process]
    · rw [hstandard]
      rfl
    · rw [Task.out, hi.wired.output, Option.getD_some]
    · rw [hstandard]
      rfl
  out t ht := by
    obtain ⟨i, hi⟩ := isTask_of_mem hstandard ht
    rw [hi.out_eq]
    by_cases hlast : i = stages.length - 1
    · exact .inl (if_pos hlast)
    · -- Only the next stage has the number of this pipe at its input.
      obtain ⟨hlt, -⟩ := List.getElem?_eq_some_iff.mp hi.stage
      refine .inr ⟨_, if_neg hlast, by omega, ?_⟩
      intro t' ht' hid
      obtain ⟨j, hj⟩ := isTask_of_mem hstandard ht'
      have := hj.wired.reader _ hid
      rw [hi.number_eq, hj.number_eq]
      omega
  last t ht t' ht' hout hout' := by
    obtain ⟨i, hi⟩ := isTask_of_mem hstandard ht
    obtain ⟨j, hj⟩ := isTask_of_mem hstandard ht'
    rw [hi.out_eq] at hout
    rw [hj.out_eq] at hout'
    refine hi.eq_of_eq hj ?_
    split at hout
    · split at hout'
      · omega
      · cases hout'
    · cases hout
  unique t ht t' ht' hnumber := by
    obtain ⟨i, hi⟩ := isTask_of_mem hstandard ht
    obtain ⟨j, hj⟩ := isTask_of_mem hstandard ht'
    rw [hi.number_eq, hj.number_eq] at hnumber
    exact hi.eq_of_eq hj (by omega)
  noProgram t ht := by
    obtain ⟨i, hi⟩ := isTask_of_mem hstandard ht
    exact hprogram _ (List.mem_of_getElem? hi.stage)
  disjoint t ht t' ht' hne l hl hl' := by
    obtain ⟨i, hi⟩ := isTask_of_mem hstandard ht
    obtain ⟨j, hj⟩ := isTask_of_mem hstandard ht'
    obtain ⟨hilt, histage⟩ := List.getElem?_eq_some_iff.mp hi.stage
    obtain ⟨hjlt, hjstage⟩ := List.getElem?_eq_some_iff.mp hj.stage
    rw [List.pairwise_iff_getElem] at hdisjoint
    rcases Nat.lt_trichotomy i j with hij | hij | hij
    · exact hdisjoint i j hilt hjlt hij (histage ▸ hl) (hjstage ▸ hl')
    · exact hne (hi.eq_of_eq hj hij)
    · exact hdisjoint j i hjlt hilt hij (hjstage ▸ hl') (histage ▸ hl)

/-! ## The run of a pipeline -/

/-- A pipeline begins its course when it has started. -/
theorem course_start (hstandard : sh.process.descriptors = .standard)
    (hsettled : sh.host.IsSettled) (hne : stages ≠ []) (registry : Registry) :
    Course sh registry (sh.host.pipes.length + (stages.length - 1)) (tasksOf sh stages)
      ⟨List.replicate sh.host.openFiles.length 0, []⟩ (start sh registry stages).processes
      (start sh registry stages).host := by
  obtain ⟨alive, hstart⟩ := start_eq hstandard registry hne
  have hnumbers : ((tasksOf sh stages).map fun t =>
      child sh registry t.stage t.process).map (fun r => r.process.number) =
        List.range' (sh.host.nextProcess + 1) stages.length := by
    rw [List.map_map, ← map_number_tasksOf hstandard hne]
    rfl
  rw [hstart]
  exact {
    owners := by simp
    error := by simp
    settled := by
      refine ⟨hsettled.signals, fun e he => ?_⟩
      have := hsettled.fresh e he
      simp only
      omega
    numbered := by
      intro t ht
      obtain ⟨i, hi⟩ := isTask_of_mem hstandard ht
      obtain ⟨hlt, -⟩ := List.getElem?_eq_some_iff.mp hi.stage
      rw [hi.number_eq]
      simp only
      omega
    labels := by simp
    pipes := by simp
    akin := .refl _
    untouched := fun l _ => rfl
    numbers := by
      rw [hnumbers]
      exact List.nodup_range'
    known := by
      intro r hr
      obtain ⟨t, ht, rfl⟩ := List.mem_map.mp hr
      exact ⟨t, ht, rfl⟩
    alive := by
      intro r hr
      obtain ⟨t, ht, rfl⟩ := List.mem_map.mp hr
      obtain ⟨i, hi⟩ := isTask_of_mem hstandard ht
      -- The number is new, so no process with that number has ended.
      show sh.host.endings.lookup t.number = none
      rw [List.lookup_eq_none_iff, hi.number_eq]
      intro e he
      have := hsettled.fresh e he
      exact bne_iff_ne.mpr (by omega)
    tasks := by
      intro t ht
      refine ⟨sh.host, ⟨.refl _, fun l _ => rfl, ⟨[], Host.acts_refl ..⟩, fun _ => rfl⟩, .inl ?_⟩
      exact ⟨_, List.mem_map.mpr ⟨t, ht, rfl⟩, rfl, .idle⟩ }

/-- Forgetting how processes ended changes nothing else, and settles nothing anew. -/
theorem foldl_takeEnding (numbers : List Nat) (h : Host) :
    ∃ endings alive, (∀ e ∈ endings, e ∈ h.endings) ∧
      numbers.foldl (fun h n => (Host.takeEnding h n).2) h =
        { h with endings := endings, alive := alive } := by
  induction numbers generalizing h with
  | nil => exact ⟨h.endings, h.alive, fun _ he => he, rfl⟩
  | cons n numbers ih =>
    obtain ⟨endings, alive, hmem, hfold⟩ := ih (h.takeEnding n).2
    rw [List.foldl_cons, hfold]
    simp only [Host.takeEnding] at hmem ⊢
    split at hmem
    · exact ⟨endings, alive, hmem, rfl⟩
    · exact ⟨endings, alive, fun e he => (List.mem_filter.mp (hmem e he)).1, rfl⟩

/-! ## The law -/

/-- When a pipeline is done, each of its stages has done what it does alone. -/
theorem Course.of_stage {ledger : Ledger} {pipes i : Nat} {h : Host} {stage : Stage}
    (hstandard : sh.process.descriptors = .standard)
    (hc : Course sh registry pipes (tasksOf sh stages) ledger [] h)
    (hi : stages[i]? = some stage) :
    ∃ t, IsTask sh stages i t ∧ t.stage = stage ∧
      Sees sh registry t ledger (alone sh registry stage).2 h := by
  obtain ⟨hlt, -⟩ := List.getElem?_eq_some_iff.mp hi
  obtain ⟨t, ht, htask⟩ := exists_isTask hstandard hlt
  obtain rfl := Option.some.inj (htask.stage.symm.trans hi)
  exact ⟨t, htask, rfl, (hc.of_done ht).1⟩

/-- What each told does not depend on where its labels start. -/
theorem flatMap_filter_relabel (first i : Nat) {told : List (Nat × Bytes)}
    (hfirst : ∀ e ∈ told, first ≤ e.1) :
    ((told.map fun e => (e.1 - first, e.2)).filter (·.1 = i)).flatMap Prod.snd =
      (told.filter (·.1 = first + i)).flatMap Prod.snd := by
  rw [List.filter_map, List.flatMap_map]
  congr 1
  refine List.filter_congr ?_
  intro e he
  have := hfirst e he
  simp only [Function.comp, decide_eq_decide]
  omega

/-- When a pipeline is done, standard error has received what its stages write there alone, each at
its own times. -/
theorem Course.exists_told {ledger : Ledger} {pipes : Nat} {h : Host}
    (hstandard : sh.process.descriptors = .standard)
    (hc : Course sh registry pipes (tasksOf sh stages) ledger [] h) :
    ∃ told : List (Nat × Bytes), (∀ e ∈ told, e.1 < stages.length) ∧
      h.error.bytes = sh.host.error.bytes ++ told.flatMap Prod.snd ∧
      ∀ i stage, stages[i]? = some stage → (sh.runStage registry stage).2.host.error.bytes =
        sh.host.error.bytes ++ (told.filter (·.1 = i)).flatMap Prod.snd := by
  -- The ledger goes by the numbers of processes, which follow each other.
  have hlabels : ∀ e ∈ ledger.told, ∃ i < stages.length, e.1 = sh.host.nextProcess + 1 + i := by
    intro e he
    obtain ⟨t, ht, hnumber⟩ := hc.labels e he
    obtain ⟨i, hi⟩ := isTask_of_mem hstandard ht
    obtain ⟨hlt, -⟩ := List.getElem?_eq_some_iff.mp hi.stage
    exact ⟨i, hlt, hnumber.trans hi.number_eq⟩
  refine ⟨ledger.told.map fun e => (e.1 - (sh.host.nextProcess + 1), e.2), ?_, ?_, ?_⟩
  · refine List.forall_mem_map.mpr ?_
    intro e he
    obtain ⟨i, hlt, hlabel⟩ := hlabels e he
    simp only
    omega
  · rw [List.flatMap_map]
    exact hc.error
  · intro i stage hi
    obtain ⟨t, htask, rfl, hsees⟩ := hc.of_stage hstandard hi
    obtain ⟨shown, hacts⟩ := hsees.acts
    rw [flatMap_filter_relabel, ← htask.number_eq]
    · exact hacts.error
    · intro e he
      obtain ⟨i, -, hlabel⟩ := hlabels e he
      omega

/-- Whether running stages together came to what each of them does alone, and left the shell as it
was. -/
structure LikeAlone (sh : Shell) (registry : Registry) (stages : List Stage)
    (status : Status) (final : Shell) : Prop where
  /-- Nothing of the shell is changed but its host. -/
  shell : final = { sh with host := final.host }
  /-- The host is ready for the next line. -/
  settled : final.host.IsSettled
  /-- The status is the lowest byte of that of the last stage. -/
  status : ∀ last ∈ stages.getLast?, status = (sh.runStage registry last).1 % 256
  /-- The standard output of the session received what the last stage writes there. -/
  output : ∀ last ∈ stages.getLast?,
    final.host.output.bytes = (sh.runStage registry last).2.host.output.bytes
  /-- The files that a stage touches are as it leaves them. -/
  files : ∀ stage ∈ stages, ∀ l ∈ sh.touched registry stage,
    final.host.files.get? l = (sh.runStage registry stage).2.host.files.get? l
  /-- A stage changes no files but those that it touches. -/
  others : ∀ stage ∈ stages, ∀ l, l ∉ sh.touched registry stage →
    (sh.runStage registry stage).2.host.files.get? l = sh.host.files.get? l
  /-- Files that no stage touches are as they were. -/
  untouched : ∀ l, (∀ stage ∈ stages, l ∉ sh.touched registry stage) →
    final.host.files.get? l = sh.host.files.get? l
  /-- Standard error received what the stages write there, each at its own times. -/
  error : ∃ told : List (Nat × Bytes), (∀ e ∈ told, e.1 < stages.length) ∧
    final.host.error.bytes = sh.host.error.bytes ++ told.flatMap Prod.snd ∧
    ∀ i stage, stages[i]? = some stage → (sh.runStage registry stage).2.host.error.bytes =
      sh.host.error.bytes ++ (told.filter (·.1 = i)).flatMap Prod.snd

/-- When a pipeline is done, it comes to what its stages do alone. -/
theorem Course.likeAlone {ledger : Ledger} {pipes : Nat} {h : Host}
    (hstandard : sh.process.descriptors = .standard) (hne : stages ≠ [])
    (hc : Course sh registry pipes (tasksOf sh stages) ledger [] h) :
    LikeAlone sh registry stages (collect sh ((tasksOf sh stages).map Task.number) h).1
      (collect sh ((tasksOf sh stages).map Task.number) h).2 := by
  obtain ⟨endings, alive, hendings, hfold⟩ :=
    foldl_takeEnding ((tasksOf sh stages).map Task.number) h
  have hfresh : ∀ e ∈ endings, e.1 < h.nextProcess := by
    intro e he
    exact hc.settled.fresh e (hendings e he)
  have hlast : ∀ last ∈ stages.getLast?, ∃ t ∈ tasksOf sh stages,
      IsTask sh stages (stages.length - 1) t ∧ t.stage = last := by
    intro last hlast
    rw [List.getLast?_eq_getElem?] at hlast
    obtain ⟨t, ht, htask⟩ := exists_isTask hstandard (i := stages.length - 1)
      (Nat.sub_lt (List.length_pos_iff.mpr hne) Nat.one_pos)
    exact ⟨t, ht, htask, Option.some.inj (htask.stage.symm.trans hlast)⟩
  have htold := hc.exists_told hstandard
  simp only [collect, hfold]
  refine ⟨rfl, ⟨hc.settled.signals, hfresh⟩, ?_, ?_, ?_, ?_, ?_, htold⟩
  · -- The number of the last process tells how its stage ended.
    intro last hlast'
    obtain ⟨t, ht, htask, rfl⟩ := hlast last hlast'
    have hpos := List.length_pos_iff.mpr hne
    have hnumber : ((tasksOf sh stages).map Task.number).getLast? = some t.number := by
      rw [map_number_tasksOf hstandard hne, List.getLast?_range', if_neg hpos.ne',
        htask.number_eq]
      congr 1
      omega
    have hbyte : 0 ≤ (alone sh registry t.stage).1.lowByte := Int.emod_nonneg _ (by decide)
    simp only [hnumber, Option.bind_some, (hc.of_done ht).2, Option.map_some, Option.getD_some,
      Ending.waitedStatus]
    rw [Int.toNat_of_nonneg hbyte]
    rfl
  · intro last hlast'
    obtain ⟨t, ht, htask, rfl⟩ := hlast last hlast'
    have hout : t.out = .output := by rw [htask.out_eq, if_pos rfl]
    exact ((hc.of_done ht).1.output hout).symm
  · intro stage hstage l hl
    obtain ⟨i, hi⟩ := List.mem_iff_getElem?.mp hstage
    obtain ⟨t, htask, rfl, hsees⟩ := hc.of_stage hstandard hi
    exact (hsees.files l hl).symm
  · intro stage hstage l hl
    obtain ⟨i, hi⟩ := List.mem_iff_getElem?.mp hstage
    obtain ⟨t, htask, rfl, hsees⟩ := hc.of_stage hstandard hi
    obtain ⟨shown, hacts⟩ := hsees.acts
    exact hacts.files l hl
  · intro l hl
    refine hc.untouched l ?_
    intro t ht
    obtain ⟨i, hi⟩ := isTask_of_mem hstandard ht
    exact hl _ (List.mem_of_getElem? hi.stage)

/-- Whether the processes of a pipeline can come to something, in any order of their steps in which
none writes to a pipe that nobody reads from any more. -/
def Reaches (sh : Shell) (registry : Registry) (stages : List Stage) :
    List Running × Host → Prop :=
  Schedule.Reaches (fun r h => r.isRefused h = false)
    ((start sh registry stages).processes, (start sh registry stages).host)

/-- What a pipeline comes to when its processes have come to an end on a host. -/
def outcome (sh : Shell) (registry : Registry) (stages : List Stage) (h : Host) : Status × Shell :=
  collect sh ((start sh registry stages).processes.map fun r => r.process.number) h

/-- Whether a pipeline comes to what its stages do alone, whatever the order of their steps. -/
structure AlwaysLikeAlone (sh : Shell) (registry : Registry) (stages : List Stage) : Prop where
  /-- In no order do the steps go on forever. -/
  ends : ∀ x : ℕ → List Running × Host, Reaches sh registry stages (x 0) →
    ¬∀ n, Schedule.Moves (fun r h => r.isRefused h = false) (x n) (x (n + 1))
  /-- Until all processes have ended, one of them has something to do. -/
  goesOn : ∀ rs h, Reaches sh registry stages (rs, h) → rs ≠ [] → ∃ r ∈ rs, r.step
    { h with held := (start sh registry stages).own ++ rs.flatMap Running.handles } ≠ .waits
  /-- Once all have ended, each stage has done what it does alone. -/
  likeAlone : ∀ h, Reaches sh registry stages ([], h) →
    LikeAlone sh registry stages (outcome sh registry stages h).1
      (outcome sh registry stages h).2

end Pipeline

/-- Two stages or more make a pipeline. -/
theorem Shell.run_eq_pipeline (sh : Shell) (registry : Registry) {stages : List Stage}
    (hlength : 2 ≤ stages.length) : sh.run registry stages = Pipeline.run sh registry stages := by
  rcases stages with _ | ⟨a, _ | ⟨b, stages⟩⟩
  · simp at hlength
  · simp at hlength
  · rfl

/-- A pipeline whose stages run no programs and touch different files leaves the shell as it was,
does what each of its stages does alone, and has the status of the last, provided that no stage
writes to a pipe that nobody reads from any more. It does so whatever the order of the steps, and in
the turns that the processes are given, which are one of the orders. -/
theorem Shell.run_pipeline (sh : Shell) (registry : Registry) (stages : List Stage)
    (hstandard : sh.process.descriptors = .standard) (hsettled : sh.host.IsSettled)
    (hlength : 2 ≤ stages.length)
    (hprogram : ∀ stage ∈ stages, sh.RunsNoProgram registry stage)
    (hdisjoint : stages.Pairwise fun a b =>
      (sh.touched registry a).Disjoint (sh.touched registry b)) :
    Pipeline.AlwaysLikeAlone sh registry stages ∧
      (Schedule.AllSteps (fun r h => r.isRefused h = false)
          (Pipeline.start sh registry stages).own (Pipeline.start sh registry stages).processes
          (Pipeline.start sh registry stages).host →
        (∃ h, Pipeline.Reaches sh registry stages ([], h) ∧ sh.run registry stages =
          Pipeline.outcome sh registry stages { h with held := [] }) ∧
        Pipeline.LikeAlone sh registry stages (sh.run registry stages).1
          (sh.run registry stages).2) := by
  have hne : stages ≠ [] := List.ne_nil_of_length_pos (by omega)
  have ha := Pipeline.arranged_tasksOf hstandard hprogram hdisjoint
  have hstart := Pipeline.course_start hstandard hsettled hne registry
  obtain ⟨alive, hstarted⟩ := Pipeline.start_eq hstandard registry hne
  have hown : ∀ id, .pipeReader id ∉ (Pipeline.start sh registry stages).own := by
    rw [hstarted]
    exact (Pipeline.isPipeline_ofStages hstandard _ _).driver
  have hnumbers : (Pipeline.start sh registry stages).processes.map (fun r => r.process.number) =
      (Pipeline.tasksOf sh stages).map Pipeline.Task.number := by
    rw [hstarted, List.map_map]
    rfl
  have hp := Pipeline.preserves ha hown
  -- Where no process is left, all stages have gone their course.
  have hdone : ∀ h, Pipeline.Reaches sh registry stages ([], h) → ∀ held,
      Pipeline.LikeAlone sh registry stages
        (Pipeline.outcome sh registry stages { h with held := held }).1
        (Pipeline.outcome sh registry stages { h with held := held }).2 := by
    intro h hreaches held
    obtain ⟨ledger, hc⟩ := Schedule.Reaches.preserves hreaches hp ⟨_, hstart⟩
    rw [Pipeline.outcome, hnumbers]
    exact (hc.withHeld held).likeAlone hstandard hne
  refine ⟨⟨?_, ?_, ?_⟩, ?_⟩
  · intro x hreaches
    exact Schedule.not_forall_moves hp (hreaches.preserves hp ⟨_, hstart⟩)
  · intro rs h hreaches hrs
    exact hreaches.exists_ne_waits hp ⟨_, hstart⟩ hrs
  · intro h hreaches
    exact hdone h hreaches h.held
  · intro hsteps
    obtain ⟨h, hrounds, hreaches⟩ :=
      Schedule.rounds_of_preserves hp (fun ⟨_, hc⟩ => hc.done_iff) ⟨_, hstart⟩ hsteps
    have hrun : sh.run registry stages =
        Pipeline.outcome sh registry stages { h with held := [] } := by
      rw [sh.run_eq_pipeline registry hlength, Pipeline.run]
      simp only [hnumbers, Schedule.run, hrounds, Pipeline.outcome]
      rfl
    refine ⟨⟨_, hreaches, hrun⟩, ?_⟩
    rw [hrun]
    exact hdone _ hreaches []

/-- An `exit` between two other builtins neither ends the session nor shows in what it writes. -/
theorem Shell.run_pipeline_exit :
    let sh : Shell := .start ⟨[], "/", false⟩ [] (.start .empty [] [])
    let stages : List Stage := [⟨["echo", "hi"], []⟩, ⟨["exit"], []⟩, ⟨["pwd"], []⟩]
    sh.host.IsSettled ∧ (∀ stage ∈ stages, sh.RunsNoProgram .default stage) ∧
      Pipeline.AlwaysLikeAlone sh .default stages ∧
      (∃ h, Pipeline.Reaches sh .default stages ([], h)) ∧
      Pipeline.LikeAlone sh .default stages (sh.run .default stages).1 (sh.run .default stages).2 ∧
      (sh.run .default stages).1 = 0 ∧
      (sh.run .default stages).2.environment.leaving = false ∧
      (sh.run .default stages).2.host.output.bytes = Text.encode "/\n" := by
  intro sh stages
  have hsettled : sh.host.IsSettled := Host.isSettled_start ..
  have hprogram : ∀ stage ∈ stages, sh.RunsNoProgram .default stage := by
    simp only [stages, List.forall_mem_cons, List.not_mem_nil, IsEmpty.forall_iff, implies_true,
      and_true]
    refine ⟨?_, ?_, ?_⟩ <;> exact fun _ path h => by cases h
  have htouched : ∀ stage ∈ stages, sh.touched .default stage = [] := by
    simp only [stages, List.forall_mem_cons, List.not_mem_nil, IsEmpty.forall_iff, implies_true,
      and_true]
    exact ⟨rfl, rfl, rfl⟩
  have hdisjoint : stages.Pairwise fun a b =>
      (sh.touched .default a).Disjoint (sh.touched .default b) := by
    refine List.pairwise_of_forall_mem_list ?_
    intro a ha b _
    rw [htouched a ha]
    exact List.disjoint_nil_left _
  have hsteps : Schedule.AllSteps (fun r h => r.isRefused h = false)
      (Pipeline.start sh .default stages).own (Pipeline.start sh .default stages).processes
      (Pipeline.start sh .default stages).host := by
    refine Schedule.allSteps_of_next ?_ ?_
    · have hall : ((Schedule.roundSteps (Pipeline.start sh .default stages).own []
          (Pipeline.start sh .default stages).processes
          (Pipeline.start sh .default stages).host).all fun s => !s.1.isRefused s.2) = true := by
        cbv
      simpa using hall
    · rw [← List.isEmpty_iff]
      cbv
  obtain ⟨halways, hturns⟩ :=
    Shell.run_pipeline sh .default stages rfl hsettled (by decide) hprogram hdisjoint
  obtain ⟨⟨h, hreaches, -⟩, hlaw⟩ := hturns hsteps
  refine ⟨hsettled, hprogram, halways, ⟨h, hreaches⟩, hlaw, ?_, ?_, ?_⟩
  · rw [hlaw.status _ rfl]
    cbv
  · rw [hlaw.shell]
    rfl
  · rw [hlaw.output _ rfl]
    cbv

end CommandShell
