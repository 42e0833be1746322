import Mathlib.Logic.Relation
import CommandShell.Pipeline.Run

/-!
# Pipelines as processes side by side

The driver of a pipeline and the processes of its stages as parties that take steps in any order. A
stage reads its standard input, writes to its standard output and ends as it likes; what it does to
its descriptors before that is fixed. `reaches_start` says that the processes that a pipeline starts
with are some that the parties come to, and `reaches_returned` that they come to what a pipeline
ends with once its processes have ended.
-/

namespace CommandShell.Flow

/-! ## The process of a stage -/

/-- How far the process of a stage has come. -/
inductive Phase
  /-- It has copies of the driver's descriptors: the read end of the pipe before it, if there is
  one, and the two ends of the pipe behind it. -/
  | forked (input : Option Nat) (ends : Option (Nat × Nat))
  /-- Its ends are in their places. -/
  | wired
  /-- Its redirections were opened. -/
  | running
  /-- A program has taken its place. -/
  | launched
  | exited (e : Ending)

/-- The process of a stage. -/
structure Child where
  process : Process
  phase : Phase
  /-- The streams of the stage, once its redirections were opened. -/
  streams : Option Streams
  /-- The bytes that were read from standard input. -/
  got : Bytes
  /-- The bytes that were written to standard output, unless it was redirected. -/
  put : Bytes

namespace Child

/-- A process that was just forked, with copies of descriptors. -/
def fork (sh : Shell) (number driver : Nat) (d : Descriptors) (input : Option Nat)
    (ends : Option (Nat × Nat)) : Child :=
  ⟨{ sh.process with number := number, parent := driver, descriptors := d }, .forked input ends,
    none, [], []⟩

/-- The handles that the process holds. -/
def handles (c : Child) : List Handle :=
  match c.phase with
  | .exited _ => []
  | .launched => c.process.descriptors.handles
  | _ => c.process.descriptors.handles ++ (c.streams.map Streams.handles).getD []

/-- The process with other descriptors. -/
def withDescriptors (c : Child) (d : Descriptors) : Child :=
  { c with process := { c.process with descriptors := d } }

/-- Whether the stage runs on streams that could all be opened. -/
def Runs (c : Child) (streams : Streams) : Prop :=
  (c.phase = .running ∨ c.phase = .launched) ∧ c.streams = some streams ∧ streams.valid = true

/-- What a process does in one step, with the host before and after it. -/
inductive Step (sh : Shell) (registry : Registry) (stage : Stage) (h : Host) (c : Child) :
    Host → Child → Prop
  /-- Moves its ends to their places and lets go of the others. -/
  | wires {input : Option Nat} {ends : Option (Nat × Nat)} :
      c.phase = .forked input ends →
        Step sh registry stage h c h { c.withDescriptors (Wired.child c.process.descriptors input
          (ends.map Prod.fst) (ends.map Prod.snd)) with phase := .wired }
  /-- Opens its redirections. -/
  | opens {streams : Streams} {h' : Host} :
      c.phase = .wired →
        Streams.ofRedirections c.process h stage.redirections = (streams, h') →
        Step sh registry stage h c h' { c with phase := .running, streams := some streams }
  /-- Gives its place to a program, which has the streams as its descriptors. -/
  | launches {streams : Streams} {path : String} :
      c.phase = .running → c.Runs streams →
        Shell.resolve { sh with process := c.process, host := h } registry stage.program =
          .program path →
        Step sh registry stage h c h
          { c.withDescriptors (streams.descriptors c.process.descriptors) with phase := .launched }
  /-- Reads some bytes from standard input, or finds its end. -/
  | reads {streams : Streams} {handle : Handle} {limit : Nat} {bytes : Bytes} {h' : Host} :
      c.Runs streams → c.process.descriptors.get? 0 = some handle →
        h.read handle limit = (.bytes bytes, h') →
        Step sh registry stage h c h' { c with got := c.got ++ bytes }
  /-- Writes to standard output, as much as there is room for. -/
  | writes {streams : Streams} {handle : Handle} {bytes rest : Bytes} {h' : Host} :
      c.Runs streams → streams.outputHandle c.process = some handle →
        h.send handle bytes = .ok (h', rest) →
        Step sh registry stage h c h' { c with
          put := if streams.output.isSome then c.put
            else c.put ++ bytes.take (bytes.length - rest.length) }
  /-- Does something else, which leaves the pipes and the other processes alone. -/
  | others {streams : Streams} {h' : Host} :
      c.Runs streams → h'.pipes = h.pipes → h'.endings = h.endings →
        h.nextProcess ≤ h'.nextProcess → Step sh registry stage h c h' c
  /-- Exits, or is killed. -/
  | exits (e : Ending) :
      (∀ e, c.phase ≠ .exited e) →
        Step sh registry stage h c (h.noteEnding c.process.number e) { c with phase := .exited e }

end Child

/-! ## The driver -/

/-- How far the driver has come, with its descriptors as long as it holds any. -/
inductive Driver
  /-- It is about to make a pipe. It holds the read end of the pipe before it, if there is one. -/
  | making (d : Descriptors) (input : Option Nat)
  /-- It has made a pipe, unless the next stage is the last. -/
  | forking (d : Descriptors) (input : Option Nat) (ends : Option (Nat × Nat))
  /-- It has made a process, which has copies of its descriptors. -/
  | closing (d : Descriptors) (input : Option Nat) (ends : Option (Nat × Nat))
  /-- It has waited for some of the processes, in the order of the stages. -/
  | waiting (d : Descriptors) (waited : Nat) (status : Status)
  | returned (status : Status)

/-- The handles that the driver holds. -/
def Driver.handles : Driver → List Handle
  | making d _ | forking d _ _ | closing d _ _ | waiting d _ _ => d.handles
  | returned _ => []

/-- The two descriptors of a new pipe, with all that are there then. -/
def withPipe (d : Descriptors) (id : Nat) : (Nat × Nat) × Descriptors :=
  let (reader, d) := d.add (.pipeReader id)
  let (writer, d) := d.add (.pipeWriter id)
  ((reader, writer), d)

/-! ## All of them -/

/-- The driver, the processes that it has made, and what they share. -/
structure Config where
  host : Host
  driver : Driver
  children : List Child

namespace Config

/-- What a pipeline begins with: a driver that has made nothing. -/
def start (sh : Shell) : Config :=
  ⟨sh.host.newProcess.2, .making sh.process.descriptors none, []⟩

/-- At the start there is no process of a stage. -/
@[simp] theorem getElem?_children_start (sh : Shell) (i : Nat) :
    (start sh).children[i]? = none := rfl

/-- The handles that are held. -/
def held (x : Config) : List Handle := x.driver.handles ++ x.children.flatMap Child.handles

/-- The host as processes find it. -/
def shared (x : Config) : Host := { x.host with held := x.held }

end Config

/-- One step of the driver or of a process. -/
inductive Step (sh : Shell) (registry : Registry) (stages : List Stage) : Config → Config → Prop
  | pipes {h : Host} {d : Descriptors} {input : Option Nat} {cs : List Child} :
      cs.length + 1 < stages.length →
        Step sh registry stages ⟨h, .making d input, cs⟩
          ⟨h.newPipe.2, .forking (withPipe d h.newPipe.1).2 input (withPipe d h.newPipe.1).1, cs⟩
  | last {h : Host} {d : Descriptors} {input : Option Nat} {cs : List Child} :
      cs.length + 1 = stages.length →
        Step sh registry stages ⟨h, .making d input, cs⟩ ⟨h, .forking d input none, cs⟩
  | forks {h : Host} {d : Descriptors} {input : Option Nat} {ends : Option (Nat × Nat)}
      {cs : List Child} :
      Step sh registry stages ⟨h, .forking d input ends, cs⟩
        ⟨h.newProcess.2, .closing d input ends,
          cs ++ [.fork sh h.newProcess.1 sh.host.nextProcess d input ends]⟩
  | closes {h : Host} {d : Descriptors} {input : Option Nat} {reader writer : Nat}
      {cs : List Child} :
      Step sh registry stages ⟨h, .closing d input (some (reader, writer)), cs⟩
        ⟨h, .making (Wired.closeIf (d.close writer) input) (some reader), cs⟩
  | closesLast {h : Host} {d : Descriptors} {input : Option Nat} {cs : List Child} :
      Step sh registry stages ⟨h, .closing d input none, cs⟩
        ⟨h, .waiting (Wired.closeIf d input) 0 Pipeline.unfinished, cs⟩
  | waits {h h' : Host} {d : Descriptors} {waited : Nat} {status : Status} {cs : List Child}
      {c : Child} {e : Ending} :
      cs[waited]? = some c → h.takeEnding c.process.number = (some e, h') →
        Step sh registry stages ⟨h, .waiting d waited status, cs⟩
          ⟨h', .waiting d (waited + 1)
            (if waited + 1 = stages.length then e.waitedStatus else status), cs⟩
  | returns {h : Host} {d : Descriptors} {waited : Nat} {status : Status} {cs : List Child} :
      cs.length ≤ waited →
        Step sh registry stages ⟨h, .waiting d waited status, cs⟩ ⟨h, .returned status, cs⟩
  | child {x : Config} {i : Nat} {stage : Stage} {c c' : Child} {h' : Host} :
      x.children[i]? = some c → stages[i]? = some stage →
        Child.Step sh registry stage x.shared c h' c' →
        Step sh registry stages x
          ⟨{ h' with held := x.host.held }, x.driver, x.children.set i c'⟩

/-- Whether the parties can come to something, whatever the order of their steps. -/
def Reaches (sh : Shell) (registry : Registry) (stages : List Stage) : Config → Prop :=
  Relation.ReflTransGen (Step sh registry stages) (.start sh)

/-! ## What a pipeline starts with -/

variable {sh : Shell} {registry : Registry} {stages : List Stage}

/-- A stage that is not the last gets a pipe, and the others are wired behind it. -/
theorem stages_succ {d e : Descriptors} {h : Host} {reader writer : Nat}
    (hpipe : withPipe d h.newPipe.1 = ((reader, writer), e)) (input : Option Nat) (more : Nat) :
    Wired.stages d input h (more + 1) =
      { Wired.stages (Wired.closeIf (e.close writer) input) (some reader) h.newPipe.2 more with
        children := Wired.child e input (some reader) (some writer) ::
          (Wired.stages (Wired.closeIf (e.close writer) input) (some reader) h.newPipe.2
            more).children } := by
  simp only [withPipe, Prod.mk.injEq] at hpipe
  obtain ⟨⟨rfl, rfl⟩, rfl⟩ := hpipe
  rfl

/-- A new process does not matter to the wiring. -/
theorem stages_newProcess (d : Descriptors) (input : Option Nat) (h : Host) (more : Nat) :
    Wired.stages d input h.newProcess.2 more =
      { Wired.stages d input h more with
        host := (Wired.stages d input h more).host.newProcess.2 } := by
  induction more generalizing d input h with
  | zero => rfl
  | succ more ih =>
    simp only [Wired.stages]
    have hswap : h.newProcess.2.newPipe = (h.newPipe.1, h.newPipe.2.newProcess.2) := rfl
    rw [hswap]
    simp only
    rw [ih]

/-- The wiring makes no process. -/
theorem nextProcess_stages (d : Descriptors) (input : Option Nat) (h : Host) (more : Nat) :
    (Wired.stages d input h more).host.nextProcess = h.nextProcess := by
  induction more generalizing d input h with
  | zero => rfl
  | succ more ih => exact ih _ _ _

/-- The process that was made last can move its ends to their places. -/
theorem step_wires (sh : Shell) (registry : Registry) (h : Host) (driver : Driver)
    (cs : List Child) (number : Nat) (d : Descriptors) (input : Option Nat)
    (ends : Option (Nat × Nat)) (hlt : cs.length < stages.length) :
    ∃ c, c.process = { sh.process with
        number := number
        parent := sh.host.nextProcess
        descriptors := Wired.child d input (ends.map Prod.fst) (ends.map Prod.snd) } ∧
      Step sh registry stages
        ⟨h, driver, cs ++ [.fork sh number sh.host.nextProcess d input ends]⟩
        ⟨h, driver, cs ++ [c]⟩ := by
  have hget : (cs ++ [Child.fork sh number sh.host.nextProcess d input ends])[cs.length]? =
      some (Child.fork sh number sh.host.nextProcess d input ends) :=
    List.getElem?_concat_length
  have hstep : Step sh registry stages _ _ :=
    .child (x := ⟨h, driver, cs ++ [.fork sh number sh.host.nextProcess d input ends]⟩) hget
      (List.getElem?_eq_getElem hlt) (.wires rfl)
  rw [List.set_append_right _ _ (Nat.le_refl _), Nat.sub_self] at hstep
  exact ⟨_, rfl, hstep⟩

/-- A driver that has made some processes comes to make the others as the pipeline does. -/
theorem reaches_waiting (sh : Shell) (registry : Registry) (h : Host) (cs : List Child)
    (d : Descriptors) (input : Option Nat) {more : Nat}
    (hmore : cs.length + more + 1 = stages.length) :
    let wired := Wired.stages d input h more
    let made := Pipeline.children sh registry sh.host.nextProcess
      ((stages.drop cs.length).zip wired.children) wired.host
    ∃ cs', cs'.map Child.process = made.1.map Running.process ∧
      Relation.ReflTransGen (Step sh registry stages) ⟨h, .making d input, cs⟩
        ⟨made.2, .waiting wired.driver 0 Pipeline.unfinished, cs ++ cs'⟩ := by
  induction more generalizing h cs d input with
  | zero =>
    have hlt : cs.length < stages.length := by omega
    have hrest : stages.drop (cs.length + 1) = [] := List.drop_eq_nil_of_le (by omega)
    obtain ⟨c, hc, hwires⟩ := step_wires sh registry h.newProcess.2
      (.waiting (Wired.closeIf d input) 0 Pipeline.unfinished) cs h.newProcess.1 d input none hlt
    intro wired made
    have hmade : made = ([Pipeline.child sh registry stages[cs.length] c.process],
        h.newProcess.2) := by
      rw [hc]
      simp only [made, wired, List.drop_eq_getElem_cons hlt, hrest]
      rfl
    rw [hmade]
    refine ⟨[c], rfl, ?_⟩
    exact .tail (.tail (.tail (.single (.last (by omega))) .forks) .closesLast) hwires
  | succ more ih =>
    have hlt : cs.length < stages.length := by omega
    -- The pipe and the process are made, and both parties let go of what is not theirs.
    obtain ⟨ends, e, hpipe⟩ : ∃ ends e, withPipe d h.newPipe.1 = (ends, e) := ⟨_, _, rfl⟩
    obtain ⟨reader, writer⟩ := ends
    obtain ⟨c, hc, hwires⟩ := step_wires sh registry h.newPipe.2.newProcess.2
      (.making (Wired.closeIf (e.close writer) input) (some reader)) cs h.newPipe.2.newProcess.1 e
      input (some (reader, writer)) hlt
    have hpipes : Step sh registry stages ⟨h, .making d input, cs⟩
        ⟨h.newPipe.2, .forking e input (some (reader, writer)), cs⟩ := by
      have hstep : Step sh registry stages ⟨h, .making d input, cs⟩ _ := .pipes (by omega)
      rw [hpipe] at hstep
      exact hstep
    obtain ⟨cs', hcs', hrest⟩ := ih h.newPipe.2.newProcess.2 (cs ++ [c])
      (Wired.closeIf (e.close writer) input) (some reader) (by simp; omega)
    rw [stages_newProcess] at hcs' hrest
    have hnumber := nextProcess_stages (Wired.closeIf (e.close writer) input) (some reader)
      h.newPipe.2 more
    intro wired made
    have hwired : wired = _ := stages_succ hpipe input more
    generalize Wired.stages (Wired.closeIf (e.close writer) input) (some reader) h.newPipe.2 more =
      rest at hcs' hrest hnumber hwired
    have hnew : rest.host.newProcess.1 = h.newPipe.2.newProcess.1 := hnumber
    have hmade : made = (Pipeline.child sh registry stages[cs.length] c.process ::
        (Pipeline.children sh registry sh.host.nextProcess
          ((stages.drop (cs ++ [c]).length).zip rest.children) rest.host.newProcess.2).1,
        (Pipeline.children sh registry sh.host.nextProcess
          ((stages.drop (cs ++ [c]).length).zip rest.children) rest.host.newProcess.2).2) := by
      rw [hc, ← hnew, List.length_append, List.length_singleton]
      simp only [made, hwired, List.drop_eq_getElem_cons hlt, List.zip_cons_cons,
        Pipeline.children]
      rfl
    refine ⟨c :: cs', ?_, ?_⟩
    · rw [hmade, List.map_cons, List.map_cons, hcs']
      rfl
    · rw [hmade, hwired, List.append_cons cs c cs']
      exact .trans (.tail (.tail (.tail (.single hpipes) .forks) .closes) hwires) hrest

/-- A pipeline starts with processes that the driver can come to make, the driver holding as much
and the host being the same. -/
theorem reaches_start (sh : Shell) (registry : Registry) (hne : stages ≠ []) :
    ∃ x, Reaches sh registry stages x ∧
      x.children.map Child.process =
        (Pipeline.start sh registry stages).processes.map Running.process ∧
      x.driver.handles = (Pipeline.start sh registry stages).own ∧
      x.host = (Pipeline.start sh registry stages).host := by
  have hpos := List.length_pos_iff.mpr hne
  have hlength : ([] : List Child).length + (stages.length - 1) + 1 = stages.length := by
    rw [List.length_nil]
    omega
  obtain ⟨cs, hcs, hreaches⟩ := reaches_waiting sh registry sh.host.newProcess.2 []
    sh.process.descriptors none hlength
  exact ⟨_, hreaches, hcs, rfl, rfl⟩

/-! ## What a pipeline ends with -/

/-- Waiting for a process leaves it known how the others have ended. -/
theorem lookup_takeEnding {h : Host} {n m : Nat} (hne : m ≠ n) :
    (h.takeEnding n).2.endings.lookup m = h.endings.lookup m := by
  rw [Host.takeEnding]
  split
  · rfl
  · simp only
    induction h.endings with
    | nil => rfl
    | cons e es ih =>
      obtain ⟨k, e⟩ := e
      by_cases hk : k = n
      · have hmk : (m == k) = false := by
          rw [hk]
          simpa using hne
        rw [List.filter_cons_of_neg (by simpa using hk), List.lookup_cons, hmk, ih]
      · rw [List.filter_cons_of_pos (by simpa using hk), List.lookup_cons, List.lookup_cons, ih]

/-- A driver that has waited for some processes comes to wait for the others, if they have ended. -/
theorem reaches_waited {d : Descriptors} {cs : List Child} (hlength : cs.length = stages.length)
    {before rest : List Child} (hcs : before ++ rest = cs) (h : Host) (status : Status)
    (hdistinct : (rest.map fun c => c.process.number).Nodup)
    (hended : ∀ c ∈ rest, (h.endings.lookup c.process.number).isSome = true) :
    let numbers := rest.map fun c => c.process.number
    let last := numbers.getLast?.bind fun n => h.endings.lookup n
    Relation.ReflTransGen (Step sh registry stages) ⟨h, .waiting d before.length status, cs⟩
      ⟨numbers.foldl (fun h n => (Host.takeEnding h n).2) h,
        .waiting d cs.length ((last.map Ending.waitedStatus).getD status), cs⟩ := by
  induction rest generalizing before h status with
  | nil =>
    rw [List.append_nil] at hcs
    rw [hcs]
    exact .refl
  | cons c rest ih =>
    intro numbers last
    obtain ⟨hnot, hdistinct⟩ := List.nodup_cons.mp hdistinct
    obtain ⟨e, he⟩ := Option.isSome_iff_exists.mp (hended c List.mem_cons_self)
    have htake : h.takeEnding c.process.number = (some e, (h.takeEnding c.process.number).2) := by
      rw [Host.takeEnding, he]
    have hget : cs[before.length]? = some c := by
      rw [← hcs, List.getElem?_append_right (Nat.le_refl _), Nat.sub_self]
      rfl
    have hsame (c' : Child) (hc' : c' ∈ rest) :
        (h.takeEnding c.process.number).2.endings.lookup c'.process.number =
          h.endings.lookup c'.process.number :=
      lookup_takeEnding fun heq => hnot (List.mem_map.mpr ⟨c', hc', heq⟩)
    have hended' (c' : Child) (hc' : c' ∈ rest) :
        ((h.takeEnding c.process.number).2.endings.lookup c'.process.number).isSome = true := by
      rw [hsame c' hc']
      exact hended c' (List.mem_cons_of_mem c hc')
    -- Whoever is waited for last settles the status: this process, if no other is left.
    have hstatus : (last.map Ending.waitedStatus).getD status =
        ((((rest.map fun c => c.process.number).getLast?.bind fun n =>
          (h.takeEnding c.process.number).2.endings.lookup n).map Ending.waitedStatus).getD
            (if before.length + 1 = stages.length then e.waitedStatus else status)) := by
      simp only [last, numbers, List.map_cons, List.getLast?_cons, List.getLast?_map,
        Option.bind_some]
      cases hlast : rest.getLast? with
      | none =>
        have hall : before.length + 1 = stages.length := by
          rw [← hlength, ← hcs, List.getLast?_eq_none_iff.mp hlast, List.length_append]
          rfl
        simp [he, hall]
      | some c' =>
        have hc' : c' ∈ rest := List.mem_of_getLast? hlast
        obtain ⟨e', he'⟩ := Option.isSome_iff_exists.mp (hended' c' hc')
        simp [he', hsame c' hc' ▸ he']
    have hrest := ih ((List.append_cons before c rest).symm.trans hcs)
      (h.takeEnding c.process.number).2
      (if before.length + 1 = stages.length then e.waitedStatus else status) hdistinct hended'
    rw [List.length_append, List.length_singleton] at hrest
    rw [hstatus]
    exact .head (.waits hget htake) hrest

/-- Once all processes have ended, the driver comes to return, having waited for each of them, with
the status that the pipeline has. -/
theorem reaches_returned {d : Descriptors} {cs : List Child} {h : Host}
    (hlength : cs.length = stages.length) (hdistinct : (cs.map fun c => c.process.number).Nodup)
    (hended : ∀ c ∈ cs, (h.endings.lookup c.process.number).isSome = true) :
    let numbers := cs.map fun c => c.process.number
    let last := numbers.getLast?.bind fun n => h.endings.lookup n
    Relation.ReflTransGen (Step sh registry stages)
      ⟨h, .waiting d 0 Pipeline.unfinished, cs⟩
      ⟨numbers.foldl (fun h n => (Host.takeEnding h n).2) h,
        .returned ((last.map Ending.waitedStatus).getD Pipeline.unfinished), cs⟩ := by
  exact .tail (reaches_waited hlength (List.nil_append cs) h _ hdistinct hended)
    (.returns (Nat.le_refl _))

end CommandShell.Flow
