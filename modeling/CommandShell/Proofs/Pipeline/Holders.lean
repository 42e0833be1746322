import CommandShell.Proofs.Pipeline.Delivery
import CommandShell.Proofs.Pipeline.Law

/-!
# The holders of a pipe

A pipeline can be made from any descriptors with standard input and output among them. Of the ends
of its pipes, a process whose stage begins has just those next to the stage, the driver has just the
read end for the next stage, and none when it waits. So the write end of a pipe is with the stage
that writes to it, and the next stage finds the end of its input once that one is gone:
`keepsEnds_of_isReady`.
-/

namespace CommandShell

/-- Whether a handle is an end of one of the pipes from a number on. -/
def Handle.IsEndFrom (first : Nat) : Handle → Prop
  | .pipeReader id | .pipeWriter id => first ≤ id
  | _ => False

namespace Descriptors

/-- Whether the ends of pipes from a number on that a table holds are just the given ones, each at
the number that is given with it. -/
def HasEnds (first : Nat) (d : Descriptors) (ends : List (Nat × Handle)) : Prop :=
  ∀ n handle, handle.IsEndFrom first → (d.get? n = some handle ↔ (n, handle) ∈ ends)

/-- Whether a pipeline can be made from a table: standard input and output are open, and no end of a
pipe from a number on is there yet. -/
structure IsReady (first : Nat) (d : Descriptors) : Prop where
  input : d.get? 0 ≠ none
  output : d.get? 1 ≠ none
  ends : d.HasEnds first []

/-- A table that stands for the same as one without ends has none. -/
theorem HasEnds.of_get?_eq {first : Nat} {base d : Descriptors} (h : base.HasEnds first [])
    (hd : ∀ n, d.get? n = base.get? n) : d.HasEnds first [] := by
  intro n handle hend
  rw [hd]
  exact h n handle hend

/-- A table without ends does not stand for one. -/
theorem HasEnds.get?_ne {first n : Nat} {d : Descriptors} {handle : Handle}
    (h : d.HasEnds first []) (hend : handle.IsEndFrom first) : d.get? n ≠ some handle :=
  fun hn => List.not_mem_nil ((h n handle hend).mp hn)

end Descriptors

namespace Flow

open Wired

variable {base d : Descriptors} {first total i k n : Nat} {input : Option Nat}
  {ends : Option (Nat × Nat)}

/-! ## Ends in a table -/

/-- The ends of the pipes next to a stage, with the numbers of the standard streams that they are
for. -/
def endsAt (first total i : Nat) : List (Nat × Handle) :=
  (if 0 < i then [(0, .pipeReader (first + i - 1))] else []) ++
    if i + 1 < total then [(1, .pipeWriter (first + i))] else []

theorem mem_endsAt {handle : Handle} : (n, handle) ∈ endsAt first total i ↔
    (n = 0 ∧ 0 < i ∧ handle = .pipeReader (first + i - 1)) ∨
      (n = 1 ∧ i + 1 < total ∧ handle = .pipeWriter (first + i)) := by
  rw [endsAt, List.mem_append]
  refine or_congr ?_ ?_ <;> split <;> simp_all

/-- A process that begins with its ends in place has just those next to its stage. -/
theorem hasEnds_of_begins (hbase : base.HasEnds first []) (h : Begins base first total i d) :
    d.HasEnds first (endsAt first total i) := by
  intro n handle hend
  rw [mem_endsAt, h n]
  split
  · next hzero =>
    rw [Option.some.injEq, eq_comm]
    refine ⟨fun heq => .inl ⟨hzero.1, hzero.2, heq⟩, ?_⟩
    rintro (⟨-, -, heq⟩ | ⟨hone, -⟩)
    · exact heq
    · omega
  split
  · next hzero hone =>
    rw [Option.some.injEq, eq_comm]
    refine ⟨fun heq => .inr ⟨hone.1, hone.2, heq⟩, ?_⟩
    rintro (⟨hzero, -⟩ | ⟨-, -, heq⟩)
    · omega
    · exact heq
  · next hzero hone =>
    refine iff_of_false (hbase.get?_ne hend) ?_
    rintro (⟨hn, hi, -⟩ | ⟨hn, hi, -⟩)
    · exact hzero ⟨hn, hi⟩
    · exact hone ⟨hn, hi⟩

/-- A driver that is about to make a stage behind another has just the read end between them. -/
theorem hasEnds_of_keeps (hbase : base.HasEnds first [])
    (h : Keeps base first (i + 1) d input) :
    ∃ n, d.HasEnds first [(n, .pipeReader (first + i))] := by
  obtain ⟨n, hn⟩ := Option.ne_none_iff_exists'.mp (h.ne_none_iff.mpr (Nat.succ_pos i))
  refine ⟨n, ?_⟩
  intro m handle hend
  rw [h.table, hn, List.mem_singleton, Prod.mk.injEq]
  split
  · next hm =>
    obtain rfl := Option.some.inj hm
    rw [Option.some.injEq, eq_comm, and_iff_right rfl]
    rfl
  · next hm =>
    refine iff_of_false (hbase.get?_ne hend) ?_
    rintro ⟨rfl, -⟩
    exact hm rfl

/-- A driver has no write end between two stages. -/
theorem writer_not_mem_of_keeps (hbase : base.HasEnds first [])
    (h : Keeps base first i d input) : .pipeWriter (first + k) ∉ d.handles := by
  intro hmem
  obtain ⟨m, hm⟩ := Descriptors.mem_handles.mp hmem
  rw [h.table] at hm
  split at hm
  · cases hm
  · have hend : (Handle.pipeWriter (first + k)).IsEndFrom first := Nat.le_add_right first k
    exact hbase.get?_ne hend hm

/-- The write end that a driver has while it makes a stage is that of the pipe behind the stage. -/
theorem eq_of_writer_of_offers (hbase : base.HasEnds first [])
    (h : Offers base first total i d input ends) (hmem : .pipeWriter (first + k) ∈ d.handles) :
    i = k := by
  cases h with
  | last _ hkeeps => exact absurd hmem (writer_not_mem_of_keeps hbase hkeeps)
  | more _ hkeeps _ _ _ htable =>
    obtain ⟨m, hm⟩ := Descriptors.mem_handles.mp hmem
    rw [htable] at hm
    split at hm
    · have := Handle.pipeWriter.inj (Option.some.inj hm)
      omega
    split at hm
    · cases hm
    · exact absurd (Descriptors.mem_handles.mpr ⟨m, hm⟩) (writer_not_mem_of_keeps hbase hkeeps)

/-- The write end that a process begins with is that of the pipe behind its stage. -/
theorem eq_of_writer_of_begins (hbase : base.HasEnds first [])
    (h : Begins base first total i d) (hmem : .pipeWriter (first + k) ∈ d.handles) : i = k := by
  obtain ⟨m, hm⟩ := Descriptors.mem_handles.mp hmem
  have hmem := (hasEnds_of_begins hbase h m (.pipeWriter (first + k))
    (Nat.le_add_right first k)).mp hm
  rcases mem_endsAt.mp hmem with ⟨-, -, heq⟩ | ⟨-, -, heq⟩
  · cases heq
  · have := Handle.pipeWriter.inj heq
    omega

/-- A program has the files that its streams go to, and what the process had before. -/
theorem mem_handles_descriptors {s : Streams} {handle : Handle}
    (hmem : handle ∈ (s.descriptors d).handles) : handle ∈ s.handles ∨ handle ∈ d.handles := by
  have hput {e : Descriptors} {n : Nat} {file : Handle} (h : handle ∈ (e.put n file).handles) :
      handle = file ∨ handle ∈ e.handles := by
    obtain ⟨m, hm⟩ := Descriptors.mem_handles.mp h
    rw [Descriptors.get?_put] at hm
    split at hm
    · exact .inl (Option.some.inj hm).symm
    · exact .inr (Descriptors.mem_handles.mpr ⟨m, hm⟩)
  have hout (h : handle ∈ ({ s with error := none }.descriptors d).handles) :
      handle ∈ s.output.toList ∨ handle ∈ d.handles := by
    rw [Streams.descriptors] at h
    cases houtput : s.output with
    | none => exact .inr (by simpa [houtput] using h)
    | some file => exact (hput (by simpa [houtput] using h)).imp_left List.mem_singleton.mpr
  rw [Streams.handles, List.mem_append]
  cases herror : s.error with
  | none => exact (hout (by simpa [Streams.descriptors, herror] using hmem)).imp_left .inl
  | some file =>
    simp only [Streams.descriptors, herror] at hmem
    rcases hput hmem with rfl | hmem
    · exact .inl (.inr (List.mem_singleton.mpr rfl))
    · exact (hout (by simpa [Streams.descriptors] using hmem)).imp_left .inl

/-! ## Ends with the parties -/

/-- Only the process of a stage has the write end of the pipe behind it. -/
theorem Child.Bears.eq_of_writer {c : Child} (hbase : base.HasEnds first [])
    (h : c.Bears base first total i) (hmem : .pipeWriter (first + k) ∈ c.handles) : i = k := by
  obtain ⟨htable, hfiles⟩ := h
  have hstreams {streams : Streams} (hs : c.streams = some streams) :
      .pipeWriter (first + k) ∉ streams.handles := by
    intro hmem
    obtain ⟨id, hid⟩ := hfiles streams hs _ hmem
    cases hid
  have hopened : .pipeWriter (first + k) ∉ (c.streams.map Streams.handles).getD [] := by
    cases hs : c.streams with
    | none => exact List.not_mem_nil
    | some streams => exact hstreams hs
  rw [Child.handles] at hmem
  cases hphase : c.phase with
  | forked input ends =>
    rw [hphase] at htable hmem
    exact eq_of_writer_of_offers hbase htable ((List.mem_append.mp hmem).resolve_right hopened)
  | wired =>
    rw [hphase] at htable hmem
    exact eq_of_writer_of_begins hbase htable ((List.mem_append.mp hmem).resolve_right hopened)
  | running =>
    rw [hphase] at htable hmem
    exact eq_of_writer_of_begins hbase htable ((List.mem_append.mp hmem).resolve_right hopened)
  | launched =>
    rw [hphase] at htable hmem
    obtain ⟨d, streams, hs, hbegins, hd⟩ := htable
    rw [hd] at hmem
    exact eq_of_writer_of_begins hbase hbegins
      ((mem_handles_descriptors hmem).resolve_left (hstreams hs))
  | exited e =>
    rw [hphase] at hmem
    exact absurd hmem List.not_mem_nil

variable {x : Config}

/-- The driver has the write end of a pipe only while it makes the process before it. -/
theorem Config.Bears.makes_of_writer (hbase : base.HasEnds first [])
    (h : x.Bears base first total) (hmem : .pipeWriter (first + k) ∈ x.driver.handles) :
    ∃ d input ends, (x.driver = .forking d input ends ∧ x.children.length = k) ∨
      (x.driver = .closing d input ends ∧ x.children.length = k + 1) := by
  have hdriver := h.driver
  cases hx : x.driver with
  | making d input =>
    rw [hx] at hdriver hmem
    exact absurd hmem (writer_not_mem_of_keeps hbase hdriver.2.2)
  | forking d input ends =>
    rw [hx] at hdriver hmem
    exact ⟨d, input, ends, .inl ⟨rfl, eq_of_writer_of_offers hbase hdriver.2 hmem⟩⟩
  | closing d input ends =>
    rw [hx] at hdriver hmem
    obtain ⟨i, hmade, -, hoffers⟩ := hdriver
    obtain rfl := eq_of_writer_of_offers hbase hoffers hmem
    exact ⟨d, input, ends, .inr ⟨rfl, hmade⟩⟩
  | waiting d waited status =>
    rw [hx] at hdriver hmem
    obtain ⟨m, hm⟩ := Descriptors.mem_handles.mp hmem
    have hend : (Handle.pipeWriter (first + k)).IsEndFrom first := Nat.le_add_right first k
    exact absurd hm ((hbase.of_get?_eq hdriver.2.2).get?_ne hend)
  | returned status =>
    rw [hx] at hmem
    exact absurd hmem List.not_mem_nil

/-- A process that reads its standard input reads from the pipe before its stage. -/
theorem Child.Bears.get?_zero {c : Child} {streams : Streams}
    (h : c.Bears base first total (i + 1)) (hruns : c.Runs streams) :
    c.process.descriptors.get? 0 = some (.pipeReader (first + i)) := by
  have hbegins {d : Descriptors} (hd : Begins base first total (i + 1) d) :
      d.get? 0 = some (.pipeReader (first + i)) :=
    (hd 0).trans (if_pos ⟨rfl, Nat.succ_pos i⟩)
  have htable := h.table
  rcases hruns.1 with hphase | hphase
  · rw [hphase] at htable
    exact hbegins htable
  · rw [hphase] at htable
    obtain ⟨d, s, -, hd, hdescriptors⟩ := htable
    rw [hdescriptors, (get?_descriptors s d).1]
    exact hbegins hd

/-- Nobody has the write end of the pipe behind a stage that is gone, once the next stage runs. -/
theorem Config.Bears.writer_not_mem_held {c : Child} {e : Ending} (hbase : base.HasEnds first [])
    (h : x.Bears base first total) (hc : x.children[i + 1]? = some c) (hended : x.HasEnded i e) :
    .pipeWriter (first + i) ∉ x.held := by
  intro hmem
  rcases List.mem_append.mp hmem with hmem | hmem
  · have hlt := (List.getElem?_eq_some_iff.mp hc).1
    obtain ⟨d, input, ends, ⟨-, hmade⟩ | ⟨-, hmade⟩⟩ := h.makes_of_writer hbase hmem <;> omega
  · obtain ⟨c', hc', hmem⟩ := List.mem_flatMap.mp hmem
    obtain ⟨j, hj⟩ := List.mem_iff_getElem?.mp hc'
    obtain rfl := (h.child j c' hj).eq_of_writer hbase hmem
    obtain ⟨b, hb, hphase⟩ := hended
    obtain rfl : c' = b := Option.some.inj (hj.symm.trans hb)
    rw [Child.handles, hphase] at hmem
    exact absurd hmem List.not_mem_nil

/-- What there is to read for a stage once the one before it is gone: what is left in the pipe
between them, and then the end. -/
theorem Config.Bears.available {c : Child} {e : Ending} (hbase : base.HasEnds first [])
    (h : x.Bears base first total) (hc : x.children[i + 1]? = some c) (hended : x.HasEnded i e) :
    x.shared.available (.pipeReader (first + i)) = (x.host.inPipe (first + i), true) := by
  have hlt := (List.getElem?_eq_some_iff.mp hc).1
  obtain ⟨hle, hpipes⟩ := h.bounds
  have hid : first + i < x.host.pipes.length := by omega
  have hpipe : x.shared.pipes[first + i]? = some x.host.pipes[first + i] :=
    List.getElem?_eq_getElem hid
  have hwriter : x.shared.hasWriter (first + i) = false := by
    simpa [Host.hasWriter, Config.shared] using h.writer_not_mem_held hbase hc hended
  rw [Host.available]
  simp only [hpipe, hwriter, Bool.not_false]
  rw [Host.inPipe, List.getElem?_eq_getElem hid]
  rfl

/-! ## All of it -/

/-- What the parties of a pipeline hold of its pipes. -/
structure Config.KeepsEnds (first total : Nat) (x : Config) : Prop where
  /-- A process that begins its stage, and until a program takes its place, has just the read end of
  the pipe before it as its standard input and the write end of the pipe behind it as its standard
  output, as far as there are such pipes. -/
  begun : ∀ (i : Nat) (c : Child), x.children[i]? = some c → c.phase = .wired ∨ c.phase = .running →
    c.process.descriptors.HasEnds first (endsAt first total i)
  /-- The driver goes on from a stage with just the read end of the pipe behind it. -/
  making : ∀ (i : Nat) (d : Descriptors) (input : Option Nat), x.driver = .making d input →
    x.children.length = i + 1 → ∃ n, d.HasEnds first [(n, .pipeReader (first + i))]
  /-- The driver waits with no end at all. -/
  waiting : ∀ (d : Descriptors) (waited : Nat) (status : Status),
    x.driver = .waiting d waited status → d.HasEnds first []
  /-- Among the processes, only that of a stage ever has the write end of the pipe behind it. -/
  writer : ∀ (i j : Nat) (c : Child), x.children[j]? = some c →
    .pipeWriter (first + i) ∈ c.handles → j = i
  /-- The driver has it only while it makes the process of the stage. -/
  released : ∀ i, .pipeWriter (first + i) ∈ x.driver.handles →
    ∃ d input ends, (x.driver = .forking d input ends ∧ x.children.length = i) ∨
      (x.driver = .closing d input ends ∧ x.children.length = i + 1)
  /-- Once the process of a stage is gone, the next one never waits for input: each read gives what
  is left in the pipe between them, and finds the end if nothing is. -/
  ended : ∀ (i : Nat) (c : Child) (streams : Streams) (e : Ending),
    x.children[i + 1]? = some c → c.Runs streams → x.HasEnded i e →
    c.process.descriptors.get? 0 = some (.pipeReader (first + i)) ∧
      (∀ limit, (x.shared.read (.pipeReader (first + i)) limit).1 =
        .bytes ((x.host.inPipe (first + i)).take limit)) ∧
      (x.SeesEnd (i + 1) ↔ x.host.inPipe (first + i) = [])

/-- Parties that have what they should keep the ends where they belong. -/
theorem Config.Bears.keepsEnds (hbase : base.HasEnds first []) (h : x.Bears base first total) :
    x.KeepsEnds first total := by
  have hdriver := h.driver
  refine ⟨?_, ?_, ?_, ?_, fun i hmem => h.makes_of_writer hbase hmem, ?_⟩
  · intro i c hc hphase
    have htable := (h.child i c hc).table
    rcases hphase with hphase | hphase <;> rw [hphase] at htable <;>
      exact hasEnds_of_begins hbase htable
  · intro i d input hx hmade
    rw [hx, hmade] at hdriver
    exact hasEnds_of_keeps hbase hdriver.2.2
  · intro d waited status hx
    rw [hx] at hdriver
    exact hbase.of_get?_eq hdriver.2.2
  · intro i j c hc hmem
    exact (h.child j c hc).eq_of_writer hbase hmem
  · intro i c streams e hc hruns hended
    have hzero := (h.child _ c hc).get?_zero hruns
    have havailable := h.available hbase hc hended
    have hread (limit : Nat) : (x.shared.read (.pipeReader (first + i)) limit).1 =
        .bytes ((x.host.inPipe (first + i)).take limit) := by
      rw [Host.read, havailable]
      simp
    refine ⟨hzero, hread, ?_, ?_⟩
    · rintro ⟨c', _, handle, limit, h', hc', -, hhandle, hlimit, hend⟩
      obtain rfl : c' = c := Option.some.inj (hc'.symm.trans hc)
      obtain rfl : handle = .pipeReader (first + i) := Option.some.inj (hhandle.symm.trans hzero)
      have hnil := Host.available_of_read_nil hlimit hend
      rw [havailable] at hnil
      exact (Prod.mk.inj hnil).1
    · intro hempty
      refine ⟨c, streams, _, 1, _, hc, hruns, hzero, Nat.one_pos, Prod.ext ?_ rfl⟩
      rw [hread, hempty]
      rfl

variable {sh : Shell} {registry : Registry} {stages : List Stage}

/-- The processes that a pipeline starts with have just the ends next to their stages, and the
driver has none. -/
theorem hasEnds_start (hready : sh.process.descriptors.IsReady sh.host.pipes.length)
    (hne : stages ≠ []) :
    let started := Pipeline.start sh registry stages
    (∀ (i : Nat) (r : Running), started.processes[i]? = some r →
      r.process.descriptors.HasEnds sh.host.pipes.length
        (endsAt sh.host.pipes.length stages.length i)) ∧
      ∀ handle ∈ started.own, ¬ handle.IsEndFrom sh.host.pipes.length := by
  intro started
  have hpos := List.length_pos_iff.mpr hne
  have hpipes : sh.host.newProcess.2.pipes.length = sh.host.pipes.length + 0 := rfl
  have hmore : 0 + (stages.length - 1) + 1 = stages.length := by omega
  obtain ⟨hchildren, hdriver⟩ :=
    (keeps_start sh.process.descriptors _).stages hready.input hready.output hpipes hmore
  refine ⟨?_, ?_⟩
  · intro i r hr
    obtain ⟨alive, hprocesses⟩ := Pipeline.children_eq sh registry sh.host.nextProcess
      (stages.zip (Wired.stages sh.process.descriptors none sh.host.newProcess.2
        (stages.length - 1)).children)
      (Wired.stages sh.process.descriptors none sh.host.newProcess.2 (stages.length - 1)).host
    have hstarted : started.processes = _ := congrArg Prod.fst hprocesses
    rw [hstarted, List.getElem?_map, Pipeline.getElem?_tasksFrom, Option.map_map,
      Option.map_eq_some_iff] at hr
    obtain ⟨⟨stage, d⟩, hd, rfl⟩ := hr
    have hbegins := hchildren i d (List.getElem?_zip_eq_some.mp hd).2
    rw [Nat.zero_add] at hbegins
    exact hasEnds_of_begins hready.ends hbegins
  · intro handle hmem hend
    obtain ⟨m, hm⟩ := Descriptors.mem_handles.mp hmem
    exact (hready.ends.of_get?_eq hdriver).get?_ne hend hm

/-- Whatever the order in which the driver and the stages take their steps, they keep the ends of
the pipes where they belong; and so do the processes that a pipeline starts with, and its driver. -/
theorem keepsEnds_of_isReady (hready : sh.process.descriptors.IsReady sh.host.pipes.length)
    (hne : stages ≠ []) :
    (∀ x, Reaches sh registry stages x → x.KeepsEnds sh.host.pipes.length stages.length) ∧
      let started := Pipeline.start sh registry stages
      (∀ (i : Nat) (r : Running), started.processes[i]? = some r →
        r.process.descriptors.HasEnds sh.host.pipes.length
          (endsAt sh.host.pipes.length stages.length i)) ∧
        ∀ handle ∈ started.own, ¬ handle.IsEndFrom sh.host.pipes.length := by
  refine ⟨?_, hasEnds_start hready hne⟩
  intro x h
  exact (bears_of_reaches hready.input hready.output hne h).keepsEnds hready.ends

/-- A pipeline of two stages that is made with one more descriptor open: the second stage finds the
end of its input once the first is gone, and the driver waits without an end. -/
theorem keepsEnds_of_isReady_inherited :
    let plain : Shell := .start ⟨[], "/", false⟩ [] (.start .empty [] [])
    let sh : Shell := { plain with process := { plain.process with
      descriptors := ⟨[some .input, some .output, some .error, some .input]⟩ } }
    let stages : List Stage := [⟨["exit"], []⟩, ⟨["pwd"], []⟩]
    sh.process.descriptors.IsReady sh.host.pipes.length ∧ stages ≠ [] ∧
      ∃ x d waited status, Reaches sh .default stages x ∧ x.HasEnded 0 (.exited 0) ∧
        x.driver = .waiting d waited status ∧ d.HasEnds 0 [] ∧ x.SeesEnd 1 := by
  intro plain sh stages
  have hready : sh.process.descriptors.IsReady sh.host.pipes.length := by
    refine ⟨nofun, nofun, ?_⟩
    intro n handle hend
    refine iff_of_false ?_ List.not_mem_nil
    intro hn
    rcases n with _ | _ | _ | _ | n <;> cases hn <;> exact hend
  have hmade : Reaches sh .default stages _ :=
    .tail (.tail (.tail (.tail (.tail (.single (.pipes (by decide))) .forks) .closes) (.last rfl))
      .forks) .closesLast
  have hwired : Reaches sh .default stages _ :=
    .tail (.tail hmade (.child (i := 0) rfl rfl (.wires rfl)))
      (.child (i := 1) rfl rfl (.wires rfl))
  have hopened : Reaches sh .default stages _ :=
    .tail (.tail hwired (.child (i := 0) rfl rfl (.opens rfl rfl)))
      (.child (i := 1) rfl rfl (.opens rfl rfl))
  have hended : Reaches sh .default stages _ :=
    .tail hopened (.child (i := 0) rfl rfl (.exits (.exited 0) nofun))
  have hne : stages ≠ [] := List.cons_ne_nil _ _
  have hkeeps := (keepsEnds_of_isReady hready hne).1 _ hended
  have hruns := hkeeps.ended 0 _ _ (.exited 0) rfl ⟨.inl rfl, rfl, rfl⟩ ⟨_, rfl, rfl⟩
  exact ⟨hready, hne, _, _, _, _, hended, ⟨_, rfl, rfl⟩, rfl, hkeeps.waiting _ _ _ rfl,
    hruns.2.2.mpr (by cbv)⟩

end Flow

end CommandShell
