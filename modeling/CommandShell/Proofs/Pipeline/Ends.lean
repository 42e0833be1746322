import CommandShell.Proofs.Pipeline.Custody

/-!
# Where the ends of the pipes are

In a pipeline that is made from the standard streams of the session, the driver holds the pipes next
to the process that it makes, and each process has its standard streams in their places: it reads
what the one before it writes. `fits_of_reaches` says so for all that the parties come to.
-/

namespace CommandShell

namespace Flow

open Wired

variable {first total i : Nat} {d : Descriptors} {input : Option Nat} {ends : Option (Nat × Nat)}

/-! ## Descriptors -/

/-- What the driver of a pipeline holds when it makes the process of a stage: the standard streams,
the read end of the pipe before the stage, and both ends of the pipe behind it. -/
inductive Holds (first total i : Nat) : Descriptors → Option Nat → Option (Nat × Nat) → Prop
  | last {d : Descriptors} {input : Option Nat} :
      i + 1 = total → Drives (first + i) d input → (input = none ↔ i = 0) →
        Holds first total i d input none
  | more {d e : Descriptors} {input : Option Nat} {reader writer : Nat} :
      i + 1 < total → Drives (first + i) d input → (input = none ↔ i = 0) →
        d.get? reader = none → d.get? writer = none → writer ≠ reader →
        (∀ m, e.get? m = if m = writer then some (.pipeWriter (first + i))
          else if m = reader then some (.pipeReader (first + i)) else d.get? m) →
        Holds first total i e input (some (reader, writer))

/-- Where the standard streams of a stage lead: to the pipes before and behind it, and for the first
and the last stage to those of the session. -/
structure Stands (first total i : Nat) (d : Descriptors) : Prop where
  input : d.get? 0 = some (if i = 0 then .input else .pipeReader (first + i - 1))
  output : d.get? 1 = some (if i + 1 = total then .output else .pipeWriter (first + i))
  error : d.get? 2 = some .error

/-- A driver that offers the ends next to a stage holds them. -/
theorem holds_of_offers (h : Offers .standard first total i d input ends) :
    Holds first total i d input ends := by
  cases h with
  | last hlast hkeeps => exact .last hlast hkeeps.drives hkeeps.none_iff
  | more hmore hkeeps hreader hwriter hne htable =>
    exact .more hmore hkeeps.drives hkeeps.none_iff hreader hwriter hne htable

/-- A process that begins with the ends next to its stage stands where the stage belongs. -/
theorem stands_of_begins (h : Begins .standard first total i d) (hi : i < total) :
    Stands first total i d := by
  refine ⟨?_, ?_, ?_⟩
  · rw [h]
    by_cases hi0 : i = 0
    · rw [if_neg (by omega), if_neg (by omega), if_pos hi0]
      rfl
    · rw [if_pos ⟨rfl, by omega⟩, if_neg hi0]
  · rw [h, if_neg (by omega)]
    by_cases hlast : i + 1 = total
    · rw [if_neg (by omega), if_pos hlast]
      rfl
    · rw [if_pos ⟨rfl, by omega⟩, if_neg hlast]
  · rw [h, if_neg (by omega), if_neg (by omega)]
    rfl

/-- The write end of the pipe behind a stage is held while the process of the stage is made. -/
theorem Holds.mem_handles (h : Holds first total i d input ends) (hmore : i + 1 < total) :
    .pipeWriter (first + i) ∈ d.handles := by
  cases h with
  | last hlast => omega
  | @more _ _ _ reader writer _ _ _ _ _ _ he =>
    exact Descriptors.mem_handles.mpr ⟨writer, by rw [he, if_pos rfl]⟩

/-! ## Processes -/

/-- Whether the process of a stage holds what it should, as far as it has come. -/
def Child.Fits (first total i : Nat) (c : Child) : Prop :=
  match c.phase with
  | .forked input ends => Holds first total i c.process.descriptors input ends
  | .wired => Stands first total i c.process.descriptors
  | .running => Stands first total i c.process.descriptors ∧
      ∀ streams, c.streams = some streams → streams.IsOpen
  | .launched => ∃ d streams, c.streams = some streams ∧ streams.IsOpen ∧
      Stands first total i d ∧ c.process.descriptors = streams.descriptors d
  | .exited _ => True

/-- What the streams of a program lead to. -/
theorem get?_descriptors (streams : Streams) (d : Descriptors) :
    (streams.descriptors d).get? 0 = d.get? 0 ∧
      (streams.descriptors d).get? 1 = streams.output.orElse fun _ => d.get? 1 := by
  obtain ⟨output, error, valid⟩ := streams
  cases output <;> cases error <;>
    simp [Streams.descriptors, Descriptors.get?_put]

/-- As long as a stage is there and has not become a program with redirected standard output, it
holds the write end of the pipe behind it. -/
theorem Child.Fits.mem_handles {c : Child} (h : c.Fits first total i) (hmore : i + 1 < total)
    (halive : ∀ e, c.phase ≠ .exited e)
    (hredirected : c.phase = .launched → ∀ streams, c.streams = some streams →
      streams.output = none) : .pipeWriter (first + i) ∈ c.handles := by
  have hstands {d : Descriptors} (hd : Stands first total i d) :
      .pipeWriter (first + i) ∈ d.handles := by
    refine Descriptors.mem_handles.mpr ⟨1, ?_⟩
    rw [hd.output, if_neg (by omega)]
  rw [Child.Fits] at h
  rw [Child.handles]
  cases hphase : c.phase with
  | forked input ends =>
    rw [hphase] at h
    exact List.mem_append_left _ (Holds.mem_handles h hmore)
  | wired =>
    rw [hphase] at h
    exact List.mem_append_left _ (hstands h)
  | running =>
    rw [hphase] at h
    exact List.mem_append_left _ (hstands h.1)
  | launched =>
    rw [hphase] at h
    obtain ⟨d, streams, hstreams, -, hd, hdescriptors⟩ := h
    refine Descriptors.mem_handles.mpr ⟨1, ?_⟩
    rw [hdescriptors, (get?_descriptors streams d).2, hredirected hphase streams hstreams,
      Option.orElse_none, hd.output, if_neg (by omega)]
  | exited e => exact absurd hphase (halive e)

/-- A stage that opens its redirections leaves the pipes and the processes alone. -/
theorem Child.Fits.opens {c : Child} {h h' : Host} {redirections : List Redirection}
    {streams : Streams} (hc : c.Fits first total i) (hphase : c.phase = .wired)
    (hopens : Streams.ofRedirections c.process h redirections = (streams, h')) :
    streams.IsOpen ∧ h.Alongside h' ∧ h'.pipes = h.pipes := by
  rw [Child.Fits, hphase] at hc
  obtain ⟨hfiles, halong, hpipes⟩ := Streams.ofRedirections_passes hopens
  exact ⟨hfiles.isOpen, halong, hpipes hc.error⟩

/-- The process of a stage holds what it should if it has what it should. -/
theorem Child.Bears.fits {c : Child} (h : c.Bears .standard first total i) (hi : i < total) :
    c.Fits first total i := by
  obtain ⟨htable, hfiles⟩ := h
  rw [Child.Fits]
  cases hphase : c.phase with
  | forked input ends =>
    rw [hphase] at htable
    exact holds_of_offers htable
  | wired =>
    rw [hphase] at htable
    exact stands_of_begins htable hi
  | running =>
    rw [hphase] at htable
    exact ⟨stands_of_begins htable hi, fun streams hstreams => (hfiles streams hstreams).isOpen⟩
  | launched =>
    rw [hphase] at htable
    obtain ⟨d, streams, hstreams, hbegins, hd⟩ := htable
    exact ⟨d, streams, hstreams, (hfiles streams hstreams).isOpen, stands_of_begins hbegins hi, hd⟩
  | exited e => trivial

/-! ## All parties -/

/-- Whether the driver holds what it should, with some processes made and some pipes there. -/
def Driver.Fits (first total made pipes : Nat) : Driver → Prop
  | .making d input => made < total ∧ pipes = first + made ∧ Drives (first + made) d input ∧
      (input = none ↔ made = 0)
  | .forking d input ends => pipes = first + min (made + 1) (total - 1) ∧
      Holds first total made d input ends
  | .closing d input ends => ∃ i, made = i + 1 ∧ pipes = first + min made (total - 1) ∧
      Holds first total i d input ends
  | .waiting _ _ _ | .returned _ => made = total ∧ pipes = first + min made (total - 1)

/-- Whether all parties hold what they should. -/
structure Config.Fits (first total : Nat) (x : Config) : Prop where
  driver : x.driver.Fits first total x.children.length x.host.pipes.length
  child : ∀ i (c : Child), x.children[i]? = some c → c.Fits first total i

/-- There are no more processes than stages. -/
theorem Config.Fits.length_le {x : Config} (h : x.Fits first total) :
    x.children.length ≤ total := by
  have hlt {i : Nat} {d : Descriptors} {input : Option Nat} {ends : Option (Nat × Nat)}
      (hholds : Holds first total i d input ends) : i < total := by
    cases hholds <;> omega
  have hdriver := h.driver
  cases hx : x.driver with
  | making d input =>
    rw [hx] at hdriver
    exact Nat.le_of_lt hdriver.1
  | forking d input ends =>
    rw [hx] at hdriver
    exact Nat.le_of_lt (hlt hdriver.2)
  | closing d input ends =>
    rw [hx] at hdriver
    obtain ⟨i, hmade, -, hholds⟩ := hdriver
    rw [hmade]
    exact hlt hholds
  | waiting d waited status =>
    rw [hx] at hdriver
    exact Nat.le_of_eq hdriver.1
  | returned status =>
    rw [hx] at hdriver
    exact Nat.le_of_eq hdriver.1

variable {sh : Shell} {registry : Registry} {stages : List Stage} {x y : Config}

/-- All parties hold what they should if they have what they should. -/
theorem Config.Bears.fits (h : x.Bears .standard first total) : x.Fits first total := by
  have hle := h.bounds.1
  refine ⟨?_, fun i c hc => (h.child i c hc).fits ?_⟩
  · have hdriver := h.driver
    cases hx : x.driver with
    | making d input =>
      rw [hx] at hdriver
      obtain ⟨hmade, hpipes, hkeeps⟩ := hdriver
      exact ⟨hmade, hpipes, hkeeps.drives, hkeeps.none_iff⟩
    | forking d input ends =>
      rw [hx] at hdriver
      exact ⟨hdriver.1, holds_of_offers hdriver.2⟩
    | closing d input ends =>
      rw [hx] at hdriver
      obtain ⟨i, hmade, hpipes, hoffers⟩ := hdriver
      exact ⟨i, hmade, hpipes, holds_of_offers hoffers⟩
    | waiting d waited status =>
      rw [hx] at hdriver
      exact ⟨hdriver.1, hdriver.2.1⟩
    | returned status =>
      rw [hx] at hdriver
      exact hdriver
  · have hlt : i < x.children.length := (List.getElem?_eq_some_iff.mp hc).1
    omega

end Flow

end CommandShell
