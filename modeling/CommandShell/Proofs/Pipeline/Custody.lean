import CommandShell.Proofs.Pipeline.Flow
import CommandShell.Proofs.Pipeline.Passing
import CommandShell.Proofs.Pipeline.Wiring

/-!
# Who holds the ends of the pipes

While the parties of a pipeline take their steps, the driver has what it began with and the read end
of the pipe before the next stage, and the process of a stage has the ends of the pipes next to the
stage in the places of its standard streams. `bears_of_reaches` says so for all that they come to.
-/

namespace CommandShell

namespace Flow

open Wired

variable {base d : Descriptors} {first total i : Nat}

/-! ## Processes -/

/-- Whether the descriptors of the process of a stage are what they should be, as far as it has
come. -/
def Phase.Bears (base : Descriptors) (first total i : Nat) (d : Descriptors)
    (streams : Option Streams) : Phase → Prop
  | .forked input ends => Offers base first total i d input ends
  | .wired | .running => Begins base first total i d
  | .launched => ∃ (d₀ : Descriptors) (s : Streams), streams = some s ∧
      Begins base first total i d₀ ∧ d = s.descriptors d₀
  | .exited _ => True

/-- Whether the process of a stage has what it should, its redirections leading to files. -/
structure Child.Bears (base : Descriptors) (first total i : Nat) (c : Child) : Prop where
  table : c.phase.Bears base first total i c.process.descriptors c.streams
  files : ∀ streams, c.streams = some streams → streams.AreFiles

/-- A process goes on to have what it should. -/
theorem Child.Step.bears {sh : Shell} {registry : Registry} {stage : Stage} {h h' : Host}
    {c c' : Child} (hinput : base.get? 0 ≠ none) (houtput : base.get? 1 ≠ none)
    (hstep : Child.Step sh registry stage h c h' c') (hc : c.Bears base first total i) :
    c'.Bears base first total i := by
  obtain ⟨htable, hfiles⟩ := hc
  cases hstep with
  | wires hphase =>
    rw [hphase] at htable
    exact ⟨Offers.begins hinput houtput htable, hfiles⟩
  | opens hphase hopens =>
    rw [hphase] at htable
    refine ⟨htable, fun streams hstreams => ?_⟩
    obtain rfl := Option.some.inj hstreams
    exact (Streams.ofRedirections_passes hopens).1
  | launches hphase hruns =>
    rw [hphase] at htable
    exact ⟨⟨_, _, hruns.2.1, htable, rfl⟩, hfiles⟩
  | reads | writes | others => exact ⟨htable, hfiles⟩
  | exits => exact ⟨trivial, hfiles⟩

/-- A process leaves all pipes there. -/
theorem Child.Step.pipes {sh : Shell} {registry : Registry} {stage : Stage} {h h' : Host}
    {c c' : Child} (hstep : Child.Step sh registry stage h c h' c') :
    h'.pipes.length = h.pipes.length := by
  cases hstep with
  | wires | launches | exits => rfl
  | opens _ hopens => exact (Streams.ofRedirections_passes hopens).2.1.pipes
  | reads _ _ hread => exact (Host.read_passes hread).1.pipes
  | writes _ _ hsend => exact (Host.send_passes hsend).1.pipes
  | others _ hpipes => exact congrArg _ hpipes

/-! ## All parties -/

/-- Whether the driver has what it should, with some processes made and some pipes there. -/
def Driver.Bears (base : Descriptors) (first total made pipes : Nat) : Driver → Prop
  | .making d input => made < total ∧ pipes = first + made ∧ Keeps base first made d input
  | .forking d input ends => pipes = first + min (made + 1) (total - 1) ∧
      Offers base first total made d input ends
  | .closing d input ends => ∃ i, made = i + 1 ∧ pipes = first + min made (total - 1) ∧
      Offers base first total i d input ends
  | .waiting d _ _ => made = total ∧ pipes = first + min made (total - 1) ∧
      ∀ m, d.get? m = base.get? m
  | .returned _ => made = total ∧ pipes = first + min made (total - 1)

/-- Whether all parties have what they should. -/
structure Config.Bears (base : Descriptors) (first total : Nat) (x : Config) : Prop where
  driver : x.driver.Bears base first total x.children.length x.host.pipes.length
  child : ∀ i (c : Child), x.children[i]? = some c → c.Bears base first total i

/-- There are no more processes than stages, and the pipes behind those that there are were made. -/
theorem Config.Bears.bounds {x : Config} (h : x.Bears base first total) :
    x.children.length ≤ total ∧
      first + min x.children.length (total - 1) ≤ x.host.pipes.length := by
  have hlt {i : Nat} {d : Descriptors} {input : Option Nat} {ends : Option (Nat × Nat)}
      (hoffers : Offers base first total i d input ends) : i < total := by
    cases hoffers <;> omega
  have hdriver := h.driver
  cases hx : x.driver with
  | making d input =>
    rw [hx] at hdriver
    obtain ⟨hmade, hpipes, -⟩ := hdriver
    omega
  | forking d input ends =>
    rw [hx] at hdriver
    obtain ⟨hpipes, hoffers⟩ := hdriver
    have := hlt hoffers
    omega
  | closing d input ends =>
    rw [hx] at hdriver
    obtain ⟨i, hmade, hpipes, hoffers⟩ := hdriver
    have := hlt hoffers
    omega
  | waiting d waited status =>
    rw [hx] at hdriver
    obtain ⟨hmade, hpipes, -⟩ := hdriver
    omega
  | returned status =>
    rw [hx] at hdriver
    obtain ⟨hmade, hpipes⟩ := hdriver
    omega

/-- What stands at a place in a list with one more process. -/
theorem eq_of_getElem?_concat {cs : List Child} {c c' : Child}
    (h : (cs ++ [c])[i]? = some c') : cs[i]? = some c' ∨ (i = cs.length ∧ c' = c) := by
  rw [List.getElem?_append] at h
  split at h
  · exact .inl h
  · next hi =>
    rw [List.getElem?_singleton] at h
    split at h
    · exact .inr ⟨by omega, (Option.some.inj h).symm⟩
    · cases h

/-- What stands at a place in a list once one of its processes has gone on. -/
theorem eq_of_getElem?_set {cs : List Child} {c c' : Child} {j : Nat}
    (h : (cs.set i c)[j]? = some c') : (i = j ∧ c' = c) ∨ (i ≠ j ∧ cs[j]? = some c') := by
  rw [List.getElem?_set] at h
  split at h
  · next hij =>
    split at h
    · exact .inl ⟨hij, (Option.some.inj h).symm⟩
    · cases h
  · next hij => exact .inr ⟨hij, h⟩

variable {sh : Shell} {registry : Registry} {stages : List Stage} {x y : Config}

/-- All parties go on to have what they should. -/
theorem Step.bears (hinput : base.get? 0 ≠ none) (houtput : base.get? 1 ≠ none)
    (hstep : Step sh registry stages x y) (hx : x.Bears base first stages.length) :
    y.Bears base first stages.length := by
  obtain ⟨hdriver, hchild⟩ := hx
  cases hstep with
  | @pipes h d input cs hmore =>
    obtain ⟨-, hpipes, hkeeps⟩ := hdriver
    have hid : h.newPipe.1 = first + cs.length := hpipes
    refine ⟨⟨?_, ?_⟩, hchild⟩
    · simp only [Host.newPipe, List.length_append, List.length_singleton] at hpipes ⊢
      omega
    · rw [hid]
      exact hkeeps.offers hmore
  | last hlast =>
    obtain ⟨-, hpipes, hkeeps⟩ := hdriver
    refine ⟨⟨?_, .last hlast hkeeps⟩, hchild⟩
    dsimp only at hpipes ⊢
    omega
  | @forks h d input ends cs =>
    obtain ⟨hpipes, hoffers⟩ := hdriver
    refine ⟨⟨cs.length, ?_, ?_, hoffers⟩, ?_⟩
    · rw [List.length_append, List.length_singleton]
    · rw [List.length_append, List.length_singleton]
      exact hpipes
    · intro i c hc
      rcases eq_of_getElem?_concat hc with hc | ⟨rfl, rfl⟩
      · exact hchild i c hc
      · exact ⟨hoffers, fun _ hstreams => absurd hstreams.symm (Option.some_ne_none _)⟩
  | closes =>
    obtain ⟨i, hmade, hpipes, hoffers⟩ := hdriver
    obtain ⟨hmore, hkeeps⟩ := hoffers.next
    dsimp only at hmade hpipes
    refine ⟨⟨?_, ?_, hmade ▸ hkeeps⟩, hchild⟩ <;> dsimp only <;> omega
  | closesLast =>
    obtain ⟨i, hmade, hpipes, hoffers⟩ := hdriver
    obtain ⟨hlast, hbase⟩ := hoffers.done
    exact ⟨⟨hmade.trans hlast, hpipes, hbase⟩, hchild⟩
  | waits _ htake =>
    obtain ⟨hmade, hpipes, hbase⟩ := hdriver
    refine ⟨⟨hmade, ?_, hbase⟩, hchild⟩
    rw [(Host.takeEnding_eq_some htake).2.1]
    exact hpipes
  | returns => exact ⟨⟨hdriver.1, hdriver.2.1⟩, hchild⟩
  | @child _ i stage c c' h' hc _ hacts =>
    have hlength : h'.pipes.length = x.host.pipes.length := hacts.pipes
    refine ⟨?_, ?_⟩
    · simp only [List.length_set, hlength]
      exact hdriver
    · intro j c'' hj
      rcases eq_of_getElem?_set hj with ⟨rfl, rfl⟩ | ⟨-, hj⟩
      · exact hacts.bears hinput houtput (hchild _ c hc)
      · exact hchild j c'' hj

/-- Whatever the order of their steps, all parties have what they should. -/
theorem bears_of_reaches (hinput : sh.process.descriptors.get? 0 ≠ none)
    (houtput : sh.process.descriptors.get? 1 ≠ none) (hne : stages ≠ [])
    (h : Reaches sh registry stages x) :
    x.Bears sh.process.descriptors sh.host.pipes.length stages.length := by
  induction h with
  | refl => exact ⟨⟨List.length_pos_iff.mpr hne, rfl, keeps_start _ _⟩, by simp⟩
  | tail _ hstep ih => exact hstep.bears hinput houtput ih

end Flow

end CommandShell
