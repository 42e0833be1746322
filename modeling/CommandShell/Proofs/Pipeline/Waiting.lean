import CommandShell.Proofs.Pipeline.Ends

/-!
# Waiting for the stages of a pipeline

Whatever the order in which the parties of a pipeline take their steps, the driver waits for
processes that have ended, and knows how they have: `waits_of_reaches`.
-/

namespace CommandShell.Flow

/-- Whether the process of a stage has ended in some way. -/
def Config.HasEnded (x : Config) (i : Nat) (e : Ending) : Prop :=
  ∃ c, x.children[i]? = some c ∧ c.phase = .exited e

variable {sh : Shell} {registry : Registry} {stages : List Stage} {x y : Config}
  {first total i : Nat}

/-! ## Processes that end -/

/-- Whether processes are told apart by their numbers, and are known to have ended in no other way
than they have. -/
structure Config.Counts (x : Config) : Prop where
  fresh : ∀ e ∈ x.host.endings, e.1 < x.host.nextProcess
  number : ∀ (i : Nat) (c : Child), x.children[i]? = some c →
    c.process.number < x.host.nextProcess
  distinct : ∀ (i j : Nat) (c c' : Child), x.children[i]? = some c → x.children[j]? = some c' →
    c.process.number = c'.process.number → i = j
  ended : ∀ (i : Nat) (c : Child) (e : Ending), x.children[i]? = some c →
    (c.process.number, e) ∈ x.host.endings → c.phase = .exited e

/-- A process goes on as long as it has not ended, and all that is noted then is how it ends. -/
theorem Child.Step.ends {stage : Stage} {h h' : Host} {c c' : Child}
    (hstep : Child.Step sh registry stage h c h' c') (hc : c.Fits first total i) :
    (∀ e, c.phase ≠ .exited e) ∧ c'.process.number = c.process.number ∧
      h.nextProcess ≤ h'.nextProcess ∧
      ∀ n e, (n, e) ∈ h'.endings →
        (n, e) ∈ h.endings ∨ (n = c.process.number ∧ c'.phase = .exited e) := by
  have hrunning {streams : Streams} (hruns : c.Runs streams) (e : Ending) :
      c.phase ≠ .exited e := by
    rcases hruns.1 with hphase | hphase <;> rw [hphase] <;> exact nofun
  have hnone (heq : h'.endings = h.endings) (n : Nat) (e : Ending) (he : (n, e) ∈ h'.endings) :
      (n, e) ∈ h.endings ∨ (n = c.process.number ∧ c'.phase = .exited e) := .inl (heq ▸ he)
  cases hstep with
  | wires hphase => exact ⟨by rw [hphase]; exact nofun, rfl, Nat.le_refl _, hnone rfl⟩
  | opens hphase hopens =>
    have halong := (hc.opens hphase hopens).2.1
    exact ⟨by rw [hphase]; exact nofun, rfl, Nat.le_of_eq halong.nextProcess.symm,
      hnone halong.endings⟩
  | launches _ hruns => exact ⟨hrunning hruns, rfl, Nat.le_refl _, hnone rfl⟩
  | reads hruns _ hread =>
    have halong := (Host.read_passes hread).1
    exact ⟨hrunning hruns, rfl, Nat.le_of_eq halong.nextProcess.symm, hnone halong.endings⟩
  | writes hruns _ hsend =>
    have halong := (Host.send_passes hsend).1
    exact ⟨hrunning hruns, rfl, Nat.le_of_eq halong.nextProcess.symm, hnone halong.endings⟩
  | others hruns _ hendings hnext => exact ⟨hrunning hruns, rfl, hnext, hnone hendings⟩
  | exits e halive =>
    refine ⟨halive, rfl, Nat.le_refl _, ?_⟩
    intro n e' he'
    refine (List.mem_append.mp he').imp_right ?_
    intro hnoted
    obtain ⟨rfl, rfl⟩ := Prod.mk.inj (List.mem_singleton.mp hnoted)
    exact ⟨rfl, rfl⟩

/-- A process that gets the next number is told apart from the others. -/
theorem Config.Counts.fork {h : Host} {driver driver' : Driver} {cs : List Child} {c : Child}
    (hx : (⟨h, driver, cs⟩ : Config).Counts) (hc : c.process.number = h.nextProcess) :
    (⟨h.newProcess.2, driver', cs ++ [c]⟩ : Config).Counts := by
  obtain ⟨hfresh, hnumber, hdistinct, hended⟩ := hx
  have hold (i : Nat) (b : Child) (hb : cs[i]? = some b) :
      b.process.number ≠ c.process.number := by
    rw [hc]
    exact Nat.ne_of_lt (hnumber i b hb)
  refine ⟨fun e he => Nat.lt_succ_of_lt (hfresh e he), ?_, ?_, ?_⟩
  · intro i b hb
    rcases eq_of_getElem?_concat hb with hb | ⟨-, rfl⟩
    · exact Nat.lt_succ_of_lt (hnumber i b hb)
    · exact Nat.lt_succ_of_le (Nat.le_of_eq hc)
  · intro i j b b' hb hb' heq
    rcases eq_of_getElem?_concat hb with hi | ⟨hi, rfl⟩ <;>
      rcases eq_of_getElem?_concat hb' with hj | ⟨hj, rfl⟩
    · exact hdistinct i j b b' hi hj heq
    · exact absurd heq (hold i b hi)
    · exact absurd heq.symm (hold j b' hj)
    · exact hi.trans hj.symm
  · intro i b e hb he
    rcases eq_of_getElem?_concat hb with hb | ⟨-, rfl⟩
    · exact hended i b e hb he
    · exact absurd (hfresh _ he) (Nat.not_lt_of_le (Nat.le_of_eq hc.symm))

/-- Processes stay told apart when one of them goes on. -/
theorem Config.Counts.child {stage : Stage} {c c' : Child} {h' : Host} (hx : x.Counts)
    (hc : x.children[i]? = some c) (hacts : Child.Step sh registry stage x.shared c h' c')
    (hfits : c.Fits first total i) :
    (⟨{ h' with held := x.host.held }, x.driver, x.children.set i c'⟩ : Config).Counts := by
  obtain ⟨hfresh, hnumber, hdistinct, hended⟩ := hx
  obtain ⟨halive, hsame, hnext, hnoted⟩ := hacts.ends hfits
  -- The number of a process stays the same when it goes on.
  have hwas (j : Nat) (d : Child) (hj : (x.children.set i c')[j]? = some d) :
      ∃ b, x.children[j]? = some b ∧ d.process.number = b.process.number := by
    rcases eq_of_getElem?_set hj with ⟨rfl, rfl⟩ | ⟨-, hj⟩
    · exact ⟨c, hc, hsame⟩
    · exact ⟨d, hj, rfl⟩
  refine ⟨?_, ?_, ?_, ?_⟩
  · rintro ⟨n, e⟩ he
    refine Nat.lt_of_lt_of_le ?_ hnext
    rcases hnoted n e he with he | ⟨rfl, -⟩
    · exact hfresh _ he
    · exact hnumber i c hc
  · intro j d hj
    obtain ⟨b, hb, hn⟩ := hwas j d hj
    rw [hn]
    exact Nat.lt_of_lt_of_le (hnumber j b hb) hnext
  · intro j k d d' hj hk heq
    obtain ⟨b, hb, hn⟩ := hwas j d hj
    obtain ⟨b', hb', hn'⟩ := hwas k d' hk
    exact hdistinct j k b b' hb hb' (hn.symm.trans (heq.trans hn'))
  · intro j d e hj he
    rcases eq_of_getElem?_set hj with ⟨rfl, rfl⟩ | ⟨hij, hj⟩
    · rw [hsame] at he
      rcases hnoted _ e he with he | ⟨-, hphase⟩
      · exact absurd (hended i c e hc he) (halive e)
      · exact hphase
    · rcases hnoted _ e he with he | ⟨hnumbers, -⟩
      · exact hended j d e hj he
      · exact absurd (hdistinct j i d c hj hc hnumbers) (Ne.symm hij)

/-- Processes stay told apart. -/
theorem Step.counts (hstep : Step sh registry stages x y) (hfits : x.Fits first stages.length)
    (hx : x.Counts) : y.Counts := by
  cases hstep with
  | pipes | last | closes | closesLast | returns =>
    exact ⟨hx.fresh, hx.number, hx.distinct, hx.ended⟩
  | forks => exact hx.fork rfl
  | waits _ htake =>
    obtain ⟨-, -, hnext, hendings⟩ := Host.takeEnding_eq_some htake
    refine ⟨?_, ?_, hx.distinct, ?_⟩
    · intro e he
      rw [hendings] at he
      rw [hnext]
      exact hx.fresh e (List.mem_filter.mp he).1
    · intro i c hc
      rw [hnext]
      exact hx.number i c hc
    · intro i c e hc he
      rw [hendings] at he
      exact hx.ended i c e hc (List.mem_filter.mp he).1
  | child hc _ hacts => exact hx.child hc hacts (hfits.child _ _ hc)

/-- Whether the driver has waited for processes that have ended, and knows how the last one has
ended once it has waited for all. -/
def Config.Waits (total : Nat) (x : Config) : Prop :=
  match x.driver with
  | .waiting _ waited status => (∀ i < waited, ∃ e, x.HasEnded i e) ∧
      (waited = total → ∃ e, x.HasEnded (total - 1) e ∧ status = e.waitedStatus)
  | .returned status => (∀ i < total, ∃ e, x.HasEnded i e) ∧
      ∃ e, x.HasEnded (total - 1) e ∧ status = e.waitedStatus
  | _ => True

/-- What has been waited for stays so. -/
theorem Config.Waits.mono {total : Nat} (hx : x.Waits total) (hdriver : y.driver = x.driver)
    (hended : ∀ i e, x.HasEnded i e → y.HasEnded i e) : y.Waits total := by
  rw [Config.Waits] at hx ⊢
  rw [hdriver]
  split
  · next hwaiting =>
    rw [hwaiting] at hx
    refine ⟨fun i hi => (hx.1 i hi).imp (hended i), ?_⟩
    intro hall
    exact (hx.2 hall).imp fun e he => ⟨hended _ e he.1, he.2⟩
  · next hreturned =>
    rw [hreturned] at hx
    exact ⟨fun i hi => (hx.1 i hi).imp (hended i),
      hx.2.imp fun e he => ⟨hended _ e he.1, he.2⟩⟩
  · trivial

end CommandShell.Flow
