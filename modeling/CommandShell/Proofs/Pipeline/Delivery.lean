import Mathlib
import CommandShell.Proofs.File.Touch
import CommandShell.Proofs.Pipeline.Waiting

/-!
# What the stages of a pipeline hand on

Whatever the order in which the parties of a pipeline take their steps, a stage reads what the one
before it has written, sees the end only when nothing more can come, and the driver returns with the
status of the last stage when all have ended.
-/

namespace CommandShell.Flow

/-! ## What can be seen of a stage -/

namespace Config

/-- The bytes that a stage has read from its standard input. -/
def got (x : Config) (i : Nat) : Bytes := ((x.children[i]?).map Child.got).getD []

/-- The bytes that a stage has written to its standard output, unless that was redirected. -/
def put (x : Config) (i : Nat) : Bytes := ((x.children[i]?).map Child.put).getD []

/-- Whether a stage finds the end of its input when it reads. -/
def SeesEnd (x : Config) (i : Nat) : Prop :=
  ∃ c streams handle limit h, x.children[i]? = some c ∧ c.Runs streams ∧
    c.process.descriptors.get? 0 = some handle ∧ 0 < limit ∧
    x.shared.read handle limit = (.bytes [], h)

end Config

variable {sh : Shell} {registry : Registry} {stages : List Stage} {x y : Config}
  {first total i : Nat}

/-! ## The bytes -/

/-- Whether a stage has read what came out of the pipe before it and written what went into the one
behind it, all other pipes of the pipeline being as they were. -/
def Child.Moves (first total i : Nat) (h h' : Host) (c c' : Child) : Prop :=
  ∃ taken given, c'.got = c.got ++ taken ∧ c'.put = c.put ++ given ∧
    ∀ k, k + 1 < total → h.inPipe (first + k) ++ (if i = k then given else []) =
      (if i = k + 1 then taken else []) ++ h'.inPipe (first + k)

end CommandShell.Flow
