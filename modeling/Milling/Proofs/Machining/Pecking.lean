import Milling.Proofs.Machining.Descent
import Milling.Proofs.Machining.Generation
import Milling.Proofs.Machining.Hole

/-!
# Holes are drilled one after the other

Over each hole the tool comes down to the clearance height, plunges level by level
with a lift after each plunge, and leaves at the clearance height.  Between holes
it therefore travels at that height alone.
-/

namespace Milling

open Cutter

variable {α : Type}

namespace Drilling

variable [ExactScalar α]

/-- A rapid up after a plunge: to the retract height in pecks, else to the clearance. -/
structure Lifts (drilling : Drilling α) (point : MotionPoint α) : Prop where
  rapid : point.motion = .rapid
  height : point.position.z =
    if 0 < drilling.peckDepth then drilling.retract else drilling.clearance

/-- A point may come after another one over the same hole: a plunge is lifted, at
the bottom of the hole after a pause. -/
structure Follows (drilling : Drilling α) (before point : MotionPoint α) : Prop where
  plunge : before.isCutting = true → point.isDwell = true ∨ drilling.Lifts point
  pause : before.isDwell = true → drilling.Lifts point
  bottom : point.isDwell = true →
    before.isCutting = true ∧ before.position.z = drilling.depth

variable {drilling : Drilling α} {target : PlanePoint α}

section Strokes

end Strokes

section Plunges

end Plunges

section Holes

end Holes

section Travel

end Travel

end Drilling

end Milling
