import Milling.Machining.Clearing
import Milling.Machining.Holes

/-!
# Toolpaths of operations

The toolpath of a checked operation, and jobs that keep an operation together
with its toolpath.
-/

namespace Milling

variable {α : Type}

/-- An operation with the toolpath made for it last. -/
structure Job (α : Type) where
  operation : Operation α
  toolpath : Option (Toolpath α) := none
deriving Repr, DecidableEq

variable [Scalar α]

namespace Operation

/-- The toolpath of an operation, its parameters taken as they are. -/
def toolpathUnchecked (offsetter : Offsetter α) :
    Operation α → Except (MachiningError α) (Toolpath α)
  | .contour profile => profile.toolpath offsetter
  | .pocket cavity => cavity.toolpath offsetter
  | .drill holes => .ok holes.toolpath

def toolpath (offsetter : Offsetter α) (operation : Operation α) :
    Except (MachiningError α) (Toolpath α) :=
  match operation.check with
  | .ok () => operation.toolpathUnchecked offsetter
  | .error error => .error (.parameter error)

end Operation

/-- Makes the toolpath of a job, in place of the one before; a failure leaves
the job without one. -/
def Job.generate (offsetter : Offsetter α) (job : Job α) :
    Job α × Except (MachiningError α) (Toolpath α) :=
  match job.operation.toolpath offsetter with
  | .ok toolpath => ({ job with toolpath := some toolpath }, .ok toolpath)
  | .error error => ({ job with toolpath := none }, .error error)

end Milling
