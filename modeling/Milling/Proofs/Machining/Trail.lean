import Mathlib
import Milling.Machining.Generation
import Milling.Machining.Verification
import Milling.Proofs.Scalar.Exact

/-!
# Safe paths

A path is safe when it never goes below the depth of its operation, never
rapids below the top of the stock, and never rapids across from below it.
Whether a point may follow another is decided by the two points alone, so a
path is safe that starts with its first rapid and goes on by allowed points.
-/

namespace Milling

variable {α : Type}

namespace Operation

/-- The operation is a pocket that is entered by plunges. -/
def IsPlunging : Operation α → Prop
  | .contour _ => False
  | .pocket cavity => cavity.ramp = .plunge
  | .drill _ => False

/-- The height at which the operation leaves the tool. -/
def finalHeight : Operation α → α
  | .contour profile => profile.cut.safeZ
  | .pocket cavity => cavity.cut.safeZ
  | .drill holes => holes.clearance

variable [ExactScalar α]

/-- No height of travel is below the top of the stock. -/
structure TravelsAbove (operation : Operation α) : Prop where
  safe : 0 ≤ operation.cut.safeZ
  first : 0 ≤ operation.cut.clearanceZ
  holes : ∀ holes, operation = .drill holes → 0 ≤ holes.clearance ∧ 0 ≤ holes.retract

/-- The tool goes straight down at half feed, from where a rapid took it. -/
structure Plunges (operation : Operation α) (before point : MotionPoint α) : Prop where
  plunging : operation.IsPlunging
  rapid : before.motion = .rapid
  height : before.position.z = operation.cut.safeZ
  down : before.position.x = point.position.x ∧ before.position.y = point.position.y
  feed : point.feed = some (operation.cut.feed / 2)

/-- A point may follow another one. -/
structure Allows (operation : Operation α) (before point : MotionPoint α) : Prop where
  tool : point.tool = operation.tool.number
  spindle : point.spindle = some operation.cut.spindle
  feed : point.isCutting = true →
    point.feed = some operation.cut.feed ∨ operation.Plunges before point
  deep : operation.depth ≤ point.position.z
  rapid : point.motion = .rapid → 0 ≤ point.position.z
  across : point.motion = .rapid →
    before.position.x ≠ point.position.x ∨ before.position.y ≠ point.position.y →
      0 ≤ before.position.z

/-- A path of the operation that is safe for machine and stock. -/
structure Safe (operation : Operation α) (path : Toolpath α) : Prop where
  first : ∃ point, path.points.head? = some point ∧ point.motion = .rapid ∧
    point.position = { x := 0, y := 0, z := operation.cut.clearanceZ }
  carries : ∀ point ∈ path.points,
    point.tool = operation.tool.number ∧ point.spindle = some operation.cut.spindle
  feeds : ∀ front before point back, path.points = front ++ before :: point :: back →
    point.isCutting = true →
      point.feed = some operation.cut.feed ∨ operation.Plunges before point
  deep : ∀ point ∈ path.points, operation.depth ≤ point.position.z
  bottom : ∃ point ∈ path.points,
    point.isCutting = true ∧ point.position.z = operation.depth
  rapids : ∀ point ∈ path.points, point.motion = .rapid → 0 ≤ point.position.z
  across : ∀ front before point back, path.points = front ++ before :: point :: back →
    point.motion = .rapid →
      before.position.x ≠ point.position.x ∨ before.position.y ≠ point.position.y →
        0 ≤ before.position.z
  verified : ∀ limits diameter index,
    Fault.rapidIntoMaterial index ∉ (path.verify limits diameter).warnings
  last : ∃ point, path.points.getLast? = some point ∧ point.motion = .rapid ∧
    point.position.z = operation.finalHeight

/-- Points that an operation may pass, latest first. -/
inductive Trail (operation : Operation α) : List (MotionPoint α) → Prop where
  | start {point : MotionPoint α} (tool : point.tool = operation.tool.number)
      (spindle : point.spindle = some operation.cut.spindle)
      (rapid : point.motion = .rapid)
      (place : point.position = { x := 0, y := 0, z := operation.cut.clearanceZ }) :
      Trail operation [point]
  | step {before point : MotionPoint α} {earlier : List (MotionPoint α)}
      (allowed : operation.Allows before point)
      (rest : Trail operation (before :: earlier)) :
      Trail operation (point :: before :: earlier)

end Operation

theorem Report.mem_warningIf {condition : Bool} {fault found : Fault α} :
    found ∈ (Report.warningIf condition fault).warnings ↔
      condition = true ∧ found = fault := by
  cases condition <;> simp [Report.warningIf, Report.warning]

namespace Toolpath

variable [ExactScalar α]

theorem outOfReach_warnings (limits : Limits α) (line : Nat) (position : Position α) :
    (outOfReach limits line position).warnings = [] := by
  have silent (condition : Bool) (fault : Fault α) :
      (Report.errorIf condition fault).warnings = [] := by
    cases condition <;> rfl
  have appended (first second : Report α) :
      (first ++ second).warnings = first.warnings ++ second.warnings := rfl
  simp only [outOfReach, appended, silent, List.append_nil]

theorem rapidIntoMaterial_notMem_verifyPoint {before : Option (MotionPoint α)}
    {point : MotionPoint α} (high : point.motion = .rapid → 0 ≤ point.position.z)
    (limits : Limits α) (shortest : α) (found index : Nat) :
    Fault.rapidIntoMaterial found ∉
      (verifyPoint limits shortest before index point).warnings := by
  have stays : entersRapidly before point = false := by
    cases before with
    | none => rfl
    | some before =>
        cases motion : point.motion with
        | rapid =>
            have above := not_lt.mpr (high motion)
            simp [entersRapidly, MotionPoint.kind, motion, Motion.kind, above,
              ExactScalar.literal_zero]
        | linear => simp [entersRapidly, MotionPoint.kind, motion, Motion.kind]
        | arc shape => simp [entersRapidly, MotionPoint.kind, motion, Motion.kind]
        | drill cycle => simp [entersRapidly, MotionPoint.kind, motion, Motion.kind]
        | dwell seconds => simp [entersRapidly, MotionPoint.kind, motion, Motion.kind]
  have appended (first second : Report α) :
      (first ++ second).warnings = first.warnings ++ second.warnings := rfl
  simp only [verifyPoint, appended, outOfReach_warnings, stays, List.append_nil]
  intro isFound
  rcases List.mem_append.mp isFound with entered | short
  · cases entered
  · split at short
    · cases (Report.mem_warningIf.mp short).2
    · cases short

theorem rapidIntoMaterial_notMem_verify {path : Toolpath α}
    (high : ∀ point ∈ path.points, point.motion = .rapid → 0 ≤ point.position.z)
    (limits : Limits α) (diameter : α) (index : Nat) :
    Fault.rapidIntoMaterial index ∉ (path.verify limits diameter).warnings := by
  intro isFound
  simp only [verify, Report.concat, List.mem_flatMap, List.mem_map] at isFound
  obtain ⟨_, ⟨⟨⟨point, before⟩, place⟩, isPlaced, rfl⟩, isWarning⟩ := isFound
  have isPoint : point ∈ path.points :=
    (List.of_mem_zip (List.fst_mem_of_mem_zipIdx isPlaced)).1
  exact rapidIntoMaterial_notMem_verifyPoint (high point isPoint) limits _ index place
    isWarning

end Toolpath

namespace Operation

variable [ExactScalar α] {operation : Operation α}

namespace Trail

theorem first {passed : List (MotionPoint α)} (trail : Trail operation passed) :
    ∃ point, passed.getLast? = some point ∧ point.motion = .rapid ∧
      point.position = { x := 0, y := 0, z := operation.cut.clearanceZ } := by
  induction trail with
  | start tool spindle rapid place => exact ⟨_, rfl, rapid, place⟩
  | step allowed rest ih =>
      rw [List.getLast?_cons_cons]
      exact ih

theorem carries {passed : List (MotionPoint α)} (trail : Trail operation passed) :
    ∀ point ∈ passed,
      point.tool = operation.tool.number ∧ point.spindle = some operation.cut.spindle := by
  induction trail with
  | start tool spindle rapid place =>
      intro point isPoint
      obtain rfl := List.mem_singleton.mp isPoint
      exact ⟨tool, spindle⟩
  | step allowed rest ih =>
      intro point isPoint
      rcases List.mem_cons.mp isPoint with rfl | earlier
      · exact ⟨allowed.tool, allowed.spindle⟩
      · exact ih point earlier

theorem heights {passed : List (MotionPoint α)} (trail : Trail operation passed)
    (below : operation.depth ≤ 0) (above : 0 ≤ operation.cut.clearanceZ) :
    ∀ point ∈ passed, operation.depth ≤ point.position.z ∧
      (point.motion = .rapid → 0 ≤ point.position.z) := by
  induction trail with
  | start tool spindle rapid place =>
      intro point isPoint
      obtain rfl := List.mem_singleton.mp isPoint
      rw [place]
      exact ⟨below.trans above, fun _ => above⟩
  | step allowed rest ih =>
      intro point isPoint
      rcases List.mem_cons.mp isPoint with rfl | earlier
      · exact ⟨allowed.deep, allowed.rapid⟩
      · exact ih point earlier

theorem allows {later earlier : List (MotionPoint α)} {before point : MotionPoint α}
    (trail : Trail operation (later ++ point :: before :: earlier)) :
    operation.Allows before point := by
  induction later with
  | nil =>
      cases trail with
      | step allowed rest => exact allowed
  | cons head later ih =>
      cases later with
      | nil =>
          cases trail with
          | step allowed rest => exact ih rest
      | cons second later =>
          cases trail with
          | step allowed rest => exact ih rest

theorem safe {path : Toolpath α} {last : MotionPoint α} {earlier : List (MotionPoint α)}
    (trail : Trail operation (last :: earlier))
    (points : path.points = (last :: earlier).reverse)
    (below : operation.depth ≤ 0) (travels : operation.TravelsAbove)
    (bottom : ∃ point ∈ last :: earlier,
      point.isCutting = true ∧ point.position.z = operation.depth)
    (rapid : last.motion = .rapid) (height : last.position.z = operation.finalHeight) :
    operation.Safe path := by
  have inTrail (point : MotionPoint α) (isPoint : point ∈ path.points) :
      point ∈ last :: earlier := by
    rw [points] at isPoint
    exact List.mem_reverse.mp isPoint
  have consecutive (front : List (MotionPoint α)) (before point : MotionPoint α)
      (back : List (MotionPoint α)) (split : path.points = front ++ before :: point :: back) :
      operation.Allows before point := by
    have turned : last :: earlier = back.reverse ++ point :: before :: front.reverse := by
      rw [← List.reverse_reverse (last :: earlier), ← points, split]
      simp
    rw [turned] at trail
    exact trail.allows
  have high (point : MotionPoint α) (isPoint : point ∈ path.points) :=
    trail.heights below travels.first point (inTrail point isPoint)
  refine
    { first := ?_
      carries := fun point isPoint => trail.carries point (inTrail point isPoint)
      feeds := fun front before point back split =>
        (consecutive front before point back split).feed
      deep := fun point isPoint => (high point isPoint).1
      bottom := ?_
      rapids := fun point isPoint => (high point isPoint).2
      across := fun front before point back split =>
        (consecutive front before point back split).across
      verified := Toolpath.rapidIntoMaterial_notMem_verify fun point isPoint =>
        (high point isPoint).2
      last := ⟨last, ?_, rapid, height⟩ }
  · rw [points, List.head?_reverse]
    exact trail.first
  · obtain ⟨point, isPoint, cutting, deep⟩ := bottom
    refine ⟨point, ?_, cutting, deep⟩
    rw [points]
    exact List.mem_reverse.mpr isPoint
  · rw [points, List.getLast?_reverse]
    rfl

end Trail

end Operation

end Milling
