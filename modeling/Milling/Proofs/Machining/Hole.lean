import Mathlib
import Milling.Machining.Holes

/-!
# The points of a hole

What a tool passes while it drills a hole depends on the hole alone, not on
where the tool came from: every move but the first starts above the hole.  So
the path of a drilling is its first rapid and, hole by hole, the points of each.
-/

namespace Milling

variable {α : Type}

/-- A position lies above a place, or below it. -/
structure Position.IsOver (position : Position α) (place : PlanePoint α) : Prop where
  x : position.x = place.x
  y : position.y = place.y

namespace Cutter

/-- A point with the tool and the spindle speed of its operation. -/
def stamped (cut : CutSettings α) (point : MotionPoint α) : MotionPoint α :=
  { point with tool := cut.tool.number, spindle := some cut.spindle }

@[simp] theorem cut_foldl_push (path : List (MotionPoint α)) (cutter : Cutter α) :
    (path.foldl push cutter).cut = cutter.cut := by
  induction path generalizing cutter with
  | nil => rfl
  | cons point path ih => exact ih (cutter.push point)

theorem passed_foldl_push (path : List (MotionPoint α)) (cutter : Cutter α) :
    (path.foldl push cutter).passed =
      (path.map (stamped cutter.cut)).reverse ++ cutter.passed := by
  induction path generalizing cutter with
  | nil => rfl
  | cons point path ih =>
      rw [List.foldl_cons, ih, List.map_cons, List.reverse_cons, List.append_assoc]
      rfl

/-- A tool that is above a place stays there as long as its moves do. -/
theorem isOver_foldl_push {path : List (MotionPoint α)} {target : PlanePoint α}
    (stays : ∀ point ∈ path, point.position.IsOver target) {cutter : Cutter α}
    (starts : cutter.position.IsOver target) :
    (path.foldl push cutter).position.IsOver target := by
  induction path generalizing cutter with
  | nil => exact starts
  | cons point path ih =>
      exact ih (fun other later => stays other (List.mem_cons_of_mem point later))
        (stays point List.mem_cons_self)

end Cutter

open Cutter

namespace Drilling

variable [Scalar α]

/-- The height to which the tool is lifted after each plunge. -/
def liftHeight (drilling : Drilling α) : α :=
  if drilling.isPecking then drilling.retract else drilling.clearance

/-- The tool waits at the bottom of each hole. -/
def waits (drilling : Drilling α) : Bool := decide (0 < drilling.dwell)

/-- The moves of a plunge: down to its level, after the last one a pause if there
is one, and up again. -/
def strokeMoves (drilling : Drilling α) (target : PlanePoint α) (level : α) (isLast : Bool) :
    List (MotionPoint α) :=
  { MotionPoint.linear target.x target.y level with feed := some drilling.cut.feed } ::
    ((if isLast && drilling.waits then
        [{ position := { x := target.x, y := target.y, z := level }
           motion := .dwell drilling.dwell }]
      else []) ++
      [.rapid target.x target.y drilling.liftHeight])

def strokesMoves (drilling : Drilling α) (target : PlanePoint α) :
    List α → List (MotionPoint α)
  | [] => []
  | level :: levels =>
      drilling.strokeMoves target level levels.isEmpty ++ drilling.strokesMoves target levels

def holeMoves (drilling : Drilling α) (target : PlanePoint α) : List (MotionPoint α) :=
  .rapid target.x target.y drilling.clearance ::
    (drilling.strokesMoves target drilling.plunges ++
      if drilling.isPecking && drilling.clearance != drilling.retract then
        [.rapid target.x target.y drilling.clearance]
      else [])

/-- The points of a hole, as its tool passes them. -/
def holePath (drilling : Drilling α) (target : PlanePoint α) : List (MotionPoint α) :=
  (drilling.holeMoves target).map (stamped drilling.cut)

variable {drilling : Drilling α} {target : PlanePoint α}

theorem isOver_of_mem_strokeMoves {level : α} {isLast : Bool} {point : MotionPoint α}
    (member : point ∈ drilling.strokeMoves target level isLast) :
    point.position.IsOver target := by
  rcases List.mem_cons.mp member with rfl | later
  · exact ⟨rfl, rfl⟩
  · rcases List.mem_append.mp later with pause | lift
    · split at pause
      · obtain rfl := List.mem_singleton.mp pause
        exact ⟨rfl, rfl⟩
      · cases pause
    · obtain rfl := List.mem_singleton.mp lift
      exact ⟨rfl, rfl⟩

theorem exists_mem_strokeMoves {levels : List α} {point : MotionPoint α}
    (member : point ∈ drilling.strokesMoves target levels) :
    ∃ level isLast, point ∈ drilling.strokeMoves target level isLast := by
  induction levels with
  | nil => cases member
  | cons level levels ih =>
      rcases List.mem_append.mp member with here | later
      · exact ⟨level, levels.isEmpty, here⟩
      · exact ih later

theorem isOver_of_mem_strokesMoves {levels : List α} {point : MotionPoint α}
    (member : point ∈ drilling.strokesMoves target levels) :
    point.position.IsOver target := by
  obtain ⟨level, isLast, here⟩ := exists_mem_strokeMoves member
  exact isOver_of_mem_strokeMoves here

theorem cutPlunge_eq_foldl (pecking : drilling.isPecking = true) {cutter : Cutter α}
    (isCut : cutter.cut = drilling.cut) (level : α) (isLast : Bool) :
    drilling.cutPlunge target cutter level isLast =
      (drilling.strokeMoves target level isLast).foldl push cutter := by
  rw [cutPlunge, strokeMoves, liftHeight, waits, ← isCut, pecking]
  cases isLast && decide (0 < drilling.dwell) <;> rfl

theorem cutPlunges_eq_foldl (pecking : drilling.isPecking = true) (levels : List α)
    {cutter : Cutter α} (isCut : cutter.cut = drilling.cut) :
    drilling.cutPlunges target cutter levels =
      (drilling.strokesMoves target levels).foldl push cutter := by
  induction levels generalizing cutter with
  | nil => rfl
  | cons level levels ih =>
      rw [cutPlunges, cutPlunge_eq_foldl pecking isCut,
        ih ((cut_foldl_push _ cutter).trans isCut), strokesMoves, List.foldl_append]

/-- A hole is drilled by its moves, wherever the tool comes from. -/
theorem cutHole_eq_foldl {cutter : Cutter α} (isCut : cutter.cut = drilling.cut) :
    drilling.cutHole cutter target = (drilling.holeMoves target).foldl push cutter := by
  cases pecking : drilling.isPecking with
  | false =>
      -- The one plunge is not lifted by itself, but with the whole hole.
      simp only [cutHole, holeMoves, plunges, liftHeight, waits, pecking, ← isCut, strokesMoves,
        strokeMoves, cutPlunges, cutPlunge, List.isEmpty_nil, Bool.true_and, Bool.false_eq_true,
        if_false]
      cases decide (0 < drilling.dwell) <;> rfl
  | true =>
      have strokes : drilling.cutPlunges target
          (cutter.rapid target.x target.y drilling.clearance) drilling.plunges = _ :=
        cutPlunges_eq_foldl pecking drilling.plunges isCut
      rw [cutHole, strokes, holeMoves, List.foldl_cons, List.foldl_append]
      simp only [pecking, Bool.not_true, Bool.false_or, Bool.true_and]
      cases drilling.clearance != drilling.retract with
      | false => rfl
      | true =>
          have starts :
              (cutter.rapid target.x target.y drilling.clearance).position.IsOver target :=
            ⟨rfl, rfl⟩
          have stays : ∀ point ∈ drilling.strokesMoves target drilling.plunges,
              point.position.IsOver target :=
            fun point => isOver_of_mem_strokesMoves
          obtain ⟨x, y⟩ := isOver_foldl_push stays starts
          rw [if_pos rfl, rapidHeight, x, y]
          rfl

theorem foldl_cutHole_eq_foldl (targets : List (PlanePoint α)) {cutter : Cutter α}
    (isCut : cutter.cut = drilling.cut) :
    targets.foldl drilling.cutHole cutter =
      (targets.flatMap drilling.holeMoves).foldl push cutter := by
  induction targets generalizing cutter with
  | nil => rfl
  | cons target targets ih =>
      rw [List.foldl_cons, cutHole_eq_foldl isCut, ih ((cut_foldl_push _ cutter).trans isCut),
        List.flatMap_cons, List.foldl_append]

def firstPoint (drilling : Drilling α) : MotionPoint α :=
  stamped drilling.cut (.rapid 0 0 drilling.cut.clearanceZ)

/-- A drilling passes its first point, and then the points of each hole in order. -/
theorem toolpath_eq (drilling : Drilling α) :
    drilling.toolpath = {
      points := drilling.firstPoint :: drilling.points.flatMap drilling.holePath
      tool := some drilling.cut.tool.number
      diameter := some drilling.cut.tool.diameter } := by
  have drilled : drilling.points.foldl drilling.cutHole (start drilling.cut) = _ :=
    foldl_cutHole_eq_foldl drilling.points rfl
  rw [toolpath, drilled, Cutter.toolpath, passed_foldl_push, cut_foldl_push]
  simp only [List.reverse_append, List.reverse_reverse, List.map_flatMap]
  rfl

/-- The points of a hole do not depend on the other holes. -/
theorem holePath_withPoints (drilling : Drilling α) (points : List (PlanePoint α))
    (target : PlanePoint α) :
    ({ drilling with points } : Drilling α).holePath target = drilling.holePath target := by
  have strokes (levels : List α) :
      ({ drilling with points } : Drilling α).strokesMoves target levels =
        drilling.strokesMoves target levels := by
    induction levels with
    | nil => rfl
    | cons level levels ih => exact congrArg (drilling.strokeMoves target level _ ++ ·) ih
  rw [holePath, holeMoves, strokes]
  rfl

/-- Drilling other holes passes the same first point, and the points of those holes. -/
theorem toolpath_withPoints (drilling : Drilling α) (points : List (PlanePoint α)) :
    ({ drilling with points } : Drilling α).toolpath =
      { drilling.toolpath with
        points := drilling.firstPoint :: points.flatMap drilling.holePath } := by
  rw [toolpath_eq, toolpath_eq, List.flatMap_congr fun target _ =>
    holePath_withPoints drilling points target]
  rfl

end Drilling

end Milling
