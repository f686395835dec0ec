import Mathlib
import Milling.Proofs.Offset.Rectangle
import Milling.Proofs.Offset.Reversal

/-!
# Rounded corners

On the outside of a corner the loop beside an outline goes around the corner on an arc.
-/

namespace Milling.Offsetter

noncomputable def quarter : ℝ := √2 - 1

/-- The loop around a rectangle with a corner at the origin. -/
noncomputable def outsetRectangle (width height distance : ℝ) : OffsetLoop ℝ :=
  { vertices := [
      { point := { x := 0, y := -distance }, bulge := 0 },
      { point := { x := width, y := -distance }, bulge := quarter },
      { point := { x := width + distance, y := 0 }, bulge := 0 },
      { point := { x := width + distance, y := height }, bulge := quarter },
      { point := { x := width, y := height + distance }, bulge := 0 },
      { point := { x := 0, y := height + distance }, bulge := quarter },
      { point := { x := -distance, y := height }, bulge := 0 },
      { point := { x := -distance, y := 0 }, bulge := quarter }]
    closed := true }

/-- The loops beside a rectangle with a corner at the origin, rounded outside of it. -/
noncomputable def aroundRectangle (width height : ℝ) : Offsetter ℝ := fun outline distance =>
  if distance < 0 then some [outsetRectangle width height (-distance)]
  else rectangular width height outline distance

variable {width height distance : ℝ}

theorem signedArea_outsetRectangle (width height distance : ℝ) :
    (outsetRectangle width height distance).signedArea =
      width * height + 2 * distance * (width + height) + 2 * distance ^ 2 := by
  rw [OffsetLoop.signedArea, Polyline.signedArea_eq]
  simp only [OffsetLoop.points, outsetRectangle, List.map_cons, List.map_nil,
    Polyline.cyclicSteps, Polyline.steps, List.cons_append, List.nil_append, List.sum_cons,
    List.sum_nil, Polyline.doubleArea]
  ring

theorem run_aroundRectangle_outwards (outline : Polyline ℝ) (positive : 0 < distance) :
    (aroundRectangle width height).run outline (-distance) =
      .ok [outsetRectangle width height distance] := by
  have isAround : aroundRectangle width height outline.distinct (-distance) =
      some [outsetRectangle width height distance] := by
    rw [aroundRectangle, if_pos (neg_neg_of_pos positive), neg_neg]
  rw [run, isAround]
  rfl

/-- The loop around a rectangle encloses more than the rectangle. -/
theorem aroundClosed_outwards (wide : 0 < width) (tall : 0 < height) (positive : 0 < distance) :
    (aroundRectangle width height).aroundClosed (.rectangle 0 0 width height) distance =
      .ok [outsetRectangle width height distance] := by
  have isOutline : ({ points := (if (Polyline.rectangle 0 0 width height).isCounterclockwise
      then Polyline.rectangle 0 0 width height
      else (Polyline.rectangle 0 0 width height).reversed).points, closed := true } :
        Polyline ℝ) = .rectangle 0 0 width height := outline_rectangle wide tall
  have area := signedArea_outsetRectangle width height distance
  have larger : width * height < (outsetRectangle width height distance).signedArea := by
    have beside : 0 < 2 * distance * (width + height) := by positivity
    rw [area]
    linarith [sq_nonneg distance]
  have counterclockwise : 0 < (outsetRectangle width height distance).signedArea :=
    (mul_pos wide tall).trans larger
  have matching : matchesDistance [outsetRectangle width height distance] (width * height)
      distance = true := by
    simp only [matchesDistance, List.map_cons, List.map_nil, List.foldl_nil,
      ExactScalar.literal_zero, magnitude_eq_abs, abs_of_pos counterclockwise, if_pos positive]
    exact decide_eq_true larger
  simp only [aroundClosed, isOutline, run_aroundRectangle_outwards _ positive, bind, Except.bind,
    Polyline.signedArea_rectangle, matching, if_true, pure, Except.pure, List.map_singleton,
    ExactScalar.literal_zero, if_neg (not_lt.mpr counterclockwise.le)]

/-- The way to the right and then down, from the origin. -/
noncomputable def bend (across down : ℝ) : Polyline ℝ :=
  { points := [{ x := 0, y := 0 }, { x := across, y := 0 }, { x := across, y := -down }]
    closed := false }

/-- The line to the left of a bend, which is outside of its corner. -/
noncomputable def outsideBend (across down distance : ℝ) : OffsetLoop ℝ :=
  { vertices := [
      { point := { x := 0, y := distance }, bulge := 0 },
      { point := { x := across, y := distance }, bulge := -quarter },
      { point := { x := across + distance, y := 0 }, bulge := 0 },
      { point := { x := across + distance, y := -down }, bulge := 0 }]
    closed := false }

/-- The line to the right of a bend, which is inside of its corner. -/
noncomputable def insideBend (across down distance : ℝ) : OffsetLoop ℝ :=
  .ofPolyline {
    points := [
      { x := 0, y := -distance },
      { x := across - distance, y := -distance },
      { x := across - distance, y := -down }]
    closed := false }

/-- The lines beside a bend with room for them. -/
noncomputable def besideBend (across down : ℝ) : Offsetter ℝ := fun _ distance =>
  if 0 < distance then some [outsideBend across down distance]
  else if -distance < across ∧ -distance < down then some [insideBend across down (-distance)]
  else some []

theorem isArc_of_considerable {start stop : PlanePoint ℝ} {bulge : ℝ}
    (bulges : 1 / 10 ^ 9 ≤ |bulge|) (apart : 1 / 10 ^ 9 ≤ start.distance stop) :
    (OffsetLoop.arcOfBulge? start stop bulge).isSome = true := by
  have negligible : (OffsetLoop.negligible : ℝ) = 1 / 10 ^ 9 := by
    rw [OffsetLoop.negligible, ExactScalar.decimal]
    norm_num
  rw [OffsetLoop.arcOfBulge?, if_neg]
  · rfl
  · rw [magnitude_eq_abs, negligible]
    rintro (flat | short)
    · exact absurd flat (not_lt.mpr bulges)
    · exact absurd short (not_lt.mpr apart)

theorem exists_arc_outsideBend (across down : ℝ) (far : 1 ≤ distance) :
    ∃ first rest, (outsideBend across down distance).toPath = first :: rest ∧
      ∃ vertex ∈ rest, vertex.arc.isSome = true := by
  have bulges : 1 / 10 ^ 9 ≤ |-quarter| := by
    have root : (1.4 : ℝ) ≤ √2 := Real.le_sqrt_of_sq_le (by norm_num)
    rw [abs_neg, quarter, abs_of_pos (by linarith)]
    norm_num
    linarith
  have apart : 1 / 10 ^ 9 ≤ PlanePoint.distance ⟨across, distance⟩ ⟨across + distance, 0⟩ := by
    have reach : 1 ≤ √((across + distance - across) ^ 2 + (0 - distance) ^ 2) :=
      Real.le_sqrt_of_sq_le (by nlinarith)
    exact le_trans (by norm_num) reach
  exact ⟨_, _, rfl, _, .tail _ (.head _), isArc_of_considerable bulges apart⟩

theorem besideOpen_bend (across down : ℝ) (left : 0 < distance) :
    (besideBend across down).besideOpen (bend across down) distance =
      .ok [outsideBend across down distance] := by
  have isBeside (outline : Polyline ℝ) : besideBend across down outline distance =
      some [outsideBend across down distance] := if_pos left
  rw [besideOpen, run, isBeside]
  rfl

end Milling.Offsetter
