import Mathlib
import Milling.Proofs.Geometry.Wall
import Milling.Proofs.Offset.Inset

/-!
# Insets of rectangles

The inward loop of a rectangle is a rectangle again, as long as one is left.
-/

namespace Milling

namespace OffsetLoop

theorem points_ofPolyline (polyline : Polyline ℝ) :
    (ofPolyline polyline).points = polyline.points := by
  simp [points, ofPolyline, Function.comp_def]

/-- The moves of a loop without arcs are the segments of its outline. -/
theorem segments_ofPolyline {polyline : Polyline ℝ} (closed : polyline.closed = true)
    (enough : 2 < polyline.points.length) {move : BulgeVertex ℝ × PlanePoint ℝ}
    (isMove : move ∈ (ofPolyline polyline).segments) :
    (move.1.point, move.2) ∈ polyline.segments ∧ move.1.bulge = 0 := by
  rw [Polyline.segments, if_pos ⟨closed, enough⟩]
  have isPoints := points_ofPolyline polyline
  cases points : polyline.points with
  | nil =>
      rw [points] at enough
      cases enough
  | cons first rest =>
      rw [points] at isPoints
      have vertices : (ofPolyline polyline).vertices =
          (first :: rest).map fun point => { point, bulge := 0 } := by
        simp only [ofPolyline, points, ExactScalar.literal_zero]
      rw [segments_of_closed closed isPoints, vertices, List.zip_map_left] at isMove
      obtain ⟨step, isStep, rfl⟩ := List.mem_map.mp isMove
      rw [Polyline.cyclicSteps, Polyline.steps_append_singleton]
      exact ⟨isStep, rfl⟩

/-- A loop without arcs passes the walls of its outline. -/
theorem passes_ofPolyline {polyline : Polyline ℝ} (closed : polyline.closed = true)
    (enough : 2 < polyline.points.length) :
    (ofPolyline polyline).passes ⊆ polyline.walls := by
  rintro place ⟨move, isMove, onMove⟩
  obtain ⟨isSegment, straight⟩ := segments_ofPolyline closed enough isMove
  have isLine : arcOfBulge? move.1.point move.2 move.1.bulge = none := by
    rw [arcOfBulge?, if_pos]
    left
    rw [straight, magnitude_eq_abs, abs_zero, negligible, ExactScalar.decimal]
    positivity
  rw [trace_of_line isLine] at onMove
  exact ⟨_, isSegment, onMove⟩

end OffsetLoop

namespace Offsetter

/-- The rectangle along the inside of another one. -/
noncomputable def insetRectangle (width height distance : ℝ) : OffsetLoop ℝ :=
  .ofPolyline (.rectangle distance distance (width - 2 * distance) (height - 2 * distance))

/-- The inward loops of a rectangle with a corner at the origin. -/
noncomputable def rectangular (width height : ℝ) : Offsetter ℝ := fun _ distance =>
  if 2 * distance < width ∧ 2 * distance < height then
    some [insetRectangle width height distance]
  else some []

variable {width height distance : ℝ}

theorem signedArea_insetRectangle (distance : ℝ) :
    (insetRectangle width height distance).signedArea =
      (width - 2 * distance) * (height - 2 * distance) :=
  Polyline.signedArea_rectangle _ _ _ _

theorem outline_rectangle (wide : 0 < width) (tall : 0 < height) :
    (Polyline.rectangle 0 0 width height).outline = .rectangle 0 0 width height := by
  have counterclockwise : (Polyline.rectangle 0 0 width height).isCounterclockwise = true := by
    rw [Polyline.isCounterclockwise, Polyline.signedArea_rectangle, ExactScalar.literal_zero]
    exact decide_eq_true (mul_pos wide tall)
  rw [Polyline.outline, if_pos counterclockwise]
  rfl

theorem insetRectangle_isInset (positive : 0 < distance) (wide : 2 * distance < width)
    (tall : 2 * distance < height) :
    (insetRectangle width height distance).IsInset (.rectangle 0 0 width height) distance where
  closed := rfl
  smaller := by
    have less := mul_pos (sub_pos.mpr wide) (sub_pos.mpr tall)
    rw [signedArea_insetRectangle, outline_rectangle (by linarith) (by linarith),
      Polyline.signedArea_rectangle, abs_of_pos less]
    exact mul_lt_mul'' (by linarith) (by linarith) (by linarith) (by linarith)
  clears := by
    intro place onLoop
    have tolerance : (0 : ℝ) ≤ Polyline.repeatTolerance := by
      rw [Polyline.repeatTolerance, ExactScalar.decimal]
      positivity
    have onWall := OffsetLoop.passes_ofPolyline rfl (by simp [Polyline.rectangle]) onLoop
    have sides := (Polyline.mem_walls_rectangle (by linarith) (by linarith)).mp onWall
    refine (Polyline.clears_rectangle positive ?_ ?_).mono (by linarith)
    · rcases sides with ⟨⟨left, right⟩, _⟩ | ⟨_, side | side⟩ <;>
        exact ⟨by linarith, by linarith⟩
    · rcases sides with ⟨_, side | side⟩ | ⟨⟨low, high⟩, _⟩ <;>
        exact ⟨by linarith, by linarith⟩

theorem keepsInside_rectangular (width height : ℝ) :
    (rectangular width height).KeepsInside (.rectangle 0 0 width height) := by
  intro distance loops positive made loop isLoop
  unfold rectangular at made
  split at made
  · rename_i fits
    obtain rfl := Option.some.inj made
    obtain rfl := List.mem_singleton.mp isLoop
    exact insetRectangle_isInset positive fits.1 fits.2
  · obtain rfl := Option.some.inj made
    cases isLoop

theorem run_rectangular (outline : Polyline ℝ) (distance : ℝ) :
    (rectangular width height).run outline distance =
      .ok (if 2 * distance < width ∧ 2 * distance < height then
        [insetRectangle width height distance] else []) := by
  unfold run rectangular
  split_ifs <;> rfl

theorem aroundClosed_rectangular (width height : ℝ) (positive : 0 < distance) :
    (rectangular width height).aroundClosed (.rectangle 0 0 width height) (-distance) =
      .ok (if 2 * distance < width ∧ 2 * distance < height then
        [insetRectangle width height distance] else []) := by
  rw [aroundClosed_of_run (keepsInside_rectangular width height) positive
    (run_rectangular _ distance)]
  split_ifs with fits
  · have notClockwise : ¬(insetRectangle width height distance).signedArea < 0 := by
      rw [signedArea_insetRectangle, not_lt]
      exact mul_nonneg (by linarith) (by linarith)
    rw [List.map_singleton, if_neg notClockwise]
  · rfl

theorem rings_rectangular {inset step : ℝ} (positive : 0 < inset) (inward : 0 ≤ step)
    (fits : 2 * inset < width ∧ 2 * inset < height)
    (full : ¬(2 * (inset + step) < width ∧ 2 * (inset + step) < height)) (count : Nat) :
    (rectangular width height).rings (.rectangle 0 0 width height) inset step (count + 2) =
      .ok [[insetRectangle width height inset]] := by
  have first := aroundClosed_rectangular width height positive
  have second := aroundClosed_rectangular width height (add_pos_of_pos_of_nonneg positive inward)
  rw [if_pos fits] at first
  rw [if_neg full] at second
  rw [rings, first, rings, second]
  rfl

end Offsetter

end Milling
