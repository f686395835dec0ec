import Mathlib
import Milling.Proofs.Offset.Chord
import Milling.Proofs.Offset.Reversal

/-!
# Loops with chords for their arcs

The edges of a loop whose arcs are replaced stay near the loop, and a loop
travelled backwards passes no other places.
-/

namespace Milling

namespace OffsetLoop

open Complex (I)

variable {start stop : PlanePoint ℝ} {bulge : ℝ} {arc : ArcMove ℝ}

/-- A place by its radius and its angle is the place on the arc. -/
theorem complex_polar (arc : ArcMove ℝ) (start : PlanePoint ℝ) (angle : ℝ) :
    (⟨arc.center.x + arc.center.distance start *
          Real.cos (Complex.arg (start.complex - arc.center.complex) + angle),
        arc.center.y + arc.center.distance start *
          Real.sin (Complex.arg (start.complex - arc.center.complex) + angle)⟩ : ℂ) =
      arc.place start angle := by
  have polar := Complex.norm_mul_exp_arg_mul_I (start.complex - arc.center.complex)
  have turned : (start.complex - arc.center.complex) * Complex.exp (angle * I) =
      (arc.center.distance start : ℝ) *
        Complex.exp ((Complex.arg (start.complex - arc.center.complex) + angle : ℝ) * I) := by
    rw [PlanePoint.distance_eq_dist, dist_comm, dist_eq_norm]
    push_cast
    rw [add_mul, Complex.exp_add, ← mul_assoc, polar]
  rw [ArcMove.place, turned]
  generalize Complex.arg (start.complex - arc.center.complex) + angle = total
  apply Complex.ext
  · rw [Complex.add_re, Complex.re_ofReal_mul, Complex.exp_ofReal_mul_I_re]
    rfl
  · rw [Complex.add_im, Complex.im_ofReal_mul, Complex.exp_ofReal_mul_I_im]
    rfl

/-- The places along a replaced arc are places of the arc, evenly spaced. -/
theorem map_complex_arcPoints (tolerance : ℝ) (arc : ArcMove ℝ) (start : PlanePoint ℝ)
    (bulge : ℝ) {count : Nat}
    (isCount : chordCount tolerance (dist start.complex arc.center.complex) (sweep bulge) = count) :
    (arcPoints tolerance arc start bulge).map PlanePoint.complex =
      (List.range (count - 1)).map fun index =>
        arc.place start ((index + 1 : ℕ) * (sweep bulge / count)) := by
  have four : @OfNat.ofNat ℝ 4 (Scalar.instOfNat 4) = 4 := ExactScalar.literal 4
  rw [dist_comm, ← PlanePoint.distance_eq_dist] at isCount
  have isSweep : @OfNat.ofNat ℝ 4 (Scalar.instOfNat 4) * Scalar.atan bulge = sweep bulge := by
    rw [four]
    rfl
  unfold arcPoints
  simp only [isSweep, isCount, List.map_map]
  refine List.map_congr_left fun index _ => ?_
  have angle : ((index + 1 : ℕ) : ℝ) * (sweep bulge / count) =
      sweep bulge * Scalar.ofInt ((index + 1 : ℕ) : ℤ) / Scalar.ofInt (count : ℤ) := by
    rw [ExactScalar.ofInt_cast, ExactScalar.ofInt_cast]
    push_cast
    ring
  rw [← complex_polar, angle]
  rfl

/-- The places of a move that stand for it: its start, and those along its arc. -/
noncomputable def replaced (tolerance : ℝ) (move : BulgeVertex ℝ × PlanePoint ℝ) :
    List (PlanePoint ℝ) :=
  move.1.point ::
    match arcOfBulge? move.1.point move.2 move.1.bulge with
    | some arc => arcPoints tolerance arc move.1.point move.1.bulge
    | none => []

/-- With its end a replaced arc has a place for each part of its turn. -/
theorem map_complex_replaced {tolerance : ℝ} {move : BulgeVertex ℝ × PlanePoint ℝ}
    {arc : ArcMove ℝ} (isArc : arcOfBulge? move.1.point move.2 move.1.bulge = some arc)
    {count : Nat}
    (isCount : chordCount tolerance (dist move.1.point.complex arc.center.complex)
      (sweep move.1.bulge) = count) :
    (replaced tolerance move ++ [move.2]).map PlanePoint.complex =
      (List.range (count + 1)).map fun index : Nat =>
        arc.place move.1.point (index * (sweep move.1.bulge / count)) := by
  have positive : 0 < count := isCount ▸ chordCount_pos _ _ _
  have along := map_complex_arcPoints tolerance arc move.1.point move.1.bulge isCount
  obtain ⟨before, rfl⟩ := Nat.exists_eq_add_one.mpr positive
  have whole : ((before + 1 : ℕ) : ℝ) * (sweep move.1.bulge / (before + 1 : ℕ)) =
      sweep move.1.bulge := mul_div_cancel₀ _ (Nat.cast_ne_zero.mpr positive.ne')
  have first : arc.place move.1.point ((0 : ℕ) * (sweep move.1.bulge / (before + 1 : ℕ))) =
      move.1.point.complex := by
    rw [Nat.cast_zero, zero_mul, arc.place_zero]
  have last : arc.place move.1.point
      ((before + 1 : ℕ) * (sweep move.1.bulge / (before + 1 : ℕ))) = move.2.complex := by
    rw [whole, place_sweep isArc]
  have parts : (List.range (before + 1 + 1)).map (fun index : Nat =>
      arc.place move.1.point (index * (sweep move.1.bulge / (before + 1 : ℕ)))) =
        move.1.point.complex :: (List.range before).map (fun index =>
          arc.place move.1.point
            ((index + 1 : ℕ) * (sweep move.1.bulge / (before + 1 : ℕ)))) ++
          [move.2.complex] := by
    rw [List.range_succ, List.map_append, List.map_singleton, last, List.range_succ_eq_map,
      List.map_cons, first, List.map_map]
    rfl
  rw [parts]
  simp only [replaced, isArc, List.map_append, List.map_cons, along]
  rfl

/-- Chords that stand for a move stay near it. -/
theorem exists_trace_near {tolerance : ℝ} (positive : 0 < tolerance)
    {move : BulgeVertex ℝ × PlanePoint ℝ} {edge : PlanePoint ℝ × PlanePoint ℝ}
    (isEdge : edge ∈ Polyline.steps (replaced tolerance move ++ [move.2])) {point : ℂ}
    (isOn : point ∈ segment ℝ edge.1.complex edge.2.complex) :
    ∃ place ∈ trace move.1.point move.2 move.1.bulge, dist point place ≤ 2 * tolerance := by
  cases isArc : arcOfBulge? move.1.point move.2 move.1.bulge with
  | none =>
      simp only [replaced, isArc, List.cons_append, List.nil_append, Polyline.steps,
        List.mem_singleton] at isEdge
      subst isEdge
      rw [trace_of_line isArc]
      exact ⟨point, isOn, by rw [dist_self]; linarith⟩
  | some arc =>
      generalize isCount : chordCount tolerance (dist move.1.point.complex arc.center.complex)
        (sweep move.1.bulge) = count
      have isStep := Polyline.mem_steps_map PlanePoint.complex isEdge
      rw [map_complex_replaced isArc isCount] at isStep
      obtain ⟨index, within, isPair⟩ := Polyline.mem_steps_range isStep
      obtain ⟨isFirst, isLast⟩ := Prod.mk.inj isPair
      rw [isFirst, isLast] at isOn
      exact exists_trace_near_chord isArc positive isCount within isOn

def passes (loop : OffsetLoop ℝ) : Set ℂ :=
  {place | ∃ move ∈ loop.segments, place ∈ trace move.1.point move.2 move.1.bulge}

/-- The edges that stand for moves, with the end of the last move behind them, stand for
one of them each. -/
theorem mem_steps_replaced {tolerance : ℝ} {vertex : BulgeVertex ℝ}
    {vertices : List (BulgeVertex ℝ)} {final : PlanePoint ℝ}
    {edge : PlanePoint ℝ × PlanePoint ℝ}
    (isEdge : edge ∈ Polyline.steps
      ((((vertex :: vertices).zip (vertices.map BulgeVertex.point ++ [final])).flatMap
        (replaced tolerance)) ++ [final])) :
    ∃ move ∈ (vertex :: vertices).zip (vertices.map BulgeVertex.point ++ [final]),
      edge ∈ Polyline.steps (replaced tolerance move ++ [move.2]) := by
  induction vertices generalizing vertex with
  | nil =>
      refine ⟨(vertex, final), List.mem_cons_self, ?_⟩
      simpa using isEdge
  | cons next vertices ih =>
      rw [List.map_cons, List.cons_append, List.zip_cons_cons, List.flatMap_cons,
        List.append_assoc] at isEdge
      have start : ∃ after, (((next :: vertices).zip (vertices.map BulgeVertex.point ++
          [final])).flatMap (replaced tolerance)) ++ [final] = next.point :: after := by
        cases vertices <;> exact ⟨_, rfl⟩
      obtain ⟨after, isAfter⟩ := start
      rw [isAfter] at isEdge
      rcases Polyline.mem_steps_append_cons isEdge with here | later
      · exact ⟨(vertex, next.point), List.mem_cons_self, here⟩
      · rw [← isAfter] at later
        obtain ⟨move, isMove, inMove⟩ := ih later
        exact ⟨move, List.mem_cons_of_mem _ isMove, inMove⟩

theorem flattened_of_closed {loop : OffsetLoop ℝ} (closed : loop.closed = true) (tolerance : ℝ) :
    loop.flattened tolerance = loop.segments.flatMap (replaced tolerance) := by
  unfold flattened
  rw [closed]
  dsimp only
  congr 1
  funext ⟨vertex, stop⟩
  cases isArc : arcOfBulge? vertex.point stop vertex.bulge <;> simp [replaced, isArc]

/-- The segments of a closed polyline are among the steps around it. -/
theorem segments_subset_cyclicSteps {points : List (PlanePoint ℝ)} :
    ∀ edge ∈ Polyline.segments { points, closed := true }, edge ∈ Polyline.cyclicSteps points := by
  intro edge isEdge
  unfold Polyline.segments at isEdge
  split at isEdge
  · exact isEdge
  · cases points with
    | nil => cases isEdge
    | cons first rest => exact Polyline.mem_steps_append isEdge [first]

/-- The edges of a closed loop with chords for its arcs stay near the loop. -/
theorem exists_passes_near {loop : OffsetLoop ℝ} (closed : loop.closed = true)
    {tolerance : ℝ} (positive : 0 < tolerance) {edge : PlanePoint ℝ × PlanePoint ℝ}
    (isEdge : edge ∈ Polyline.segments { points := loop.flattened tolerance, closed := true })
    {point : ℂ} (isOn : point ∈ segment ℝ edge.1.complex edge.2.complex) :
    ∃ place ∈ loop.passes, dist point place ≤ 2 * tolerance := by
  have isStep := segments_subset_cyclicSteps edge isEdge
  rw [flattened_of_closed closed] at isStep
  obtain ⟨vertices, isClosed⟩ := loop
  obtain rfl : isClosed = true := closed
  cases vertices with
  | nil => cases isStep
  | cons vertex vertices =>
      have start : ∃ after, ({ vertices := vertex :: vertices, closed := true } :
          OffsetLoop ℝ).segments.flatMap (replaced tolerance) = vertex.point :: after := by
        cases vertices <;> exact ⟨_, rfl⟩
      obtain ⟨after, isAfter⟩ := start
      rw [isAfter, Polyline.cyclicSteps, ← isAfter] at isStep
      obtain ⟨move, isMove, inMove⟩ := mem_steps_replaced isStep
      obtain ⟨place, onMove, near⟩ := exists_trace_near positive inMove isOn
      exact ⟨place, ⟨move, isMove, onMove⟩, near⟩

/-- A loop passes no other places backwards. -/
theorem passes_reversed_subset (loop : OffsetLoop ℝ) : loop.reversed.passes ⊆ loop.passes := by
  rintro place ⟨back, isBack, onBack⟩
  rw [segments_reversed, List.mem_reverse] at isBack
  obtain ⟨move, isMove, rfl⟩ := List.mem_map.mp isBack
  exact ⟨move, isMove, trace_symm_subset move.1.point move.2 move.1.bulge onBack⟩

theorem mem_passes_of_mem_toPath {loop : OffsetLoop ℝ} (closed : loop.closed = true)
    {vertex : PathVertex ℝ} (isVertex : vertex ∈ loop.toPath) :
    vertex.point.complex ∈ loop.passes := by
  obtain ⟨vertices, isClosed⟩ := loop
  obtain rfl : isClosed = true := closed
  cases vertices with
  | nil => cases isVertex
  | cons first rest =>
      rcases List.mem_cons.mp isVertex with rfl | later
      · have starts : ∃ stop, (first, stop) ∈
            ({ vertices := first :: rest, closed := true } : OffsetLoop ℝ).segments := by
          cases rest <;> exact ⟨_, List.mem_cons_self⟩
        obtain ⟨stop, isMove⟩ := starts
        exact ⟨(first, stop), isMove, start_mem_trace first.point stop first.bulge⟩
      · obtain ⟨move, isMove, rfl⟩ := List.mem_map.mp later
        exact ⟨move, isMove, stop_mem_trace move.1.point move.2 move.1.bulge⟩

end OffsetLoop

end Milling
